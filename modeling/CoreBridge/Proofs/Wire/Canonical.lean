import CoreBridge.Proofs.Wire.RoundTrip

/-!
# One wire form for each value

The round trip says that a wire form is read as its value. The other direction
holds for the types whose values a program cannot hold in two orders, nor split
in two ways over seconds and parts of a second: without maps and points in time,
the bytes that are read as a value are those that are written for it. Each
reader refuses whatever its writer would not have written, so it is enough to
follow the bytes that a reader takes (`Reader.Ensures`) next to those that the
writer appends (`Value.HasForm`).
-/
namespace CoreBridge

theorem Bytes.toNat_lt (bytes : Bytes) : bytes.toNat < 256 ^ bytes.length := by
  have h := Bytes.toNat_ofNat bytes.length bytes.toNat
  rw [Bytes.ofNat_toNat] at h
  rw [h]
  exact Nat.mod_lt _ (Nat.pow_pos (by decide))

namespace Wire

variable {α β : Type}

namespace Reader

/-- Whether whatever `r` answers stands in relation `P` to the bytes it took for it. -/
def Ensures (P : α → Bytes → Prop) (r : Reader α) : Prop :=
  ∀ bytes rest a, r bytes = (.ok a, rest) → ∃ taken, bytes = taken ++ rest ∧ P a taken

variable {P P' : α → Bytes → Prop} {Q : β → Bytes → Prop}

theorem ensures_pure {a : α} (h : P a []) : (pure a : Reader α).Ensures P := by
  intro bytes rest b hrun
  obtain ⟨hb, rfl⟩ := Prod.mk.inj hrun
  obtain rfl := Except.ok.inj hb
  exact ⟨[], rfl, h⟩

theorem ensures_fail (error : DecodeError) : (fail error : Reader α).Ensures P := by
  intro bytes rest a hrun
  cases (Prod.mk.inj hrun).1

theorem Ensures.mono {r : Reader α} (hr : r.Ensures P) (h : ∀ a bytes, P a bytes → P' a bytes) :
    r.Ensures P' := by
  intro bytes rest a hrun
  obtain ⟨taken, hbytes, ha⟩ := hr bytes rest a hrun
  exact ⟨taken, hbytes, h a taken ha⟩

theorem Ensures.bind {r : Reader α} {f : α → Reader β} (hr : r.Ensures P)
    (hf : ∀ a first, P a first → (f a).Ensures fun b second => Q b (first ++ second)) :
    (r >>= f).Ensures Q := by
  intro bytes rest b hrun
  rw [bind_apply] at hrun
  rcases hfirst : r bytes with ⟨error | a, middle⟩
  · rw [hfirst] at hrun
    cases (Prod.mk.inj hrun).1
  · rw [hfirst] at hrun
    obtain ⟨first, rfl, ha⟩ := hr bytes middle a hfirst
    obtain ⟨second, rfl, hb⟩ := hf a first ha middle rest b hrun
    exact ⟨first ++ second, (List.append_assoc ..).symm, hb⟩

/-- A step that only looks at what was read takes no further bytes. -/
theorem Ensures.map {r : Reader α} {f : α → β} (hr : r.Ensures P)
    (h : ∀ a bytes, P a bytes → Q (f a) bytes) : (do return f (← r)).Ensures Q :=
  hr.bind fun a first ha => ensures_pure (by rw [List.append_nil]; exact h a first ha)

/-! ## The simple types -/

theorem ensures_take (n : Nat) : (take n).Ensures fun bytes taken =>
    bytes = taken ∧ taken.length = n := by
  intro bytes rest taken hrun
  rw [take_apply] at hrun
  split at hrun
  · rename_i hle
    obtain ⟨htaken, rfl⟩ := Prod.mk.inj hrun
    obtain rfl := Except.ok.inj htaken
    exact ⟨bytes.take n, (List.take_append_drop n bytes).symm, rfl, List.length_take_of_le hle⟩
  · cases (Prod.mk.inj hrun).1

theorem ensures_number (width : Nat) : (number width).Ensures fun n taken =>
    n < 256 ^ width ∧ Bytes.ofNat width n = taken := by
  refine (ensures_take width).map fun bytes taken h => ?_
  obtain ⟨rfl, rfl⟩ := h
  exact ⟨bytes.toNat_lt, bytes.ofNat_toNat⟩

theorem ensures_scalar (k : Scalar) : (scalar k).Ensures fun word taken =>
    Bytes.ofNat k.size word.toNat = taken := by
  refine (ensures_number k.size).map fun n taken h => ?_
  obtain ⟨hlt, rfl⟩ := h
  have hpow : 2 ^ (8 * k.size) = 256 ^ k.size := by rw [Nat.pow_mul]
  rw [BitVec.toNat_ofNat, hpow, Nat.mod_eq_of_lt hlt]

theorem ensures_int (k : Scalar) : (int k).Ensures fun n taken =>
    ∃ word, k.toInt word = n ∧ Bytes.ofNat k.size word.toNat = taken :=
  (ensures_scalar k).map fun word _ h => ⟨word, rfl, h⟩

/-- A byte that reads as zero or one is the mark of it. -/
theorem mark_of_toInt {word : Scalar.i8.Word} {b : Bool} {bytes : Bytes}
    (hword : Scalar.i8.toInt word = if b then 1 else 0)
    (hbytes : Bytes.ofNat Scalar.i8.size word.toNat = bytes) : Bytes.ofNat 1 b.toNat = bytes := by
  have hmark : word = BitVec.ofNat 8 b.toNat := by
    refine BitVec.eq_of_toInt_eq (Eq.trans hword ?_)
    cases b <;> rfl
  subst hmark
  cases b <;> exact hbytes

theorem ensures_bool : bool.Ensures fun b taken => Bytes.ofNat 1 b.toNat = taken := by
  refine (ensures_int .i8).bind fun n first h => ?_
  obtain ⟨word, hword, hfirst⟩ := h
  split
  · exact ensures_pure (by rw [List.append_nil]; exact mark_of_toInt hword hfirst)
  · exact ensures_pure (by rw [List.append_nil]; exact mark_of_toInt hword hfirst)
  · exact ensures_fail _

theorem ensures_presence : presence.Ensures fun b taken => Bytes.ofNat 1 b.toNat = taken := by
  refine (ensures_int .i8).bind fun n first h => ?_
  obtain ⟨word, hword, hfirst⟩ := h
  split
  · exact ensures_pure (by rw [List.append_nil]; exact mark_of_toInt hword hfirst)
  · exact ensures_pure (by rw [List.append_nil]; exact mark_of_toInt hword hfirst)
  · exact ensures_fail _

theorem ensures_length : length.Ensures fun n taken => Emission.length n = .raw taken := by
  refine (ensures_int .i32).bind fun n first h => ?_
  obtain ⟨word, hword, rfl⟩ := h
  split
  · rename_i n
    refine ensures_pure ?_
    change word.toInt = n at hword
    have hlt : word.toNat < 2 ^ 32 := word.isLt
    have hwidth : 2 ^ (8 * Scalar.i32.size) = 4294967296 := rfl
    rw [BitVec.toInt_eq_toNat_cond, hwidth] at hword
    have hn : word.toNat = n ∧ n < 0x80000000 := by
      split at hword <;> omega
    rw [List.append_nil, Emission.length, if_pos hn.2, hn.1]
    rfl
  · exact ensures_fail _

theorem ensures_text : text.Ensures fun s taken => Emission.text s = .raw taken := by
  have hbytes : bytesWithLength.Ensures fun bytes taken =>
      Emission.bytesWithLength bytes = .raw taken := by
    refine ensures_length.bind fun n first hfirst => (ensures_take n).mono fun bytes second h => ?_
    obtain ⟨rfl, rfl⟩ := h
    rw [Emission.bytesWithLength, hfirst]
    rfl
  refine hbytes.bind fun bytes first hfirst => ?_
  split
  · rename_i s hs
    refine ensures_pure ?_
    rw [List.append_nil, Emission.text, Bytes.ofText_of_toText? hs]
    exact hfirst
  · exact ensures_fail _

theorem ensures_nanos (typeName : String) : (nanos typeName).Ensures fun part taken =>
    Bytes.ofNat 4 part.val = taken := by
  refine (ensures_number 4).bind fun n first hn => ?_
  split
  · exact ensures_pure (by rw [List.append_nil]; exact hn.2)
  · exact ensures_fail _

theorem ensures_duration :
    duration.Ensures fun span taken => Emission.duration span = .raw taken := by
  refine (ensures_scalar .u64).bind fun secs first hfirst =>
    (ensures_nanos "Duration").map fun part second hsecond => ?_
  obtain ⟨rfl, rfl⟩ := And.intro hfirst hsecond
  rfl

end Reader

open Reader

/-! ## Types with one wire form for each value -/

/-- Whether a type is built without maps and points in time, if the types called `names` are. -/
def Ty.IsPlain (names : List String) : Ty → Prop
  | .timestamp | .map .. => False
  | .option t | .seq t => t.IsPlain names
  | .named name => name ∈ names
  | _ => True

/-- Whether the fields of a declaration are built without maps and points in time. -/
def Decl.IsPlain (names : List String) : Decl → Prop
  | .record fields => ∀ field ∈ fields, field.type.IsPlain names
  | .enumeration variants =>
    ∀ variant ∈ variants, ∀ field ∈ variant.fields, field.type.IsPlain names

/-- Whether the types called `names` are built without maps and points in time
and from each other only. -/
def Schema.IsPlain (names : List String) (schema : Schema) : Prop :=
  ∀ d ∈ schema, d.1 ∈ names → d.2.IsPlain names

instance Ty.decidableIsPlain (names : List String) : DecidablePred (Ty.IsPlain names)
  | .timestamp | .map .. => isFalse id
  | .option t | .seq t => t.decidableIsPlain names
  | .named name => inferInstanceAs (Decidable (name ∈ names))
  | .scalar _ | .bool | .text | .duration => isTrue trivial

instance (names : List String) : DecidablePred (Decl.IsPlain names)
  | .record fields => inferInstanceAs (Decidable (∀ field ∈ fields, field.type.IsPlain names))
  | .enumeration variants => inferInstanceAs
      (Decidable (∀ variant ∈ variants, ∀ field ∈ variant.fields, field.type.IsPlain names))

instance (names : List String) : DecidablePred (Schema.IsPlain names) := fun schema =>
  inferInstanceAs (Decidable (∀ d ∈ schema, d.1 ∈ names → d.2.IsPlain names))

/-- Whether `bytes` is the wire form of `v`, a value of type `t` that a program can hold. -/
structure Value.HasForm (schema scope : Schema) (t : Ty) (v : Value) (bytes : Bytes) : Prop where
  hasType : v.HasType schema scope t
  isWellFormed : v.IsWellFormed
  emit_eq : v.emit = .raw bytes

/-- Whether `bytes` is the wire form of `vs`, values of type `t` one after the other. -/
structure Value.AllHaveForm (schema : Schema) (t : Ty) (vs : List Value) (bytes : Bytes) :
    Prop where
  haveType : Value.AllHaveType schema vs t
  areWellFormed : Value.AllWellFormed vs
  emitAll_eq : Value.emitAll vs = .raw bytes

/-- Whether `bytes` is the wire form of `vs`, the values of `fields` in order. -/
structure Value.FieldsHaveForm (schema scope : Schema) (fields : List Field) (vs : List Value)
    (bytes : Bytes) : Prop where
  haveType : Value.FieldsHaveType schema scope vs fields
  areWellFormed : Value.AllWellFormed vs
  emitAll_eq : Value.emitAll vs = .raw bytes

section Composite

variable {schema scope : Schema} {names : List String} {element : Ty → Reader Value}
  {named : String → Reader Value}

theorem ensures_repeated {t : Ty} {r : Reader Value}
    (hr : r.Ensures (Value.HasForm schema schema t)) (count : Nat) :
    (repeated count r).Ensures fun vs taken =>
      vs.length = count ∧ Value.AllHaveForm schema t vs taken := by
  induction count with
  | zero => exact ensures_pure ⟨rfl, trivial, trivial, rfl⟩
  | succ count ih =>
    rw [repeated_succ]
    refine hr.bind fun v first hv => ih.map fun vs second hvs => ?_
    obtain ⟨hcount, hvs⟩ := hvs
    refine ⟨congrArg (· + 1) hcount, ⟨hv.hasType, hvs.haveType⟩,
      ⟨hv.isWellFormed, hvs.areWellFormed⟩, ?_⟩
    rw [Value.emitAll, hv.emit_eq, hvs.emitAll_eq]
    rfl

/-- What is read for a plain type is written back as the bytes it was read from. -/
theorem Ty.ensures_readWith
    (helement : ∀ t, t.IsPlain names → (element t).Ensures (Value.HasForm schema schema t))
    (hnamed : ∀ name ∈ names, (named name).Ensures (Value.HasForm schema scope (.named name)))
    (t : Ty) (ht : t.IsPlain names) :
    (t.readWith element named).Ensures (Value.HasForm schema scope t) := by
  induction t with
  | scalar k =>
    exact (ensures_scalar k).map fun _ _ h => ⟨rfl, trivial, congrArg Emission.raw h⟩
  | bool => exact ensures_bool.map fun _ _ h => ⟨rfl, trivial, congrArg Emission.raw h⟩
  | text => exact ensures_text.map fun _ _ h => ⟨rfl, trivial, h⟩
  | duration => exact ensures_duration.map fun _ _ h => ⟨rfl, trivial, h⟩
  | timestamp => exact ht.elim
  | option t ih =>
    refine ensures_presence.bind fun there first hfirst => ?_
    cases there with
    | true =>
      refine (ih ht).map fun v second hv => ⟨⟨t, rfl, hv.hasType⟩, hv.isWellFormed, ?_⟩
      rw [Value.emit, hv.emit_eq, ← hfirst]
      rfl
    | false =>
      refine ensures_pure ⟨⟨t, rfl⟩, trivial, ?_⟩
      rw [List.append_nil, ← hfirst]
      rfl
  | seq t =>
    refine ensures_length.bind fun count first hfirst =>
      (ensures_repeated (helement t ht) count).map fun vs second hvs => ?_
    obtain ⟨rfl, hvs⟩ := hvs
    refine ⟨⟨t, rfl, hvs.haveType⟩, hvs.areWellFormed, ?_⟩
    rw [Value.emit, hfirst, hvs.emitAll_eq]
    rfl
  | map kind k v => exact ht.elim
  | named name => exact hnamed name ht

theorem ensures_readFields
    (helement : ∀ t, t.IsPlain names → (element t).Ensures (Value.HasForm schema schema t))
    (hnamed : ∀ name ∈ names, (named name).Ensures (Value.HasForm schema scope (.named name)))
    (fields : List Field) (hfields : ∀ field ∈ fields, field.type.IsPlain names) :
    (readFields element named fields).Ensures (Value.FieldsHaveForm schema scope fields) := by
  induction fields with
  | nil => exact ensures_pure ⟨trivial, trivial, rfl⟩
  | cons field fields ih =>
    obtain ⟨hfield, hfields⟩ := List.forall_mem_cons.1 hfields
    refine (field.type.ensures_readWith helement hnamed hfield).bind fun v first hv =>
      (ih hfields).map fun vs second hvs => ?_
    refine ⟨⟨hv.hasType, hvs.haveType⟩, ⟨hv.isWellFormed, hvs.areWellFormed⟩, ?_⟩
    rw [Value.emitAll, hv.emit_eq, hvs.emitAll_eq]
    rfl

/-- A variant that is found stands where it says and has the discriminant looked for. -/
theorem eq_of_findVariant {discriminant : Scalar.i32.Word} {variants : List Variant} {i : Nat}
    {variant : Variant} (h : findVariant discriminant variants = some (i, variant)) :
    variants[i]? = some variant ∧ variant.discriminant = discriminant := by
  obtain ⟨found, hfound, hpair⟩ := Option.map_eq_some_iff.1 h
  obtain ⟨rfl, rfl⟩ := Prod.mk.inj hpair
  have hmem := List.mem_zipIdx_iff_getElem?.1 (List.mem_of_find?_eq_some hfound)
  have heq := List.find?_some hfound
  exact ⟨hmem, of_decide_eq_true heq⟩

theorem Decl.ensures_readWith
    (helement : ∀ t, t.IsPlain names → (element t).Ensures (Value.HasForm schema schema t))
    {earlier : Schema}
    (hnamed : ∀ name ∈ names, (named name).Ensures (Value.HasForm schema earlier (.named name)))
    {name : String} {decl : Decl} (hdecl : decl.IsPlain names)
    (hfind : scope.find name = (decl, earlier)) :
    (decl.readWith element named name).Ensures (Value.HasForm schema scope (.named name)) := by
  cases decl with
  | record fields =>
    exact (ensures_readFields helement hnamed fields hdecl).map fun vs taken h =>
      ⟨⟨name, fields, earlier, rfl, hfind, h.haveType⟩, h.areWellFormed, h.emitAll_eq⟩
  | enumeration variants =>
    refine (ensures_scalar .i32).bind fun discriminant first hfirst => ?_
    split
    · rename_i position variant hvariant
      obtain ⟨hat, hdiscriminant⟩ := eq_of_findVariant hvariant
      have hfields := hdecl variant (List.mem_of_getElem? hat)
      refine (ensures_readFields helement hnamed _ hfields).map fun vs second h => ?_
      refine ⟨⟨name, variants, earlier, variant, rfl, hfind, hat, hdiscriminant, h.haveType⟩,
        h.areWellFormed, ?_⟩
      rw [Value.emit, h.emitAll_eq, ← hfirst]
      rfl
    · exact ensures_fail _

namespace Schema

/-- Only what a name stands for decides about the values of its type. -/
theorem hasType_named_congr {scope' : Schema} {name : String} {v : Value}
    (hfind : scope.find name = scope'.find name) (hv : v.HasType schema scope (.named name)) :
    v.HasType schema scope' (.named name) := by
  cases v with
  | record vs =>
    obtain ⟨name', fields, earlier, heq, hdecl, hvs⟩ := hv
    obtain rfl := Ty.named.inj heq
    exact ⟨name, fields, earlier, rfl, hfind ▸ hdecl, hvs⟩
  | variant i d vs =>
    obtain ⟨name', variants, earlier, variant, heq, hdecl, hrest⟩ := hv
    obtain rfl := Ty.named.inj heq
    exact ⟨name, variants, earlier, variant, rfl, hfind ▸ hdecl, hrest⟩
  | absent =>
    obtain ⟨s, heq⟩ := hv
    cases heq
  | present v =>
    obtain ⟨s, heq, -⟩ := hv
    cases heq
  | seq vs =>
    obtain ⟨s, heq, -⟩ := hv
    cases heq
  | map kind es =>
    obtain ⟨k, x, heq, -⟩ := hv
    cases heq
  | _ => cases hv

theorem ensures_readNamed
    (helement : ∀ t, t.IsPlain names → (element t).Ensures (Value.HasForm schema schema t))
    (scope : Schema) (hscope : scope.IsPlain names) (name : String) (hname : name ∈ names) :
    (scope.readNamed element name).Ensures (Value.HasForm schema scope (.named name)) := by
  induction scope generalizing name with
  | nil => exact ensures_pure ⟨⟨name, [], [], rfl, rfl, trivial⟩, trivial, rfl⟩
  | cons d earlier ih =>
    obtain ⟨declared, decl⟩ := d
    obtain ⟨hdecl, hearlier⟩ := List.forall_mem_cons.1 hscope
    unfold readNamed
    split
    · rename_i hdeclared
      subst hdeclared
      exact decl.ensures_readWith helement (ih hearlier) (hdecl hname) (if_pos rfl)
    · rename_i hdeclared
      have hfind : find earlier name = find ((declared, decl) :: earlier) name :=
        (if_neg hdeclared).symm
      exact (ih hearlier name hname).mono fun v taken h =>
        ⟨hasType_named_congr hfind h.hasType, h.isWellFormed, h.emit_eq⟩

theorem ensures_elementReader (hschema : schema.IsPlain names) (levels : Nat) (t : Ty)
    (ht : t.IsPlain names) :
    (schema.elementReader levels t).Ensures (Value.HasForm schema schema t) := by
  induction levels generalizing t with
  | zero => exact ensures_fail _
  | succ levels ih =>
    have hread := t.ensures_readWith ih (ensures_readNamed ih schema hschema) ht
    rwa [← readWithin_eq] at hread

/-- What is decoded is read and leaves nothing. -/
theorem read_of_decode {t : Ty} {bytes : Bytes} {v : Value} (h : schema.decode t bytes = .ok v) :
    schema.read t bytes = (.ok v, []) := by
  simp only [decode, bind_apply] at h
  rcases hread : schema.read t bytes with ⟨error | a, rest⟩
  · rw [hread] at h
    cases h
  · rw [hread] at h
    cases rest with
    | nil =>
      obtain rfl := Except.ok.inj h
      rfl
    | cons byte rest => cases h

/-- What a plain type is decoded to is a value of it, written as just the bytes decoded. -/
theorem hasForm_of_decode (hschema : schema.IsPlain names) {t : Ty} (ht : t.IsPlain names)
    {bytes : Bytes} {v : Value} (h : schema.decode t bytes = .ok v) :
    v.HasForm schema schema t bytes := by
  have hread := ensures_elementReader hschema (bytes.length + 1) t ht
  obtain ⟨taken, htaken, hform⟩ := hread bytes [] v (read_of_decode h)
  rw [List.append_nil] at htaken
  rwa [htaken]

/-- A plain type is decoded from the wire forms of its values and from nothing
else: bytes are decoded to a value just if they are what is written for it. So
bytes that are accepted are written back as they came, and no other bytes are
accepted for the same value. -/
theorem decode_eq_ok_iff (hdistinct : schema.IsDistinct) (hschema : schema.IsPlain names) {t : Ty}
    (ht : t.IsPlain names) (bytes : Bytes) (v : Value) :
    (schema.decode t bytes = .ok v ↔
      v.HasType schema schema t ∧ v.IsWellFormed ∧ encode v = .ok bytes) ∧
    (schema.decode t bytes = .ok v →
      ∀ other, schema.decode t other = .ok v ↔ other = bytes) := by
  have hcanonical : ∀ other, schema.decode t other = .ok v → encode v = .ok other :=
    fun other h => encode_eq_ok.2 (hasForm_of_decode hschema ht h).emit_eq
  refine ⟨⟨fun h => ?_, fun h => decode_of_encode hdistinct h.1 h.2.1 h.2.2⟩, fun h other => ?_⟩
  · have hform := hasForm_of_decode hschema ht h
    exact ⟨hform.hasType, hform.isWellFormed, hcanonical bytes h⟩
  · constructor
    · intro hother
      exact Except.ok.inj ((hcanonical other hother).symm.trans (hcanonical bytes h))
    · rintro rfl
      exact h

/-- A sum of one number is accepted from its wire form only; the type contains
itself, text and points, and no map. -/
theorem decode_eq_ok_iff_expression :
    let five : Bytes := [0, 0, 0, 2, 0, 0, 0, 1, 0, 0, 0, 1, 0, 0, 0, 0, 0, 0, 0, 5]
    let sum : Value := .variant 1 2 [.seq [.variant 0 1 [.scalar .i64 5]]]
    Specimens.schema.IsDistinct ∧ Specimens.schema.IsPlain ["Expr", "Point"] ∧
      (Ty.named "Expr").IsPlain ["Expr", "Point"] ∧
      Specimens.schema.decode (.named "Expr") five = .ok sum ∧
      sum.HasType Specimens.schema Specimens.schema (.named "Expr") ∧ encode sum = .ok five ∧
      ∀ other, Specimens.schema.decode (.named "Expr") other = .ok sum ↔ other = five := by
  intro five sum
  have hdistinct : Specimens.schema.IsDistinct := by decide
  have hschema : Specimens.schema.IsPlain ["Expr", "Point"] := by decide
  have ht : (Ty.named "Expr").IsPlain ["Expr", "Point"] := by decide
  have hfive : Specimens.schema.decode (.named "Expr") five = .ok sum := by rfl
  have hcanonical := decode_eq_ok_iff hdistinct hschema ht five sum
  obtain ⟨htype, -, hencode⟩ := hcanonical.1.1 hfive
  exact ⟨hdistinct, hschema, ht, hfive, htype, hencode, hcanonical.2 hfive⟩

end Schema
end Composite
end Wire
end CoreBridge
