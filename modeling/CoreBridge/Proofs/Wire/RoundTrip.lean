import CoreBridge.Proofs.Wire.MapEntries
import CoreBridge.Proofs.Wire.Reading
import CoreBridge.Wire.Decode
import CoreBridge.Wire.Specimens

/-!
# Reading what was written

A value of a type that has a wire form is read back from it, whatever follows
and whatever was in the buffer before. The levels that a reader counts down are
enough because a level is entered behind a count only, whose four bytes are
among those that are left.
-/
namespace CoreBridge.Wire

variable {schema : Schema}

/-! ## What a program can hold -/

mutual

/-- Whether the maps in a value are maps: the keys of an ordered one ascend, and
those of a hashed one differ, in whatever order it lists them. -/
def Value.IsWellFormed : Value → Prop
  | .present v => v.IsWellFormed
  | .seq vs | .record vs | .variant _ _ vs => Value.AllWellFormed vs
  | .map kind es => (es.Pairwise fun a b => kind.Precedes a.1 b.1) ∧ Value.EntriesWellFormed es
  | _ => True

def Value.AllWellFormed : List Value → Prop
  | [] => True
  | v :: vs => v.IsWellFormed ∧ Value.AllWellFormed vs

def Value.EntriesWellFormed : List (Value × Value) → Prop
  | [] => True
  | (key, value) :: es => key.IsWellFormed ∧ value.IsWellFormed ∧ Value.EntriesWellFormed es

end

/-- Whether no two variants of a declaration share a discriminant. -/
def Decl.IsDistinct : Decl → Prop
  | .record _ => True
  | .enumeration variants => variants.Pairwise fun a b => a.discriminant ≠ b.discriminant

instance : DecidablePred Decl.IsDistinct
  | .record _ => isTrue trivial
  | .enumeration variants => inferInstanceAs (Decidable (variants.Pairwise _))

namespace Schema

/-- Whether every enumeration of the schema is told by its discriminants. -/
def IsDistinct (schema : Schema) : Prop := ∀ d ∈ schema, d.2.IsDistinct

instance : DecidablePred IsDistinct := fun schema =>
  inferInstanceAs (Decidable (∀ d ∈ schema, d.2.IsDistinct))

theorem IsDistinct.find (h : schema.IsDistinct) (name : String) :
    (schema.find name).1.IsDistinct ∧ (schema.find name).2.IsDistinct := by
  induction schema with
  | nil => exact ⟨trivial, fun d hd => absurd hd List.not_mem_nil⟩
  | cons d earlier ih =>
    obtain ⟨declared, decl⟩ := d
    have hearlier : IsDistinct earlier := fun d hd => h d (List.mem_cons_of_mem _ hd)
    by_cases hname : declared = name
    · simp only [Schema.find, if_pos hname]
      exact ⟨h _ List.mem_cons_self, hearlier⟩
    · simp only [Schema.find, if_neg hname]
      exact ih hearlier

/-- Reading a declared name reads its declaration in the scope where it stands. -/
theorem readNamed_eq (element : Ty → Reader Value) (scope : Schema) (name : String) :
    scope.readNamed element name =
      (scope.find name).1.readWith element ((scope.find name).2.readNamed element) name := by
  induction scope with
  | nil => rfl
  | cons d earlier ih =>
    obtain ⟨declared, decl⟩ := d
    by_cases hname : declared = name
    · simp only [readNamed, Schema.find, if_pos hname]
    · simp only [readNamed, Schema.find, if_neg hname, ih]

/-- The reader of what stands behind a count, where `levels` are left. -/
def elementReader (schema : Schema) : (levels : Nat) → Ty → Reader Value
  | 0 => fun _ => Reader.fail (.unexpectedEnd 4 0)
  | levels + 1 => schema.readWithin levels

theorem readWithin_eq (schema : Schema) (levels : Nat) (t : Ty) :
    schema.readWithin levels t = t.readWith (schema.elementReader levels)
      (schema.readNamed (schema.elementReader levels)) := by
  cases levels <;> rfl

end Schema

theorem findVariant_of_isDistinct {variants : List Variant} {i : Nat} {variant : Variant}
    (h : variants.Pairwise fun a b => a.discriminant ≠ b.discriminant)
    (hvariant : variants[i]? = some variant) :
    findVariant variant.discriminant variants = some (i, variant) := by
  have hfound : variants.zipIdx.find? (·.1.discriminant = variant.discriminant) =
      some (variant, i) := by
    obtain ⟨hi, rfl⟩ := List.getElem?_eq_some_iff.1 hvariant
    rw [List.find?_eq_some_iff_getElem]
    refine ⟨by simp, i, by simpa using hi, by simp, fun j hj => ?_⟩
    have hne := List.pairwise_iff_getElem.1 h j i (by omega) hi hj
    simpa using hne
  simp [findVariant, hfound]

/-! ## Round trip -/

open Reader

mutual

/-- What is written for a value is read back as it, if at least as many levels
are left as bytes were written. The recursion is on the value. -/
theorem Value.reads_emit (hschema : schema.IsDistinct) : ∀ (v : Value) (levels : Nat)
    {scope : Schema} {t : Ty} {b : Bytes}, scope.IsDistinct → v.HasType schema scope t →
    v.IsWellFormed → v.emit = .raw b → b.length ≤ levels →
    (t.readWith (schema.elementReader levels)
      (scope.readNamed (schema.elementReader levels))).Reads b v
  | .scalar k word, levels, scope, t, b, _, ht, _, hb, _ => by
    obtain rfl : t = .scalar k := ht
    obtain rfl := Emission.raw_inj.1 hb
    exact (reads_scalar k word).answer rfl
  | .bool x, levels, scope, t, b, _, ht, _, hb, _ => by
    obtain rfl : t = .bool := ht
    obtain rfl := Emission.raw_inj.1 hb
    exact (reads_bool x).answer rfl
  | .text x, levels, scope, t, b, _, ht, _, hb, _ => by
    obtain rfl : t = .text := ht
    obtain ⟨_, _, hlength, hbytes, rfl⟩ := Emission.append_eq_raw.1 hb
    obtain ⟨hlt, rfl⟩ := Emission.length_eq_raw hlength
    obtain rfl := Emission.raw_inj.1 hbytes
    exact (reads_text hlt).answer rfl
  | .duration span, levels, scope, t, b, _, ht, _, hb, _ => by
    obtain rfl : t = .duration := ht
    obtain rfl := Emission.raw_inj.1 hb
    exact (reads_duration span).answer rfl
  | .timestamp x, levels, scope, t, b, _, ht, _, hb, _ => by
    obtain rfl : t = .timestamp := ht
    exact (reads_timestamp hb).answer rfl
  | .absent, levels, scope, t, b, _, ht, _, hb, _ => by
    obtain ⟨s, rfl⟩ := ht
    obtain rfl := Emission.raw_inj.1 hb
    exact (reads_presence false).answer rfl
  | .present v, levels, scope, t, b, hscope, ht, hv, hb, hlevels => by
    obtain ⟨s, rfl, ht⟩ := ht
    obtain ⟨_, b', hmark, hbytes, rfl⟩ := Emission.append_eq_raw.1 hb
    obtain rfl := Emission.raw_inj.1 hmark
    rw [List.length_append] at hlevels
    have hr := Value.reads_emit hschema v levels hscope ht hv hbytes (by omega)
    exact (reads_presence true).bind (hr.answer rfl)
  | .seq vs, levels, scope, t, b, _, ht, hv, hb, hlevels => by
    obtain ⟨s, rfl, ht⟩ := ht
    obtain ⟨_, b', hlength, hbytes, rfl⟩ := Emission.append_eq_raw.1 hb
    obtain ⟨hlt, rfl⟩ := Emission.length_eq_raw hlength
    rw [List.length_append, Bytes.length_ofNat] at hlevels
    obtain ⟨levels, rfl⟩ : ∃ n, levels = n + 1 := ⟨levels - 1, by omega⟩
    have hr := Value.reads_emitAll hschema vs levels ht hv hbytes (by omega)
    exact (reads_length hlt).bind (hr.answer rfl)
  | .map kind es, levels, scope, t, b, _, ht, hv, hb, hlevels => by
    obtain ⟨k, x, rfl, ht⟩ := ht
    obtain ⟨_, b', hlength, hbytes, rfl⟩ := Emission.append_eq_raw.1 hb
    obtain ⟨hlt, rfl⟩ := Emission.length_eq_raw hlength
    rw [List.length_append, Bytes.length_ofNat] at hlevels
    obtain ⟨levels, rfl⟩ : ∃ n, levels = n + 1 := ⟨levels - 1, by omega⟩
    have hr := Value.reads_emitEntries hschema es levels ht hv.2 hbytes (by omega)
    have hmap := hr.answer (f := fun entries => pure (Entries.ofList kind entries))
      (congrArg pure (Entries.ofList_eq_self ht hv.1))
    exact (reads_length hlt).bind (hmap.answer rfl)
  | .record vs, levels, scope, t, b, hscope, ht, hv, hb, hlevels => by
    obtain ⟨name, fields, earlier, rfl, hfind, ht⟩ := ht
    have hearlier := (hscope.find name).2
    simp only [Ty.readWith, Schema.readNamed_eq, hfind, Decl.readWith] at hearlier ⊢
    exact (Value.reads_emitFields hschema vs levels hearlier ht hv hb hlevels).answer rfl
  | .variant i d vs, levels, scope, t, b, hscope, ht, hv, hb, hlevels => by
    obtain ⟨name, variants, earlier, variant, rfl, hfind, hvariant, rfl, ht⟩ := ht
    obtain ⟨_, b', hmark, hbytes, rfl⟩ := Emission.append_eq_raw.1 hb
    obtain rfl := Emission.raw_inj.1 hmark
    rw [List.length_append] at hlevels
    obtain ⟨hdistinct, hearlier⟩ := hscope.find name
    simp only [Ty.readWith, Schema.readNamed_eq, hfind, Decl.readWith] at hdistinct hearlier ⊢
    have hr := Value.reads_emitFields hschema vs levels hearlier ht hv hbytes (by omega)
    refine (reads_scalar .i32 variant.discriminant).bind ?_
    rw [findVariant_of_isDistinct hdistinct hvariant]
    exact hr.answer rfl

theorem Value.reads_emitAll (hschema : schema.IsDistinct) : ∀ (vs : List Value) (levels : Nat)
    {t : Ty} {b : Bytes}, Value.AllHaveType schema vs t → Value.AllWellFormed vs →
    Value.emitAll vs = .raw b → b.length ≤ levels →
    (repeated vs.length (schema.readWithin levels t)).Reads b vs
  | [], levels, t, b, _, _, hb, _ => by
    obtain rfl := Emission.raw_inj.1 hb
    exact reads_pure []
  | v :: vs, levels, t, b, ht, hv, hb, hlevels => by
    obtain ⟨b₁, b₂, hfirst, hothers, rfl⟩ := Emission.append_eq_raw.1 hb
    rw [List.length_append] at hlevels
    have hhead := Value.reads_emit hschema v levels hschema ht.1 hv.1 hfirst (by omega)
    have htail := Value.reads_emitAll hschema vs levels ht.2 hv.2 hothers (by omega)
    rw [← Schema.readWithin_eq] at hhead
    rw [List.length_cons, repeated_succ]
    exact hhead.bind (htail.answer rfl)

theorem Value.reads_emitEntries (hschema : schema.IsDistinct) : ∀ (es : List (Value × Value))
    (levels : Nat) {k x : Ty} {b : Bytes}, Value.EntriesHaveType schema es k x →
    Value.EntriesWellFormed es → Value.emitEntries es = .raw b → b.length ≤ levels →
    (repeated es.length do
      let key ← schema.readWithin levels k
      let value ← schema.readWithin levels x
      return (key, value)).Reads b es
  | [], levels, k, x, b, _, _, hb, _ => by
    obtain rfl := Emission.raw_inj.1 hb
    exact reads_pure []
  | (key, value) :: es, levels, k, x, b, ht, hv, hb, hlevels => by
    obtain ⟨b₁, _, hkey, hrest, rfl⟩ := Emission.append_eq_raw.1 hb
    obtain ⟨b₂, b₃, hvalue, hothers, rfl⟩ := Emission.append_eq_raw.1 hrest
    rw [List.length_append, List.length_append] at hlevels
    have hk := Value.reads_emit hschema key levels hschema ht.1 hv.1 hkey (by omega)
    have hx := Value.reads_emit hschema value levels hschema ht.2.1 hv.2.1 hvalue (by omega)
    have htail := Value.reads_emitEntries hschema es levels ht.2.2 hv.2.2 hothers (by omega)
    rw [← Schema.readWithin_eq] at hk hx
    rw [List.length_cons, repeated_succ, ← List.append_assoc]
    exact (hk.pair hx).bind (htail.answer rfl)

theorem Value.reads_emitFields (hschema : schema.IsDistinct) : ∀ (vs : List Value) (levels : Nat)
    {scope : Schema} {fields : List Field} {b : Bytes}, scope.IsDistinct →
    Value.FieldsHaveType schema scope vs fields → Value.AllWellFormed vs →
    Value.emitAll vs = .raw b → b.length ≤ levels →
    (readFields (schema.elementReader levels)
      (scope.readNamed (schema.elementReader levels)) fields).Reads b vs
  | [], levels, scope, [], b, _, _, _, hb, _ => by
    obtain rfl := Emission.raw_inj.1 hb
    exact reads_pure []
  | v :: vs, levels, scope, field :: fields, b, hscope, ht, hv, hb, hlevels => by
    obtain ⟨b₁, b₂, hfirst, hothers, rfl⟩ := Emission.append_eq_raw.1 hb
    rw [List.length_append] at hlevels
    have hhead := Value.reads_emit hschema v levels hscope ht.1 hv.1 hfirst (by omega)
    have htail := Value.reads_emitFields hschema vs levels hscope ht.2 hv.2 hothers (by omega)
    exact hhead.bind (htail.answer rfl)

end

theorem encode_eq_ok {v : Value} {b : Bytes} : encode v = .ok b ↔ v.emit = .raw b := by
  unfold encode
  split
  · rename_i b' error hemit
    rw [hemit]
    constructor
    · exact nofun
    · exact fun h => absurd (congrArg Emission.failure h) (Option.some_ne_none error)
  · rename_i b' hemit
    rw [hemit]
    constructor
    · exact fun h => congrArg Emission.raw (Except.ok.inj h)
    · exact fun h => congrArg Except.ok (Emission.raw_inj.1 h)

namespace Writer

/-- A write that succeeds appends the wire form, whatever was written before. -/
theorem write_eq_ok {w w' : Writer} {v : Value} (h : w.write v = (.ok (), w')) :
    ∃ b, encode v = .ok b ∧ w'.bytes = w.bytes ++ b := by
  unfold write put at h
  obtain ⟨houtcome, rfl⟩ := Prod.mk.inj h
  cases hfailure : v.emit.failure with
  | some error => simp [hfailure] at houtcome
  | none =>
    refine ⟨v.emit.bytes, encode_eq_ok.2 ?_, rfl⟩
    rw [Emission.raw, ← hfailure]

end Writer

namespace Schema

/-- What was written for a value reads back as the value and leaves what follows. -/
theorem read_append_of_encode {t : Ty} {v : Value} {b : Bytes} (hschema : schema.IsDistinct)
    (ht : v.HasType schema schema t) (hv : v.IsWellFormed) (hb : encode v = .ok b) (rest : Bytes) :
    schema.read t (b ++ rest) = (.ok v, rest) := by
  have hlevels : b.length ≤ (b ++ rest).length := by simp
  have hr := v.reads_emit hschema _ hschema ht hv (encode_eq_ok.1 hb) hlevels
  rw [← readWithin_eq] at hr
  exact hr rest

theorem decode_of_encode {t : Ty} {v : Value} {b : Bytes} (hschema : schema.IsDistinct)
    (ht : v.HasType schema schema t) (hv : v.IsWellFormed) (hb : encode v = .ok b) :
    schema.decode t b = .ok v := by
  have hr := read_append_of_encode hschema ht hv hb []
  rw [List.append_nil] at hr
  simp only [decode, Reader.bind_apply, hr, Reader.finish, Reader.pure_apply]

/-- The round trip. If a value of a type is written after whatever the writer
holds, its wire form is appended, and reading the type from that form followed
by whatever else answers the value and leaves the rest. -/
theorem read_of_write {t : Ty} {v : Value} {w w' : Writer} (hschema : schema.IsDistinct)
    (ht : v.HasType schema schema t) (hv : v.IsWellFormed) (hw : w.write v = (.ok (), w')) :
    ∃ b, encode v = .ok b ∧ w'.bytes = w.bytes ++ b ∧
      (∀ rest, schema.read t (b ++ rest) = (.ok v, rest)) ∧ schema.decode t b = .ok v := by
  obtain ⟨b, hb, hbytes⟩ := Writer.write_eq_ok hw
  exact ⟨b, hb, hbytes, read_append_of_encode hschema ht hv hb, decode_of_encode hschema ht hv hb⟩

/-- Two trees by name, in a hashed map that lists them in no order of theirs;
the first contains another one. -/
def grove : Value := .map .hashed [
  (.text "oak", .record [.text "oak", .seq [.record [.text "twig", .seq []]]]),
  (.text "ash", .record [.text "ash", .seq []])]

theorem read_of_write_grove :
    Specimens.schema.IsDistinct ∧
      grove.HasType Specimens.schema Specimens.schema (.map .hashed .text (.named "Tree")) ∧
      grove.IsWellFormed ∧ ((⟨[7]⟩ : Writer).write grove).1 = .ok () ∧
      ∃ b, encode grove = .ok b ∧ ((⟨[7]⟩ : Writer).write grove).2.bytes = [7] ++ b ∧
        (∀ rest, Specimens.schema.read (.map .hashed .text (.named "Tree")) (b ++ rest) =
          (.ok grove, rest)) ∧
        Specimens.schema.decode (.map .hashed .text (.named "Tree")) b = .ok grove := by
  have hschema : Specimens.schema.IsDistinct := by decide
  have htree {vs : List Value} {label : String}
      (hvs : Value.AllHaveType Specimens.schema vs (.named "Tree")) :
      (Value.record [.text label, .seq vs]).HasType Specimens.schema Specimens.schema
        (.named "Tree") :=
    ⟨"Tree", _, _, rfl, rfl, rfl, ⟨_, rfl, hvs⟩, trivial⟩
  have ht : grove.HasType Specimens.schema Specimens.schema (.map .hashed .text (.named "Tree")) :=
    ⟨_, _, rfl, rfl, htree ⟨htree trivial, trivial⟩, rfl, htree trivial, trivial⟩
  have hv : grove.IsWellFormed := by
    simp [grove, Value.IsWellFormed, Value.AllWellFormed, Value.EntriesWellFormed,
      MapKind.Precedes]
  have hw : ((⟨[7]⟩ : Writer).write grove).1 = .ok () := by rfl
  exact ⟨hschema, ht, hv, hw, read_of_write hschema ht hv (Prod.ext hw rfl)⟩

end Schema
end CoreBridge.Wire
