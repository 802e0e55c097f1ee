import CoreBridge.Proofs.Wire.Counts

/-!
# Reads that start reads

A type may contain itself behind a count, and a read of it starts reads of the
same type, as many as the count says and each of them with counts of its own.
`Schema.Starts` says which reads a read starts, and from which bytes. The count in
front of them has been taken by then, so each starts with at least four bytes
less than the read that started it (`Starts.length_le`), whatever the counts say.

Nothing else decides what a read comes to (`readWith_of_starts`). So what is
nested deeper than a quarter of the buffer is never reached, and every read ends
(`nested_eq_read`).
-/
namespace CoreBridge.Wire

open Reader

variable {α β : Type}

/-! ## Readers at one buffer -/

namespace Reader

variable {bytes : Bytes}

theorem bind_congr_at {r r' : Reader α} {f f' : α → Reader β} (hr : r' bytes = r bytes)
    (hf : ∀ a rest, r bytes = (.ok a, rest) → f' a rest = f a rest) :
    (r' >>= f') bytes = (r >>= f) bytes := by
  rw [bind_apply, bind_apply, hr]
  rcases hrun : r bytes with ⟨error | a, rest⟩
  · rfl
  · exact hf a rest hrun

/-- A step that only looks at what was read does not tell readers apart. -/
theorem answer_congr_at {r r' : Reader α} (hr : r' bytes = r bytes) (f : α → Reader β) :
    (r' >>= f) bytes = (r >>= f) bytes :=
  bind_congr_at hr fun _ _ _ => rfl

/-- A loop does what another does if their passes do, wherever the other starts one. -/
theorem repeated_congr_at {r r' : Reader α} {count : Nat}
    (h : ∀ i < count, ∀ answers inner, repeated i r bytes = (.ok answers, inner) →
      r' inner = r inner) : repeated count r' bytes = repeated count r bytes := by
  induction count generalizing bytes with
  | zero => rfl
  | succ count ih =>
    rw [repeated_succ, repeated_succ]
    refine bind_congr_at (h 0 (Nat.succ_pos count) [] bytes rfl) fun a rest hrun =>
      answer_congr_at (ih fun i hi answers inner hpasses => ?_) _
    refine h (i + 1) (Nat.succ_lt_succ hi) (a :: answers) inner ?_
    rw [repeated_succ, bind_apply, hrun]
    simp only [bind_apply, hpasses, pure_apply]

end Reader

namespace Schema

variable {schema scope : Schema} {t u : Ty} {bytes inner : Bytes}

/-! ## The reads that a read starts -/

/-- A read is made of reads alone, without levels: those of what stands behind a count
and those of the declared names. -/
theorem read_eq (schema : Schema) (t : Ty) :
    schema.read t = t.readWith schema.read (schema.readNamed schema.read) := by
  funext bytes
  have hread : schema.read t bytes = schema.readWithin bytes.length t bytes := rfl
  have hdelimits := schema.selfDelimiting_elementReader bytes.length
  have helement : ∀ m, m + 4 ≤ bytes.length → ∀ u,
      AgreeWithin m (schema.elementReader bytes.length u) (schema.read u) :=
    fun m hm u => schema.agreeWithin_elementReader u hm
  rw [hread, readWithin_eq]
  have hnamed := readNamed_agrees hdelimits helement schema
  exact t.readWith_agrees hdelimits helement hnamed bytes le_rfl

/-- `schema.Starts scope t bytes u inner` if reading a value of type `t` from `bytes`, with
`scope` for the names outside a count, comes to read one of type `u` behind a count, from
`inner`. Either is started once what stands before it has been read. -/
inductive Starts (schema : Schema) : Schema → Ty → Bytes → Ty → Bytes → Prop
  | content {scope : Schema} {t u : Ty} {bytes rest inner : Bytes}
      (hpresence : presence bytes = (.ok true, rest)) (h : Starts schema scope t rest u inner) :
      Starts schema scope (.option t) bytes u inner
  | element {scope : Schema} {t : Ty} {bytes tail inner : Bytes} {count i : Nat} {vs : List Value}
      (hcount : length bytes = (.ok count, tail)) (hi : i < count)
      (hbefore : repeated i (schema.read t) tail = (.ok vs, inner)) :
      Starts schema scope (.seq t) bytes t inner
  | key {scope : Schema} {kind : MapKind} {k v : Ty} {bytes tail inner : Bytes} {count i : Nat}
      {es : Entries} (hcount : length bytes = (.ok count, tail)) (hi : i < count)
      (hbefore : repeated i (schema.readEntry k v) tail = (.ok es, inner)) :
      Starts schema scope (.map kind k v) bytes k inner
  | value {scope : Schema} {kind : MapKind} {k v : Ty} {bytes tail middle inner : Bytes}
      {count i : Nat} {es : Entries} {a : Value} (hcount : length bytes = (.ok count, tail))
      (hi : i < count) (hbefore : repeated i (schema.readEntry k v) tail = (.ok es, middle))
      (hkey : schema.read k middle = (.ok a, inner)) :
      Starts schema scope (.map kind k v) bytes v inner
  | field {scope earlier : Schema} {name : String} {before after : List Field} {field : Field}
      {u : Ty} {bytes middle inner : Bytes} {vs : List Value}
      (hfind : scope.find name = (.record (before ++ field :: after), earlier))
      (hbefore : readFields schema.read (earlier.readNamed schema.read) before bytes =
        (.ok vs, middle))
      (h : Starts schema earlier field.type middle u inner) :
      Starts schema scope (.named name) bytes u inner
  | variantField {scope earlier : Schema} {name : String} {variants : List Variant} {i : Nat}
      {variant : Variant} {discriminant : Scalar.i32.Word} {before after : List Field}
      {field : Field} {u : Ty} {bytes tail middle inner : Bytes} {vs : List Value}
      (hfind : scope.find name = (.enumeration variants, earlier))
      (hdiscriminant : Reader.scalar .i32 bytes = (.ok discriminant, tail))
      (hvariant : findVariant discriminant variants = some (i, variant))
      (hfields : variant.fields = before ++ field :: after)
      (hbefore : readFields schema.read (earlier.readNamed schema.read) before tail =
        (.ok vs, middle))
      (h : Starts schema earlier field.type middle u inner) :
      Starts schema scope (.named name) bytes u inner

theorem takesAtLeast_readEntry (schema : Schema) (k v : Ty) :
    (schema.readEntry k v).TakesAtLeast 0 :=
  ((schema.selfDelimiting_read k).bind fun _ => (schema.selfDelimiting_read v).bind fun _ =>
    selfDelimiting_pure _).takesAtLeast

theorem takesAtLeast_readFields (schema earlier : Schema) (fields : List Field) :
    (readFields schema.read (earlier.readNamed schema.read) fields).TakesAtLeast 0 :=
  (selfDelimiting_readFields schema.selfDelimiting_read
    (selfDelimiting_readNamed schema.selfDelimiting_read earlier) fields).takesAtLeast

/-- A read that is started has at least four bytes less before it than the read that
started it: those of the count it stands behind. -/
theorem Starts.length_le (h : schema.Starts scope t bytes u inner) :
    inner.length + 4 ≤ bytes.length := by
  induction h with
  | content hpresence _ ih =>
    have htaken := takesAtLeast_presence _ _ _ hpresence
    omega
  | element hcount _ hbefore =>
    have htaken := takesAtLeast_length _ _ _ hcount
    have hpasses := ((schema.selfDelimiting_read _).repeated _).takesAtLeast _ _ _ hbefore
    omega
  | key hcount _ hbefore =>
    have htaken := takesAtLeast_length _ _ _ hcount
    have hpasses := ((schema.takesAtLeast_readEntry _ _).repeated _) _ _ _ hbefore
    omega
  | value hcount _ hbefore hkey =>
    have htaken := takesAtLeast_length _ _ _ hcount
    have hpasses := ((schema.takesAtLeast_readEntry _ _).repeated _) _ _ _ hbefore
    have hfirst := (schema.selfDelimiting_read _).takesAtLeast _ _ _ hkey
    omega
  | field _ hbefore _ ih =>
    have hfields := schema.takesAtLeast_readFields _ _ _ _ _ hbefore
    omega
  | variantField _ hdiscriminant _ _ hbefore _ ih =>
    have htaken := takesAtLeast_scalar .i32 _ _ _ hdiscriminant
    have hfields := schema.takesAtLeast_readFields _ _ _ _ _ hbefore
    omega

/-! ## Nothing else is read -/

/-- Whether `element` reads what is started by reading `t` from `bytes` as the schema does. -/
def Follows (schema scope : Schema) (element : Ty → Reader Value) (t : Ty) (bytes : Bytes) :
    Prop :=
  ∀ u inner, schema.Starts scope t bytes u inner → element u inner = schema.read u inner

section Follows

variable {element : Ty → Reader Value} {named : String → Reader Value}

theorem readWith_seq_of_starts (h : schema.Follows scope element (.seq t) bytes) :
    (Ty.seq t).readWith element named bytes =
      (Ty.seq t).readWith schema.read (scope.readNamed schema.read) bytes :=
  bind_congr_at rfl fun _ _ hcount => answer_congr_at
    (repeated_congr_at fun _ hi _ _ hbefore => h t _ (.element hcount hi hbefore)) _

theorem readWith_map_of_starts {kind : MapKind} {k v : Ty}
    (h : schema.Follows scope element (.map kind k v) bytes) :
    (Ty.map kind k v).readWith element named bytes =
      (Ty.map kind k v).readWith schema.read (scope.readNamed schema.read) bytes := by
  refine bind_congr_at rfl fun count tail hcount => answer_congr_at (answer_congr_at
    (repeated_congr_at fun i hi es middle hbefore => ?_) _) _
  refine bind_congr_at (h k middle (.key hcount hi hbefore)) fun a inner hkey => ?_
  exact answer_congr_at (h v inner (.value hcount hi hbefore hkey)) _

/-- A type is read as the schema reads it if names are and what it starts. -/
theorem readWith_of_starts
    (hnamed : ∀ name bytes, schema.Follows scope element (.named name) bytes →
      named name bytes = scope.readNamed schema.read name bytes)
    (t : Ty) (bytes : Bytes) (h : schema.Follows scope element t bytes) :
    t.readWith element named bytes =
      t.readWith schema.read (scope.readNamed schema.read) bytes := by
  induction t generalizing bytes with
  | option t ih =>
    refine bind_congr_at rfl fun there rest hpresence => ?_
    cases there with
    | true =>
      refine answer_congr_at (ih rest fun u inner hstart => ?_) _
      exact h u inner (.content hpresence hstart)
    | false => rfl
  | seq t => exact readWith_seq_of_starts h
  | map kind k v => exact readWith_map_of_starts h
  | named name => exact hnamed name bytes h
  | _ => rfl

/-- Fields are read as the schema reads them if what each of them starts is. -/
theorem readFields_of_starts
    (hnamed : ∀ name bytes, schema.Follows scope element (.named name) bytes →
      named name bytes = scope.readNamed schema.read name bytes)
    (fields : List Field) (bytes : Bytes)
    (h : ∀ before field after vs middle, fields = before ++ field :: after →
      readFields schema.read (scope.readNamed schema.read) before bytes = (.ok vs, middle) →
      schema.Follows scope element field.type middle) :
    readFields element named fields bytes =
      readFields schema.read (scope.readNamed schema.read) fields bytes := by
  induction fields generalizing bytes with
  | nil => rfl
  | cons field fields ih =>
    have hfirst := readWith_of_starts hnamed field.type bytes (h [] field fields [] bytes rfl rfl)
    refine bind_congr_at hfirst fun v rest hv => answer_congr_at (ih rest ?_) _
    intro before later after vs middle hfields hbefore
    refine h (field :: before) later after (v :: vs) middle (congrArg (field :: ·) hfields) ?_
    rw [readFields, bind_apply, hv]
    simp only [bind_apply, hbefore, pure_apply]

theorem length_find_le (d : String × Decl) (earlier : Schema) (name : String) :
    (find (d :: earlier) name).2.length ≤ earlier.length := by
  induction earlier generalizing d with
  | nil =>
    unfold find
    split <;> exact le_rfl
  | cons d' earlier ih =>
    unfold find
    split
    · exact le_rfl
    · exact (ih d').trans (Nat.le_succ _)

/-- A declared name is read as the schema reads it if what it starts is. -/
theorem readNamed_of_starts (scope : Schema) (name : String) (bytes : Bytes)
    (h : schema.Follows scope element (.named name) bytes) :
    scope.readNamed element name bytes = scope.readNamed schema.read name bytes := by
  induction hn : scope.length using Nat.strong_induction_on generalizing scope name bytes with
  | _ n ih =>
    cases scope with
    | nil => rfl
    | cons d rest =>
      rcases hfind : find (d :: rest) name with ⟨decl, earlier⟩
      have hlt : earlier.length < n := by
        have hle := length_find_le d rest name
        rw [hfind] at hle
        rw [← hn, List.length_cons]
        exact Nat.lt_succ_of_le hle
      have hnamed := fun name bytes h => ih earlier.length hlt earlier name bytes h rfl
      rw [readNamed_eq, readNamed_eq, hfind]
      cases decl with
      | record fields =>
        refine answer_congr_at (readFields_of_starts hnamed fields bytes ?_) _
        rintro before field after vs middle rfl hbefore u inner hstart
        exact h u inner (.field hfind hbefore hstart)
      | enumeration variants =>
        refine bind_congr_at rfl fun discriminant tail hdiscriminant => ?_
        cases hvariant : findVariant discriminant variants with
        | none => rfl
        | some found =>
          obtain ⟨i, variant⟩ := found
          refine answer_congr_at (readFields_of_starts hnamed variant.fields tail ?_) _
          intro before field after vs middle hfields hbefore u inner hstart
          exact h u inner (.variantField hfind hdiscriminant hvariant hfields hbefore hstart)

end Follows

/-- What a read comes to is decided by the reads that it starts. -/
theorem read_of_starts {element : Ty → Reader Value} (h : schema.Follows schema element t bytes) :
    t.readWith element (schema.readNamed element) bytes = schema.read t bytes := by
  rw [read_eq]
  exact readWith_of_starts (readNamed_of_starts schema) t bytes h

/-! ## Reads end -/

/-- Reads that are nested `levels` deep, with `deepest` for what is nested deeper. -/
def nested (schema : Schema) (deepest : Ty → Reader Value) : (levels : Nat) → Ty → Reader Value
  | 0 => deepest
  | levels + 1 => fun t => t.readWith (nested schema deepest levels)
      (schema.readNamed (nested schema deepest levels))

/-- A read ends before it is nested deeper than there are counts in the buffer: it does not
matter what would be read there. -/
theorem nested_eq_read (deepest : Ty → Reader Value) {levels : Nat} (t : Ty)
    (h : bytes.length < 4 * levels) :
    schema.nested deepest levels t bytes = schema.read t bytes := by
  induction levels generalizing t bytes with
  | zero => exact absurd h (Nat.not_lt_zero _)
  | succ levels ih =>
    refine read_of_starts fun u inner hstart => ih u ?_
    have hle := hstart.length_le
    omega

end Schema
end CoreBridge.Wire
