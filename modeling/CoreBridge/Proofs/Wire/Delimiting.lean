import CoreBridge.Proofs.Wire.RoundTrip

/-!
# Where a value ends

A reader decides by the bytes that it takes and by no others: what it answers
it answers from those bytes alone, and more bytes behind them change neither an
answer nor a refusal. Only the failure that bytes are missing is open, and it
says that more are needed than remain. A reader of this kind is self-delimiting.

All types are read so. The levels that a reader counts down do not show, since a
level is entered behind the four bytes of a count: any number of levels reads as
much as the length of the buffer does (`Schema.readWithin_agrees`).
-/
namespace CoreBridge.Wire

variable {α β : Type}

/-- Whether an outcome stands whatever bytes are still to come: it is not the
failure that bytes are missing. -/
def IsSettled (outcome : Except DecodeError α) : Prop :=
  ∀ needed remaining, outcome ≠ .error (.unexpectedEnd needed remaining)

theorem isSettled_ok (a : α) : IsSettled (.ok a : Except DecodeError α) :=
  fun _ _ h => by cases h

theorem IsSettled.error {error : DecodeError}
    (h : IsSettled (.error error : Except DecodeError α)) :
    IsSettled (.error error : Except DecodeError β) := by
  rintro needed remaining heq
  obtain rfl := Except.error.inj heq
  exact h needed remaining rfl

namespace Reader

/-- Whether a reader decides by the bytes that it takes. -/
structure SelfDelimiting (r : Reader α) : Prop where
  /-- An answer is that to the bytes taken. -/
  exact : ∀ {bytes rest : Bytes} {a : α}, r bytes = (.ok a, rest) →
    ∃ taken, bytes = taken ++ rest ∧ r taken = (.ok a, [])
  /-- What follows does not change what stands. -/
  stands : ∀ {bytes rest : Bytes} {outcome : Except DecodeError α}, r bytes = (outcome, rest) →
    IsSettled outcome → ∀ more, r (bytes ++ more) = (outcome, rest ++ more)
  /-- If bytes are missing, more are needed than remain. -/
  short : ∀ {bytes rest : Bytes} {needed remaining : Nat},
    r bytes = (.error (.unexpectedEnd needed remaining), rest) → remaining < needed

theorem selfDelimiting_pure (a : α) : (pure a : Reader α).SelfDelimiting where
  exact h := by
    obtain ⟨ha, rfl⟩ := Prod.mk.inj h
    exact ⟨[], rfl, Prod.ext ha rfl⟩
  stands h _ more := by
    obtain ⟨rfl, rfl⟩ := Prod.mk.inj h
    rfl
  short h := by cases (Prod.mk.inj h).1

theorem selfDelimiting_fail {error : DecodeError}
    (h : ∀ needed remaining, error = .unexpectedEnd needed remaining → remaining < needed) :
    (fail error : Reader α).SelfDelimiting where
  exact hfail := by cases (Prod.mk.inj hfail).1
  stands hfail _ more := by
    obtain ⟨rfl, rfl⟩ := Prod.mk.inj hfail
    rfl
  short hfail := h _ _ (Except.error.inj (Prod.mk.inj hfail).1)

theorem SelfDelimiting.bind {r : Reader α} {f : α → Reader β} (hr : r.SelfDelimiting)
    (hf : ∀ a, (f a).SelfDelimiting) : (r >>= f).SelfDelimiting where
  exact {bytes rest b} h := by
    rw [bind_apply] at h
    rcases hrun : r bytes with ⟨error | a, middle⟩
    · rw [hrun] at h
      cases (Prod.mk.inj h).1
    · rw [hrun] at h
      obtain ⟨first, rfl, hfirst⟩ := hr.exact hrun
      obtain ⟨second, rfl, hsecond⟩ := (hf a).exact h
      refine ⟨first ++ second, (List.append_assoc ..).symm, ?_⟩
      rw [bind_apply, hr.stands hfirst (isSettled_ok a) second]
      exact hsecond
  stands {bytes rest outcome} h hsettled more := by
    rw [bind_apply] at h ⊢
    rcases hrun : r bytes with ⟨error | a, middle⟩
    · rw [hrun] at h
      obtain ⟨rfl, rfl⟩ := Prod.mk.inj h
      rw [hr.stands hrun hsettled.error more]
    · rw [hrun] at h
      rw [hr.stands hrun (isSettled_ok a) more]
      exact (hf a).stands h hsettled more
  short {bytes rest needed remaining} h := by
    rw [bind_apply] at h
    rcases hrun : r bytes with ⟨error | a, middle⟩
    · rw [hrun] at h
      obtain ⟨herror, rfl⟩ := Prod.mk.inj h
      obtain rfl := Except.error.inj herror
      exact hr.short hrun
    · rw [hrun] at h
      exact (hf a).short h

/-! ## The simple types -/

theorem selfDelimiting_take (n : Nat) : (take n).SelfDelimiting where
  exact {bytes rest taken} h := by
    rw [take_apply] at h
    split at h
    · rename_i hle
      obtain ⟨htaken, rfl⟩ := Prod.mk.inj h
      obtain rfl := Except.ok.inj htaken
      refine ⟨bytes.take n, (List.take_append_drop n bytes).symm, ?_⟩
      have hlength : (bytes.take n).length = n := List.length_take_of_le hle
      rw [take_apply, if_pos hlength.ge, List.take_of_length_le hlength.le,
        List.drop_eq_nil_of_le hlength.le]
    · cases (Prod.mk.inj h).1
  stands {bytes rest outcome} h hsettled more := by
    rw [take_apply] at h ⊢
    split at h
    · rename_i hle
      obtain ⟨rfl, rfl⟩ := Prod.mk.inj h
      have hmore : n ≤ (bytes ++ more).length := by simp; omega
      rw [if_pos hmore, List.take_append_of_le_length hle, List.drop_append_of_le_length hle]
    · obtain ⟨rfl, -⟩ := Prod.mk.inj h
      exact absurd rfl (hsettled _ _)
  short {bytes rest needed remaining} h := by
    rw [take_apply] at h
    split at h
    · cases (Prod.mk.inj h).1
    · rename_i hlt
      obtain ⟨rfl, rfl⟩ := DecodeError.unexpectedEnd.inj (Except.error.inj (Prod.mk.inj h).1)
      exact Nat.lt_of_not_le hlt

theorem selfDelimiting_number (width : Nat) : (number width).SelfDelimiting :=
  (selfDelimiting_take width).bind fun _ => selfDelimiting_pure _

theorem selfDelimiting_scalar (k : Scalar) : (scalar k).SelfDelimiting :=
  (selfDelimiting_number k.size).bind fun _ => selfDelimiting_pure _

theorem selfDelimiting_int (k : Scalar) : (int k).SelfDelimiting :=
  (selfDelimiting_scalar k).bind fun _ => selfDelimiting_pure _

theorem selfDelimiting_bool : bool.SelfDelimiting := by
  refine (selfDelimiting_int .i8).bind fun n => ?_
  split
  · exact selfDelimiting_pure false
  · exact selfDelimiting_pure true
  · exact selfDelimiting_fail fun _ _ h => by cases h

theorem selfDelimiting_presence : presence.SelfDelimiting := by
  refine (selfDelimiting_int .i8).bind fun n => ?_
  split
  · exact selfDelimiting_pure false
  · exact selfDelimiting_pure true
  · exact selfDelimiting_fail fun _ _ h => by cases h

theorem selfDelimiting_length : length.SelfDelimiting := by
  refine (selfDelimiting_int .i32).bind fun n => ?_
  split
  · exact selfDelimiting_pure _
  · exact selfDelimiting_fail fun _ _ h => by cases h

theorem selfDelimiting_text : text.SelfDelimiting := by
  refine (selfDelimiting_length.bind selfDelimiting_take).bind fun bytes => ?_
  split
  · exact selfDelimiting_pure _
  · exact selfDelimiting_fail fun _ _ h => by cases h

theorem selfDelimiting_nanos (typeName : String) : (nanos typeName).SelfDelimiting := by
  refine (selfDelimiting_number 4).bind fun n => ?_
  split
  · exact selfDelimiting_pure _
  · exact selfDelimiting_fail fun _ _ h => by cases h

theorem selfDelimiting_duration : duration.SelfDelimiting :=
  (selfDelimiting_scalar .u64).bind fun _ =>
    (selfDelimiting_nanos "Duration").bind fun _ => selfDelimiting_pure _

theorem selfDelimiting_timestamp : timestamp.SelfDelimiting := by
  refine (selfDelimiting_int .i64).bind fun secs =>
    (selfDelimiting_nanos "SystemTime").bind fun part => ?_
  split
  · exact selfDelimiting_pure _
  · exact selfDelimiting_fail fun _ _ h => by cases h

theorem SelfDelimiting.repeated {r : Reader α} (hr : r.SelfDelimiting) (count : Nat) :
    (repeated count r).SelfDelimiting := by
  induction count with
  | zero => exact selfDelimiting_pure []
  | succ count ih =>
    rw [repeated_succ]
    exact hr.bind fun a => ih.bind fun answers => selfDelimiting_pure (a :: answers)

end Reader

open Reader

/-! ## Composite types -/

section Composite

variable {element : Ty → Reader Value} {named : String → Reader Value}

theorem selfDelimiting_readEntries {key value : Reader Value} (hkey : key.SelfDelimiting)
    (hvalue : value.SelfDelimiting) (kind : MapKind) (count : Nat) :
    (readEntries kind key value count).SelfDelimiting :=
  (SelfDelimiting.repeated
    (hkey.bind fun k => hvalue.bind fun v => selfDelimiting_pure (k, v)) count).bind
      fun _ => selfDelimiting_pure _

theorem Ty.selfDelimiting_readWith (helement : ∀ t, (element t).SelfDelimiting)
    (hnamed : ∀ name, (named name).SelfDelimiting) (t : Ty) :
    (t.readWith element named).SelfDelimiting := by
  induction t with
  | scalar k => exact (selfDelimiting_scalar k).bind fun _ => selfDelimiting_pure _
  | bool => exact selfDelimiting_bool.bind fun _ => selfDelimiting_pure _
  | text => exact selfDelimiting_text.bind fun _ => selfDelimiting_pure _
  | duration => exact selfDelimiting_duration.bind fun _ => selfDelimiting_pure _
  | timestamp => exact selfDelimiting_timestamp.bind fun _ => selfDelimiting_pure _
  | option t ih =>
    refine selfDelimiting_presence.bind fun there => ?_
    split
    · exact ih.bind fun _ => selfDelimiting_pure _
    · exact selfDelimiting_pure _
  | seq t =>
    exact selfDelimiting_length.bind fun count =>
      ((helement t).repeated count).bind fun _ => selfDelimiting_pure _
  | map kind k v =>
    exact selfDelimiting_length.bind fun count =>
      (selfDelimiting_readEntries (helement k) (helement v) kind count).bind
        fun _ => selfDelimiting_pure _
  | named name => exact hnamed name

theorem selfDelimiting_readFields (helement : ∀ t, (element t).SelfDelimiting)
    (hnamed : ∀ name, (named name).SelfDelimiting) (fields : List Field) :
    (readFields element named fields).SelfDelimiting := by
  induction fields with
  | nil => exact selfDelimiting_pure []
  | cons field fields ih =>
    exact (field.type.selfDelimiting_readWith helement hnamed).bind fun v =>
      ih.bind fun vs => selfDelimiting_pure (v :: vs)

theorem Decl.selfDelimiting_readWith (helement : ∀ t, (element t).SelfDelimiting)
    (hnamed : ∀ name, (named name).SelfDelimiting) (name : String) (decl : Decl) :
    (decl.readWith element named name).SelfDelimiting := by
  cases decl with
  | record fields =>
    exact (selfDelimiting_readFields helement hnamed fields).bind fun _ => selfDelimiting_pure _
  | enumeration variants =>
    refine (selfDelimiting_scalar .i32).bind fun discriminant => ?_
    split
    · exact (selfDelimiting_readFields helement hnamed _).bind fun _ => selfDelimiting_pure _
    · exact selfDelimiting_fail fun _ _ h => by cases h

namespace Schema

theorem selfDelimiting_readNamed (helement : ∀ t, (element t).SelfDelimiting) (scope : Schema)
    (name : String) : (scope.readNamed element name).SelfDelimiting := by
  induction scope generalizing name with
  | nil => exact selfDelimiting_pure _
  | cons d earlier ih =>
    obtain ⟨declared, decl⟩ := d
    unfold readNamed
    split
    · exact decl.selfDelimiting_readWith helement ih name
    · exact ih name

theorem selfDelimiting_elementReader (schema : Schema) (levels : Nat) (t : Ty) :
    (schema.elementReader levels t).SelfDelimiting := by
  induction levels generalizing t with
  | zero =>
    refine selfDelimiting_fail fun needed remaining h => ?_
    obtain ⟨rfl, rfl⟩ := DecodeError.unexpectedEnd.inj h
    decide
  | succ levels ih =>
    have hread := t.selfDelimiting_readWith ih (selfDelimiting_readNamed ih schema)
    rwa [← readWithin_eq] at hread

theorem selfDelimiting_readWithin (schema : Schema) (levels : Nat) (t : Ty) :
    (schema.readWithin levels t).SelfDelimiting :=
  schema.selfDelimiting_elementReader (levels + 1) t

end Schema
end Composite

/-! ## Levels -/

namespace Reader

/-- Whether a reader takes at least `k` bytes if it answers. -/
def TakesAtLeast (k : Nat) (r : Reader α) : Prop :=
  ∀ (bytes rest : Bytes) (a : α), r bytes = (.ok a, rest) → rest.length + k ≤ bytes.length

theorem SelfDelimiting.takesAtLeast {r : Reader α} (h : r.SelfDelimiting) : r.TakesAtLeast 0 := by
  intro bytes rest a hrun
  obtain ⟨taken, rfl, -⟩ := h.exact hrun
  simp

theorem TakesAtLeast.bind {k l : Nat} {r : Reader α} {f : α → Reader β} (hr : r.TakesAtLeast k)
    (hf : ∀ a, (f a).TakesAtLeast l) : (r >>= f).TakesAtLeast (k + l) := by
  intro bytes rest b h
  rw [bind_apply] at h
  rcases hrun : r bytes with ⟨error | a, middle⟩
  · rw [hrun] at h
    cases (Prod.mk.inj h).1
  · rw [hrun] at h
    have hfirst := hr bytes middle a hrun
    have hsecond := hf a middle rest b h
    omega

theorem takesAtLeast_take (n : Nat) : (take n).TakesAtLeast n := by
  intro bytes rest taken h
  rw [take_apply] at h
  split at h
  · obtain ⟨-, rfl⟩ := Prod.mk.inj h
    rw [List.length_drop]
    omega
  · cases (Prod.mk.inj h).1

theorem takesAtLeast_int (k : Scalar) : (int k).TakesAtLeast k.size :=
  (((takesAtLeast_take k.size).bind fun _ => (selfDelimiting_pure _).takesAtLeast).bind
    fun _ => (selfDelimiting_pure _).takesAtLeast).bind
      fun _ => (selfDelimiting_pure _).takesAtLeast

theorem takesAtLeast_length : length.TakesAtLeast 4 := by
  have hsize : (4 : Nat) = Scalar.i32.size + 0 := rfl
  rw [hsize]
  refine (takesAtLeast_int .i32).bind fun n => ?_
  split
  · exact (selfDelimiting_pure _).takesAtLeast
  · exact (selfDelimiting_fail fun _ _ h => by cases h).takesAtLeast

/-- Whether two readers do the same with every buffer of at most `n` bytes. -/
def AgreeWithin (n : Nat) (r r' : Reader α) : Prop := ∀ bytes, bytes.length ≤ n → r bytes = r' bytes

variable {n k count : Nat}

theorem agreeWithin_refl (n : Nat) (r : Reader α) : AgreeWithin n r r := fun _ _ => rfl

theorem AgreeWithin.mono {m : Nat} {r r' : Reader α} (h : AgreeWithin n r r') (hle : m ≤ n) :
    AgreeWithin m r r' := fun bytes hbytes => h bytes (hbytes.trans hle)

/-- What comes after a reader that takes at least `k` bytes has fewer left to agree on. -/
theorem AgreeWithin.bind {r r' : Reader α} {f f' : α → Reader β} (hr : AgreeWithin n r r')
    (htakes : r.TakesAtLeast k) (hf : ∀ m, m + k ≤ n → ∀ a, AgreeWithin m (f a) (f' a)) :
    AgreeWithin n (r >>= f) (r' >>= f') := by
  intro bytes hbytes
  rw [bind_apply, bind_apply, ← hr bytes hbytes]
  rcases hrun : r bytes with ⟨error | a, rest⟩
  · rfl
  · exact hf rest.length ((htakes bytes rest a hrun).trans hbytes) a rest le_rfl

/-- A step that only looks at what was read leaves two readers in agreement. -/
theorem AgreeWithin.answer {r r' : Reader α} (hr : AgreeWithin n r r') (f : α → Reader β) :
    AgreeWithin n (r >>= f) (r' >>= f) := by
  intro bytes hbytes
  rw [bind_apply, bind_apply, ← hr bytes hbytes]

theorem AgreeWithin.repeated {r r' : Reader α} (hr : AgreeWithin n r r')
    (htakes : r.TakesAtLeast 0) : AgreeWithin n (repeated count r) (repeated count r') := by
  induction count generalizing n with
  | zero => exact agreeWithin_refl n _
  | succ count ih =>
    rw [repeated_succ, repeated_succ]
    exact hr.bind htakes fun m hm a => (ih (hr.mono hm)).answer _

end Reader

section Levels

variable {element element' : Ty → Reader Value} {named named' : String → Reader Value} {n : Nat}

/-- Readers of a type agree on a buffer if those of what stands behind a count
agree on what a count leaves of it. -/
theorem Ty.readWith_agrees (hdelimits : ∀ t, (element t).SelfDelimiting)
    (helement : ∀ m, m + 4 ≤ n → ∀ t, AgreeWithin m (element t) (element' t))
    (hnamed : ∀ name, AgreeWithin n (named name) (named' name)) (t : Ty) :
    AgreeWithin n (t.readWith element named) (t.readWith element' named') := by
  induction t with
  | option t ih =>
    refine (agreeWithin_refl n _).bind selfDelimiting_presence.takesAtLeast fun m hm there => ?_
    split
    · exact (ih.mono hm).answer _
    · exact agreeWithin_refl m _
  | seq t =>
    refine (agreeWithin_refl n _).bind takesAtLeast_length fun m hm count => ?_
    exact ((helement m hm t).repeated (hdelimits t).takesAtLeast).answer _
  | map kind k v =>
    refine (agreeWithin_refl n _).bind takesAtLeast_length fun m hm count => ?_
    have hentry := (helement m hm k).bind (hdelimits k).takesAtLeast fun l hl key =>
      ((helement m hm v).mono hl).answer fun value => pure (key, value)
    have htakes := ((hdelimits k).bind fun key => (hdelimits v).bind fun value =>
      selfDelimiting_pure (key, value)).takesAtLeast
    exact ((hentry.repeated htakes).answer _).answer _
  | named name => exact hnamed name
  | _ => exact agreeWithin_refl n _

theorem readFields_agrees (hdelimits : ∀ t, (element t).SelfDelimiting)
    (helement : ∀ m, m + 4 ≤ n → ∀ t, AgreeWithin m (element t) (element' t))
    (hscope : ∀ name, (named name).SelfDelimiting)
    (hnamed : ∀ name, AgreeWithin n (named name) (named' name)) (fields : List Field) :
    AgreeWithin n (readFields element named fields) (readFields element' named' fields) := by
  induction fields generalizing n with
  | nil => exact agreeWithin_refl n _
  | cons field fields ih =>
    refine (field.type.readWith_agrees hdelimits helement hnamed).bind
      (field.type.selfDelimiting_readWith hdelimits hscope).takesAtLeast fun m hm v => ?_
    exact (ih (fun l hl => helement l (by omega)) fun name => (hnamed name).mono hm).answer _

theorem Schema.readNamed_agrees (hdelimits : ∀ t, (element t).SelfDelimiting)
    (helement : ∀ m, m + 4 ≤ n → ∀ t, AgreeWithin m (element t) (element' t)) (scope : Schema)
    (name : String) :
    AgreeWithin n (scope.readNamed element name) (scope.readNamed element' name) := by
  induction scope generalizing name with
  | nil => exact agreeWithin_refl n _
  | cons d earlier ih =>
    obtain ⟨declared, decl⟩ := d
    have hearlier := selfDelimiting_readNamed hdelimits earlier
    unfold readNamed
    split
    · cases decl with
      | record fields =>
        exact (readFields_agrees hdelimits helement hearlier ih fields).answer _
      | enumeration variants =>
        refine (agreeWithin_refl n _).bind (selfDelimiting_scalar .i32).takesAtLeast
          fun m hm discriminant => ?_
        split
        · exact (readFields_agrees hdelimits (fun l hl => helement l (by omega)) hearlier
            (fun name => (ih name).mono hm) _).answer _
        · exact agreeWithin_refl m _
    · exact ih name

/-- Any number of levels that is not below the length of a buffer reads the same of it. -/
theorem Schema.readWithin_agrees (schema : Schema) {levels levels' : Nat} (hlevels : n ≤ levels)
    (hlevels' : n ≤ levels') (t : Ty) :
    AgreeWithin n (schema.readWithin levels t) (schema.readWithin levels' t) := by
  induction n using Nat.strong_induction_on generalizing levels levels' t with
  | _ n ih =>
    -- A level is entered behind a count, where fewer bytes are left.
    have helement : ∀ m, m + 4 ≤ n → ∀ t,
        AgreeWithin m (schema.elementReader levels t) (schema.elementReader levels' t) := by
      intro m hm t
      obtain ⟨l, rfl⟩ : ∃ l, levels = l + 1 := ⟨levels - 1, by omega⟩
      obtain ⟨l', rfl⟩ : ∃ l', levels' = l' + 1 := ⟨levels' - 1, by omega⟩
      exact ih m (by omega) (by omega) (by omega) t
    rw [readWithin_eq, readWithin_eq]
    have hdelimits := schema.selfDelimiting_elementReader levels
    exact t.readWith_agrees hdelimits helement (readNamed_agrees hdelimits helement schema)

end Levels

/-! ## Reading a type -/

namespace Schema

variable {schema : Schema} {t : Ty} {bytes rest : Bytes} {v : Value}

theorem read_eq_readWithin (schema : Schema) (t : Ty) {levels : Nat} (h : bytes.length ≤ levels) :
    schema.read t bytes = schema.readWithin levels t bytes :=
  schema.readWithin_agrees le_rfl h t bytes le_rfl

theorem selfDelimiting_read (schema : Schema) (t : Ty) : (schema.read t).SelfDelimiting where
  exact {bytes rest v} h := by
    obtain ⟨taken, rfl, htaken⟩ := (schema.selfDelimiting_readWithin bytes.length t).exact h
    have hle : taken.length ≤ (taken ++ rest).length := by
      rw [List.length_append]
      omega
    exact ⟨taken, rfl, (read_eq_readWithin schema t hle).trans htaken⟩
  stands {bytes rest outcome} h hsettled more := by
    have hle : bytes.length ≤ (bytes ++ more).length := by
      rw [List.length_append]
      omega
    rw [read_eq_readWithin schema t hle] at h
    exact (schema.selfDelimiting_readWithin _ t).stands h hsettled more
  short {bytes rest needed remaining} h :=
    (schema.selfDelimiting_readWithin bytes.length t).short h

theorem decode_of_read (h : schema.read t bytes = (.ok v, rest)) (hrest : rest ≠ []) :
    schema.decode t bytes = .error (.trailingBytes rest.length) := by
  obtain ⟨byte, rest, rfl⟩ := List.exists_cons_of_ne_nil hrest
  simp only [decode, Reader.bind_apply, h, Reader.finish]

/-- A value can only be read from all of its bytes. -/
theorem read_take_of_lt {taken : Bytes} (h : schema.read t taken = (.ok v, [])) {k : Nat}
    (hk : k < taken.length) : ∃ needed remaining, remaining < needed ∧
      (schema.read t (taken.take k)).1 = .error (.unexpectedEnd needed remaining) := by
  have hread := schema.selfDelimiting_read t
  rcases hrun : schema.read t (taken.take k) with ⟨outcome, rest⟩
  -- What stands for the first bytes stands for all of them, and then some are left over.
  have hopen : ¬ IsSettled outcome := by
    intro hsettled
    have hall := hread.stands hrun hsettled (taken.drop k)
    rw [List.take_append_drop, h] at hall
    have hnil : rest ++ taken.drop k = [] := (Prod.mk.inj hall).2.symm
    have hdrop : taken.drop k = [] := (List.append_eq_nil_iff.1 hnil).2
    have hle := List.drop_eq_nil_iff.1 hdrop
    omega
  obtain ⟨needed, remaining, rfl⟩ :
      ∃ needed remaining, outcome = .error (.unexpectedEnd needed remaining) := by
    by_contra hnone
    exact hopen fun needed remaining heq => hnone ⟨needed, remaining, heq⟩
  exact ⟨needed, remaining, hread.short hrun, rfl⟩

/-- Wire forms are self-delimiting and what is cut short is recognised. If a value
is read from the first `n` of some bytes, these are read as the value whatever
follows them, only then is something left over, and from fewer of them nothing is
read but that bytes are missing. A failure that is not of this kind stays, whatever
follows. -/
theorem read_delimits (schema : Schema) (t : Ty) (bytes : Bytes) :
    (∀ v rest, schema.read t bytes = (.ok v, rest) → ∃ n ≤ bytes.length, rest = bytes.drop n ∧
      (∀ more, schema.read t (bytes.take n ++ more) = (.ok v, more)) ∧
      (∀ more, more ≠ [] →
        schema.decode t (bytes.take n ++ more) = .error (.trailingBytes more.length)) ∧
      ∀ k < n, ∃ needed remaining, remaining < needed ∧
        (schema.read t (bytes.take k)).1 = .error (.unexpectedEnd needed remaining)) ∧
    (∀ error, (schema.read t bytes).1 = .error error →
      (∀ needed remaining, error ≠ .unexpectedEnd needed remaining) →
      ∀ more, (schema.read t (bytes ++ more)).1 = .error error) := by
  have hread := schema.selfDelimiting_read t
  constructor
  · intro v rest h
    obtain ⟨taken, rfl, htaken⟩ := hread.exact h
    have hmore : ∀ more, schema.read t (taken ++ more) = (.ok v, more) :=
      hread.stands htaken (isSettled_ok v)
    refine ⟨taken.length, by simp, by simp, ?_, ?_, ?_⟩
    · simpa using hmore
    · intro more hne
      rw [List.take_left]
      exact decode_of_read (hmore more) hne
    · intro k hk
      rw [List.take_append_of_le_length hk.le]
      exact read_take_of_lt htaken hk
  · intro error herror hsettled more
    have hstands := hread.stands (Prod.ext herror rfl)
      (fun needed remaining heq => hsettled needed remaining (Except.error.inj heq)) more
    rw [hstands]

/-- A sum of one number is read from its wire form and not from fewer bytes, and a
truth value that is neither of the two stays refused. -/
theorem read_delimits_expression :
    let five : Bytes := [0, 0, 0, 2, 0, 0, 0, 1, 0, 0, 0, 1, 0, 0, 0, 0, 0, 0, 0, 5]
    let sum : Value := .variant 1 2 [.seq [.variant 0 1 [.scalar .i64 5]]]
    Specimens.schema.read (.named "Expr") (five ++ [9]) = (.ok sum, [9]) ∧
      Specimens.schema.decode (.named "Expr") (five ++ [9]) = .error (.trailingBytes 1) ∧
      (∀ k < 20, ∃ needed remaining, remaining < needed ∧
        (Specimens.schema.read (.named "Expr") (five.take k)).1 =
          .error (.unexpectedEnd needed remaining)) ∧
      ∀ more, (Specimens.schema.read .bool ([2] ++ more)).1 = .error (.invalidBool 2) := by
  intro five sum
  have hsum : Specimens.schema.read (.named "Expr") (five ++ [9]) = (.ok sum, [9]) := by rfl
  obtain ⟨n, -, hrest, -, htrailing, hshort⟩ :=
    (read_delimits Specimens.schema (.named "Expr") (five ++ [9])).1 sum [9] hsum
  have hn : n = 20 := by
    have hlength := congrArg List.length hrest
    simp only [List.length_drop, five, List.length_append, List.length_cons, List.length_nil]
      at hlength
    omega
  subst hn
  refine ⟨hsum, htrailing [9] (by simp), fun k hk => ?_, ?_⟩
  · obtain ⟨needed, remaining, hlt, hread⟩ := hshort k hk
    rw [List.take_append_of_le_length (by simp [five]; omega)] at hread
    exact ⟨needed, remaining, hlt, hread⟩
  · have hbool : (Specimens.schema.read .bool [2]).1 = .error (.invalidBool 2) := by rfl
    exact (read_delimits Specimens.schema .bool [2]).2 _ hbool fun _ _ h => by cases h

end Schema
end CoreBridge.Wire
