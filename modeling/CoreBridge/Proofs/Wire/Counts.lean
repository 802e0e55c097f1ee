import CoreBridge.Proofs.Wire.Canonical
import CoreBridge.Proofs.Wire.Delimiting

/-!
# What a count promises

A sequence or map starts with a count, and a loop of as many passes reads what
stands behind it. A count is a claim about bytes to come only as far as a pass
takes any. The types say how many it takes at least (`Schema.fewestBytes`): all
take one byte or more but the records whose fields, if there are any, take none
themselves. Of such records a count of any size is read from no further bytes.
-/
namespace CoreBridge.Wire

variable {α β : Type}

/-! ## Loops -/

namespace Reader

variable {k l count : Nat} {r : Reader α} {bytes tail rest : Bytes}

/-- How many passes are completed by a loop that runs `r` up to `count` times and
ends at the first failure. -/
def passes (r : Reader α) : (count : Nat) → Bytes → Nat
  | 0, _ => 0
  | count + 1, bytes =>
    match r bytes with
    | (.ok _, rest) => r.passes count rest + 1
    | (.error _, _) => 0

/-- A loop answers iff it completes all its passes. -/
theorem passes_eq_iff (r : Reader α) (count : Nat) (bytes : Bytes) :
    r.passes count bytes = count ↔
      ∃ answers rest, repeated count r bytes = (.ok answers, rest) := by
  induction count generalizing bytes with
  | zero => simp [passes]
  | succ count ih =>
    rw [repeated_succ, passes, bind_apply]
    rcases r bytes with ⟨error | a, rest⟩
    · simp
    · simp only [Nat.add_right_cancel_iff, ih rest, bind_apply]
      rcases repeated count r rest with ⟨error | answers, rest⟩ <;> simp

theorem TakesAtLeast.mono (h : r.TakesAtLeast k) (hle : l ≤ k) : r.TakesAtLeast l := by
  intro bytes rest a hrun
  have htaken := h bytes rest a hrun
  omega

theorem TakesAtLeast.answer (h : r.TakesAtLeast k) {f : α → β} :
    (r >>= fun a => pure (f a)).TakesAtLeast k :=
  h.bind fun a => (selfDelimiting_pure (f a)).takesAtLeast

theorem bind_answer {γ : Type} (r : Reader α) (f : α → β) (g : β → Reader γ) :
    ((r >>= fun a => pure (f a)) >>= g) = r >>= fun a => g (f a) := by
  funext bytes
  rw [bind_apply, bind_apply, bind_apply]
  rcases r bytes with ⟨error | a, rest⟩ <;> rfl

theorem takesAtLeast_fail (k : Nat) (error : DecodeError) :
    (fail error : Reader α).TakesAtLeast k := by
  intro bytes rest a h
  cases (Prod.mk.inj h).1

/-- The passes of a loop that are completed have all taken their bytes, whether or
not the loop goes on to its end. -/
theorem TakesAtLeast.passes_mul_le (h : r.TakesAtLeast k) (count : Nat) (bytes : Bytes) :
    r.passes count bytes * k ≤ bytes.length := by
  induction count generalizing bytes with
  | zero => simp [passes]
  | succ count ih =>
    rw [passes]
    rcases hrun : r bytes with ⟨error | a, rest⟩
    · simp
    · have hfirst := h bytes rest a hrun
      have hothers := ih rest
      simp only [Nat.succ_mul]
      omega

theorem TakesAtLeast.repeated (h : r.TakesAtLeast k) (count : Nat) :
    (repeated count r).TakesAtLeast (count * k) := by
  induction count with
  | zero => exact (selfDelimiting_pure []).takesAtLeast.mono (by simp)
  | succ count ih =>
    rw [repeated_succ, Nat.succ_mul, Nat.add_comm]
    exact h.bind fun a => ih.answer

/-- What is read from nothing is read from nothing any number of times. -/
theorem Reads.repeated {a : α} (h : r.Reads [] a) (count : Nat) :
    (repeated count r).Reads [] (List.replicate count a) := by
  induction count with
  | zero => exact reads_pure []
  | succ count ih =>
    rw [repeated_succ]
    exact h.bind (ih.answer rfl)

/-- A count, and what is gathered of as many passes. -/
def counted (pass : Reader α) (gather : List α → β) : Reader β := do
  let count ← length
  return gather (← repeated count pass)

section Counted

variable {pass pass' : Reader α} {gather : List α → β}

theorem counted_apply (hcount : length bytes = (.ok count, tail)) (pass : Reader α)
    (gather : List α → β) : counted pass gather bytes =
      (repeated count pass >>= fun answers => pure (gather answers)) tail := by
  rw [counted, bind_apply, hcount]

/-- Something is gathered iff all passes are completed. -/
theorem counted_iff (hcount : length bytes = (.ok count, tail)) :
    (∃ b rest, counted pass gather bytes = (.ok b, rest)) ↔ pass.passes count tail = count := by
  rw [counted_apply hcount, passes_eq_iff, bind_apply]
  rcases repeated count pass tail with ⟨error | answers, rest⟩ <;> simp

theorem TakesAtLeast.counted (h : pass.TakesAtLeast k)
    (hcount : length bytes = (.ok count, tail)) {b : β}
    (hrun : counted pass gather bytes = (.ok b, rest)) : rest.length + count * k ≤ tail.length := by
  rw [counted_apply hcount] at hrun
  exact (h.repeated count).answer tail rest b hrun

theorem Reads.counted {a : α} (h : pass.Reads [] a) (hlt : count < 0x80000000)
    (gather : List α → β) :
    (counted pass gather).Reads (Bytes.ofNat 4 count) (gather (List.replicate count a)) := by
  have hloop := (h.repeated count).answer (f := fun answers => pure (gather answers)) rfl
  have hform := (reads_length hlt).bind (f := fun count =>
    Reader.repeated count pass >>= fun answers => pure (gather answers)) hloop
  rwa [List.append_nil] at hform

/-- Passes that agree on what a count leaves do the same behind it. -/
theorem AgreeWithin.counted {n : Nat} (htakes : pass.TakesAtLeast 0)
    (hagree : ∀ m, m + 4 ≤ n → AgreeWithin m pass pass') :
    AgreeWithin n (counted pass gather) (counted pass' gather) :=
  (agreeWithin_refl n _).bind takesAtLeast_length fun m hm _ =>
    ((hagree m hm).repeated htakes).answer _

end Counted

/-! ### The simple types -/

theorem takesAtLeast_scalar (k : Scalar) : (scalar k).TakesAtLeast k.size :=
  (takesAtLeast_take k.size).answer.answer

theorem takesAtLeast_bool : bool.TakesAtLeast 1 := by
  refine (takesAtLeast_int .i8).bind (l := 0) fun n => ?_
  split
  · exact (selfDelimiting_pure _).takesAtLeast
  · exact (selfDelimiting_pure _).takesAtLeast
  · exact takesAtLeast_fail 0 _

theorem takesAtLeast_presence : presence.TakesAtLeast 1 := by
  refine (takesAtLeast_int .i8).bind (l := 0) fun n => ?_
  split
  · exact (selfDelimiting_pure _).takesAtLeast
  · exact (selfDelimiting_pure _).takesAtLeast
  · exact takesAtLeast_fail 0 _

theorem takesAtLeast_text : text.TakesAtLeast 4 := by
  refine (takesAtLeast_length.bind fun n => (selfDelimiting_take n).takesAtLeast).bind (l := 0)
    fun bytes => ?_
  split
  · exact (selfDelimiting_pure _).takesAtLeast
  · exact takesAtLeast_fail 0 _

theorem takesAtLeast_nanos (typeName : String) : (nanos typeName).TakesAtLeast 4 := by
  refine (takesAtLeast_take 4).answer.bind (l := 0) fun n => ?_
  split
  · exact (selfDelimiting_pure _).takesAtLeast
  · exact takesAtLeast_fail 0 _

theorem takesAtLeast_duration : duration.TakesAtLeast 12 :=
  (takesAtLeast_scalar .u64).bind fun _ => (takesAtLeast_nanos "Duration").answer

theorem takesAtLeast_timestamp : timestamp.TakesAtLeast 12 := by
  refine (takesAtLeast_int .i64).bind (l := 4) fun secs =>
    (takesAtLeast_nanos "SystemTime").bind (l := 0) fun part => ?_
  split
  · exact (selfDelimiting_pure _).takesAtLeast
  · exact takesAtLeast_fail 0 _

end Reader

/-! ## The fewest bytes of a type -/

/-- How many bytes a value of type `t` takes at least, if `named` says it of the
declared names. Text, sequences and maps may end with their count. -/
def Ty.fewestWith (named : String → Nat) : Ty → Nat
  | .scalar k => k.size
  | .bool | .option _ => 1
  | .text | .seq _ | .map .. => 4
  | .duration | .timestamp => 12
  | .named name => named name

/-- How many bytes the fields take together at least. -/
def fewestOfFields (named : String → Nat) (fields : List Field) : Nat :=
  (fields.map fun field => field.type.fewestWith named).sum

/-- How many bytes a value of a declared type takes at least: an enumeration takes
its discriminant and the fields of the smallest variant. -/
def Decl.fewestWith (named : String → Nat) : Decl → Nat
  | .record fields => fewestOfFields named fields
  | .enumeration variants =>
    4 + (variants.map fun variant => fewestOfFields named variant.fields).min?.getD 0

namespace Schema

/-- How many bytes a value of the type `name` stands for takes at least. -/
def fewestNamed : Schema → String → Nat
  | [], _ => 0
  | (declared, decl) :: earlier, name =>
    if declared = name then decl.fewestWith (fewestNamed earlier) else fewestNamed earlier name

/-- How many bytes a value of type `t` takes at least. -/
def fewestBytes (schema : Schema) (t : Ty) : Nat := t.fewestWith schema.fewestNamed

end Schema

/-! ### Types of which a value may take nothing -/

section Nothing

variable {fewest : String → Nat}

theorem Ty.fewestWith_eq_zero_iff {t : Ty} :
    t.fewestWith fewest = 0 ↔ ∃ name, t = .named name ∧ fewest name = 0 := by
  constructor
  · intro h
    cases t with
    | named name => exact ⟨name, rfl, h⟩
    | scalar k => cases k <;> cases h
    | _ => cases h
  · rintro ⟨name, rfl, h⟩
    exact h

theorem Decl.fewestWith_eq_zero_iff {decl : Decl} :
    decl.fewestWith fewest = 0 ↔
      ∃ fields, decl = .record fields ∧ ∀ field ∈ fields, field.type.fewestWith fewest = 0 := by
  cases decl with
  | record fields => simp [fewestWith, fewestOfFields, List.sum_eq_zero_iff]
  | enumeration variants => simp [fewestWith]

theorem Schema.fewestNamed_eq (scope : Schema) (name : String) :
    scope.fewestNamed name = (scope.find name).1.fewestWith (scope.find name).2.fewestNamed := by
  induction scope with
  | nil => rfl
  | cons d earlier ih =>
    obtain ⟨declared, decl⟩ := d
    by_cases hname : declared = name
    · simp only [fewestNamed, Schema.find, if_pos hname]
    · simp only [fewestNamed, Schema.find, if_neg hname, ih]

/-- Only records take nothing, and only those of which no field takes anything. -/
theorem Schema.fewestBytes_eq_zero_iff_record (schema : Schema) (t : Ty) :
    schema.fewestBytes t = 0 ↔ ∃ name fields earlier, t = .named name ∧
      schema.find name = (.record fields, earlier) ∧
        ∀ field ∈ fields, earlier.fewestBytes field.type = 0 := by
  rw [fewestBytes, Ty.fewestWith_eq_zero_iff]
  constructor
  · rintro ⟨name, rfl, hname⟩
    rw [fewestNamed_eq, Decl.fewestWith_eq_zero_iff] at hname
    obtain ⟨fields, hdecl, hfields⟩ := hname
    exact ⟨name, fields, (schema.find name).2, rfl, Prod.ext hdecl rfl, hfields⟩
  · rintro ⟨name, fields, earlier, rfl, hfind, hfields⟩
    refine ⟨name, rfl, ?_⟩
    rw [fewestNamed_eq, hfind, Decl.fewestWith_eq_zero_iff]
    exact ⟨fields, rfl, hfields⟩

end Nothing

open Reader

section Fewest

variable {element : Ty → Reader Value} {named : String → Reader Value} {fewest : String → Nat}

theorem Ty.takesAtLeast_readWith (helement : ∀ t, (element t).SelfDelimiting)
    (hnamed : ∀ name, (named name).TakesAtLeast (fewest name)) (t : Ty) :
    (t.readWith element named).TakesAtLeast (t.fewestWith fewest) := by
  induction t with
  | scalar k => exact (takesAtLeast_scalar k).answer
  | bool => exact takesAtLeast_bool.answer
  | text => exact takesAtLeast_text.answer
  | duration => exact takesAtLeast_duration.answer
  | timestamp => exact takesAtLeast_timestamp.answer
  | option t ih =>
    refine takesAtLeast_presence.bind (l := 0) fun there => ?_
    split
    · exact (ih.mono (Nat.zero_le _)).answer
    · exact (selfDelimiting_pure _).takesAtLeast
  | seq t =>
    exact takesAtLeast_length.bind fun count => ((helement t).repeated count).takesAtLeast.answer
  | map kind k v =>
    exact takesAtLeast_length.bind fun count =>
      (selfDelimiting_readEntries (helement k) (helement v) kind count).takesAtLeast.answer
  | named name => exact hnamed name

theorem takesAtLeast_readFields (helement : ∀ t, (element t).SelfDelimiting)
    (hnamed : ∀ name, (named name).TakesAtLeast (fewest name)) (fields : List Field) :
    (readFields element named fields).TakesAtLeast (fewestOfFields fewest fields) := by
  induction fields with
  | nil => exact (selfDelimiting_pure []).takesAtLeast
  | cons field fields ih =>
    exact (field.type.takesAtLeast_readWith helement hnamed).bind fun v => ih.answer

theorem Decl.takesAtLeast_readWith (helement : ∀ t, (element t).SelfDelimiting)
    (hnamed : ∀ name, (named name).TakesAtLeast (fewest name)) (name : String) (decl : Decl) :
    (decl.readWith element named name).TakesAtLeast (decl.fewestWith fewest) := by
  cases decl with
  | record fields => exact (takesAtLeast_readFields helement hnamed fields).answer
  | enumeration variants =>
    refine (takesAtLeast_scalar .i32).bind fun discriminant => ?_
    split
    · rename_i position variant hvariant
      have hmem := List.mem_of_getElem? (eq_of_findVariant hvariant).1
      have hsmallest := List.min?_getD_le_of_mem (k := 0) (List.mem_map_of_mem (f := fun variant =>
        fewestOfFields fewest variant.fields) hmem)
      exact ((takesAtLeast_readFields helement hnamed variant.fields).mono hsmallest).answer
    · exact takesAtLeast_fail _ _

theorem Schema.takesAtLeast_readNamed (helement : ∀ t, (element t).SelfDelimiting)
    (scope : Schema) (name : String) :
    (scope.readNamed element name).TakesAtLeast (scope.fewestNamed name) := by
  induction scope generalizing name with
  | nil => exact (selfDelimiting_pure _).takesAtLeast
  | cons d earlier ih =>
    obtain ⟨declared, decl⟩ := d
    unfold readNamed fewestNamed
    split
    · exact decl.takesAtLeast_readWith helement ih name
    · exact ih name

/-- No value is read from fewer bytes than the type says. -/
theorem Schema.takesAtLeast_read (schema : Schema) (t : Ty) :
    (schema.read t).TakesAtLeast (schema.fewestBytes t) := by
  intro bytes rest v h
  have hread : schema.readWithin bytes.length t bytes = (.ok v, rest) := h
  rw [readWithin_eq] at hread
  have helement := schema.selfDelimiting_elementReader bytes.length
  exact t.takesAtLeast_readWith helement (takesAtLeast_readNamed helement schema) bytes rest v hread

end Fewest

section Nothing

variable (element : Ty → Reader Value) {named : String → Reader Value} {fewest : String → Nat}

theorem Ty.reads_nothing (hnamed : ∀ name, fewest name = 0 → ∃ v, (named name).Reads [] v) {t : Ty}
    (h : t.fewestWith fewest = 0) : ∃ v, (t.readWith element named).Reads [] v := by
  obtain ⟨name, rfl, hname⟩ := fewestWith_eq_zero_iff.1 h
  exact hnamed name hname

theorem readFields_nothing (hnamed : ∀ name, fewest name = 0 → ∃ v, (named name).Reads [] v)
    {fields : List Field} (h : ∀ field ∈ fields, field.type.fewestWith fewest = 0) :
    ∃ vs, (readFields element named fields).Reads [] vs := by
  induction fields with
  | nil => exact ⟨[], reads_pure []⟩
  | cons field fields ih =>
    obtain ⟨hfield, hfields⟩ := List.forall_mem_cons.1 h
    obtain ⟨v, hv⟩ := Ty.reads_nothing element hnamed hfield
    obtain ⟨vs, hvs⟩ := ih hfields
    exact ⟨v :: vs, hv.bind (hvs.answer rfl)⟩

theorem Schema.readNamed_nothing (scope : Schema) (name : String) (h : scope.fewestNamed name = 0) :
    ∃ v, (scope.readNamed element name).Reads [] v := by
  induction scope generalizing name with
  | nil => exact ⟨.record [], reads_pure _⟩
  | cons d earlier ih =>
    obtain ⟨declared, decl⟩ := d
    unfold readNamed
    unfold fewestNamed at h
    split
    · rename_i hname
      rw [if_pos hname] at h
      obtain ⟨fields, rfl, hfields⟩ := Decl.fewestWith_eq_zero_iff.1 h
      obtain ⟨vs, hvs⟩ := readFields_nothing element ih hfields
      exact ⟨.record vs, hvs.answer rfl⟩
    · rename_i hname
      rw [if_neg hname] at h
      exact ih name h

end Nothing

/-- A type says that it may take nothing iff a value of it is read from nothing. -/
theorem Schema.fewestBytes_eq_zero_iff (schema : Schema) (t : Ty) :
    schema.fewestBytes t = 0 ↔ ∃ v, (schema.read t).Reads [] v := by
  constructor
  · intro h
    obtain ⟨v, hv⟩ := Ty.reads_nothing (schema.elementReader 0) (schema.readNamed_nothing _) h
    rw [← readWithin_eq] at hv
    have hnil : schema.read t [] = (.ok v, []) := hv []
    exact ⟨v, (schema.selfDelimiting_read t).stands hnil (isSettled_ok v)⟩
  · rintro ⟨v, hv⟩
    have htaken := schema.takesAtLeast_read t [] [] v (hv [])
    simpa using htaken

/-! ## Counts -/

namespace Schema

variable {schema : Schema} {t : Ty}

/-- What stands behind a count is read as it is anywhere else. -/
theorem agreeWithin_elementReader (schema : Schema) (t : Ty) {m levels : Nat} (h : m + 4 ≤ levels) :
    AgreeWithin m (schema.elementReader levels t) (schema.read t) := by
  intro bytes hbytes
  obtain ⟨l, rfl⟩ : ∃ l, levels = l + 1 := ⟨levels - 1, by omega⟩
  exact (read_eq_readWithin schema t (by omega)).symm

theorem read_seq (schema : Schema) (t : Ty) :
    schema.read (.seq t) = counted (schema.read t) .seq := by
  funext bytes
  have hread : schema.read (.seq t) bytes = schema.readWithin bytes.length (.seq t) bytes := rfl
  have htakes := (schema.selfDelimiting_elementReader bytes.length t).takesAtLeast
  rw [hread, readWithin_eq]
  exact AgreeWithin.counted htakes (fun m hm => schema.agreeWithin_elementReader t hm) bytes le_rfl

/-- Reads a key and the value that it has in a map. -/
def readEntry (schema : Schema) (key value : Ty) : Reader (Value × Value) := do
  let k ← schema.read key
  let v ← schema.read value
  return (k, v)

theorem read_map (schema : Schema) (kind : MapKind) (key value : Ty) :
    schema.read (.map kind key value) = counted (schema.readEntry key value)
      fun entries => .map kind (Entries.ofList kind entries) := by
  funext bytes
  have hread : schema.read (.map kind key value) bytes =
      schema.readWithin bytes.length (.map kind key value) bytes := rfl
  have hdelimits := schema.selfDelimiting_elementReader bytes.length
  have htakes := ((hdelimits key).bind fun k => (hdelimits value).bind fun v =>
    selfDelimiting_pure (k, v)).takesAtLeast
  rw [hread, readWithin_eq]
  simp only [Ty.readWith, readEntries, bind_answer]
  refine AgreeWithin.counted htakes (fun m hm => ?_) bytes le_rfl
  exact (schema.agreeWithin_elementReader key hm).bind (hdelimits key).takesAtLeast fun l hl k =>
    ((schema.agreeWithin_elementReader value hm).mono hl).answer fun v => pure (k, v)

/-- Whether counts are covered by the bytes behind them, where a value of type `t`
is a count and a loop of `pass`: as many bytes are there as passes are completed,
and a value that is read takes as many of them as its count says. -/
def CountsCovered (schema : Schema) (t : Ty) (pass : Reader α) : Prop :=
  ∀ bytes count tail, Reader.length bytes = (.ok count, tail) →
    pass.passes count tail ≤ tail.length ∧
      ∀ v rest, schema.read t bytes = (.ok v, rest) → rest.length + count ≤ tail.length

/-- What a count bounds, for a type that is read in passes which take `least` bytes
or more each. -/
structure CountLaw (schema : Schema) (t : Ty) (pass : Reader α) (least : Nat) : Prop where
  /-- A value is a count and what is gathered of as many passes. -/
  read_eq : ∃ gather, schema.read t = counted pass gather
  /-- A value is read iff all passes are completed. -/
  read_iff : ∀ {bytes count tail}, Reader.length bytes = (.ok count, tail) →
    ((∃ v rest, schema.read t bytes = (.ok v, rest)) ↔ pass.passes count tail = count)
  /-- Those that are completed, be they all or not, have taken their bytes. -/
  passes_mul_le : ∀ count tail, pass.passes count tail * least ≤ tail.length
  /-- A value takes the bytes of all its passes. -/
  read_takes : ∀ {bytes count tail v rest}, Reader.length bytes = (.ok count, tail) →
    schema.read t bytes = (.ok v, rest) → rest.length + count * least ≤ tail.length
  /-- Counts are covered iff no pass may take nothing. -/
  covered_iff : schema.CountsCovered t pass ↔ least ≠ 0
  /-- If one may, then a value is read from any count alone. -/
  unbounded : least = 0 → ∀ count < 0x80000000, ∃ v,
    (schema.read t).Reads (Bytes.ofNat 4 count) v

section CountLaw

variable {pass : Reader α} {gather : List α → Value} {least : Nat}

theorem countsCovered_of_takesAtLeast (hread : schema.read t = counted pass gather)
    (htakes : pass.TakesAtLeast least) (hleast : least ≠ 0) : schema.CountsCovered t pass := by
  intro bytes count tail hcount
  have hpos : 0 < least := Nat.pos_of_ne_zero hleast
  refine ⟨?_, fun v rest hv => ?_⟩
  · exact (Nat.le_mul_of_pos_right _ hpos).trans (htakes.passes_mul_le count tail)
  · rw [hread] at hv
    have hall := htakes.counted hcount hv
    have hmul := Nat.le_mul_of_pos_right count hpos
    omega

/-- One element that is read from nothing is one too many. -/
theorem not_countsCovered {a : α} (hread : schema.read t = counted pass gather)
    (ha : pass.Reads [] a) : ¬ schema.CountsCovered t pass := by
  intro hcovered
  have hone : 1 < 0x80000000 := by decide
  have hv := ha.counted hone gather []
  rw [← hread] at hv
  have hle := (hcovered _ _ _ (reads_length hone [])).2 _ _ hv
  simp at hle

theorem countLaw_of_read (hread : schema.read t = counted pass gather)
    (htakes : pass.TakesAtLeast least) (hnothing : least = 0 → ∃ a, pass.Reads [] a) :
    schema.CountLaw t pass least where
  read_eq := ⟨gather, hread⟩
  read_iff hcount := hread ▸ counted_iff hcount
  passes_mul_le := htakes.passes_mul_le
  read_takes hcount hv := htakes.counted hcount (hread ▸ hv)
  covered_iff := by
    refine ⟨?_, countsCovered_of_takesAtLeast hread htakes⟩
    intro hcovered hzero
    obtain ⟨a, ha⟩ := hnothing hzero
    exact not_countsCovered hread ha hcovered
  unbounded hzero count hlt := by
    obtain ⟨a, ha⟩ := hnothing hzero
    exact ⟨_, hread ▸ ha.counted hlt gather⟩

end CountLaw

/-- Counts and the bytes behind them. The passes behind a count take no fewer bytes
than the types of what they read say, so that a count is covered iff one of these
takes anything. Only records take nothing, and only those of which no field does. -/
theorem count_law (schema : Schema) :
    (∀ t, schema.CountLaw (.seq t) (schema.read t) (schema.fewestBytes t)) ∧
      (∀ kind key value, schema.CountLaw (.map kind key value) (schema.readEntry key value)
        (schema.fewestBytes key + schema.fewestBytes value)) ∧
      ∀ t, schema.fewestBytes t = 0 ↔ ∃ name fields earlier, t = .named name ∧
        schema.find name = (.record fields, earlier) ∧
          ∀ field ∈ fields, earlier.fewestBytes field.type = 0 := by
  refine ⟨fun t => ?_, fun kind key value => ?_, schema.fewestBytes_eq_zero_iff_record⟩
  · exact countLaw_of_read (schema.read_seq t) (schema.takesAtLeast_read t)
      (schema.fewestBytes_eq_zero_iff t).1
  · refine countLaw_of_read (schema.read_map kind key value) ?_ fun hzero => ?_
    · exact (schema.takesAtLeast_read key).bind fun k => (schema.takesAtLeast_read value).answer
    · obtain ⟨hkey, hvalue⟩ := Nat.add_eq_zero_iff.1 hzero
      obtain ⟨k, hk⟩ := (schema.fewestBytes_eq_zero_iff key).1 hkey
      obtain ⟨v, hv⟩ := (schema.fewestBytes_eq_zero_iff value).1 hvalue
      exact ⟨(k, v), hk.pair hv⟩

/-- The counts of points are covered by eight bytes for each, and four bytes make a
sequence of as many empty records as a count can say. -/
theorem count_law_specimens :
    Specimens.schema.fewestBytes (.named "Point") = 8 ∧
      Specimens.schema.CountsCovered (.seq (.named "Point"))
        (Specimens.schema.read (.named "Point")) ∧
      Specimens.schema.fewestBytes (.named "Empty") = 0 ∧
      ∃ v, (Specimens.schema.read (.seq (.named "Empty"))).Reads [0x7f, 0xff, 0xff, 0xff] v := by
  have hpoint : Specimens.schema.fewestBytes (.named "Point") = 8 := by decide
  have hempty : Specimens.schema.fewestBytes (.named "Empty") = 0 := by decide
  refine ⟨hpoint, ?_, hempty, ?_⟩
  · have hlaw := (count_law Specimens.schema).1 (.named "Point")
    exact hlaw.covered_iff.2 (by rw [hpoint]; decide)
  · have hlaw := (count_law Specimens.schema).1 (.named "Empty")
    exact hlaw.unbounded hempty 0x7fffffff (by decide)

/-- Five empty records are read from a count of five and nothing else. -/
theorem empty_records_not_covered :
    Specimens.schema.read (.seq (.named "Empty")) [0, 0, 0, 5] =
        (.ok (.seq (List.replicate 5 (.record []))), []) ∧
      ¬ Specimens.schema.CountsCovered (.seq (.named "Empty"))
        (Specimens.schema.read (.named "Empty")) := by
  have hread : Specimens.schema.read (.seq (.named "Empty")) [0, 0, 0, 5] =
      (.ok (.seq (List.replicate 5 (.record []))), []) := by rfl
  refine ⟨hread, fun hcovered => ?_⟩
  have hcount : Reader.length [0, 0, 0, 5] = (.ok 5, []) := by rfl
  have hle := (hcovered _ _ _ hcount).2 _ _ hread
  simp at hle

end Schema
end CoreBridge.Wire
