import CoreBridge.Proofs.Wire.Counts
import CoreBridge.Proofs.Wire.Timestamps

/-!
# Maps from entries in any order

The entries of a map may come in any order and a key more than once. What the
loop of a map reader gathers is told by membership: an entry is in the map iff
it is the last one with its key (`Entries.mem_ofList`). The maps of both kinds
hold the same entries then, since that does not speak of the kind, and entries
with different keys make the same map in whatever order they come.
-/
namespace CoreBridge.Wire

/-! ## Adding entries -/

/-- Whether a key of rank `a` may be listed before one of rank `b`: below it in an
ordered map, and with another rank in a hashed one. -/
def MapKind.Before : MapKind → List Int → List Int → Prop
  | .ordered, a, b => compare a b = .lt
  | .hashed, a, b => a ≠ b

theorem rank_ne_of_lt {a b : List Int} (h : compare a b = .lt) : a ≠ b := by
  rintro rfl
  exact absurd (h.symm.trans Std.ReflCmp.compare_self) (by decide)

theorem MapKind.Before.ne {kind : MapKind} {a b : List Int} (h : kind.Before a b) : a ≠ b := by
  cases kind with
  | ordered => exact rank_ne_of_lt h
  | hashed => exact h

theorem MapKind.Before.precedes {kind : MapKind} {a b : Value} (h : kind.Before a.rank b.rank) :
    kind.Precedes a b := by
  cases kind with
  | ordered => exact h
  | hashed => exact fun hab => h (congrArg Value.rank hab)

namespace Entries

variable {kind : MapKind} {key value : Value} {es added : Entries} {new old e : Value × Value}

/-- Whether the entries are listed as a map of the kind lists them. -/
def IsListed (kind : MapKind) (es : Entries) : Prop :=
  es.Pairwise fun a b => kind.Before a.1.rank b.1.rank

/-- Whether `added` holds the entries of `es`, with `new` in place of one with its key. -/
def Holds (added es : Entries) (new : Value × Value) : Prop :=
  ∀ e, e ∈ added ↔ e = new ∨ e ∈ es ∧ e.1.rank ≠ new.1.rank

theorem holds_cons (h : ∀ e ∈ es, e.1.rank ≠ new.1.rank) : Holds (new :: es) es new := by
  intro e
  rw [List.mem_cons]
  exact or_congr_right ⟨fun he => ⟨he, h e he⟩, And.left⟩

theorem Holds.cons_old (h : Holds added es new) (hne : old.1.rank ≠ new.1.rank) :
    Holds (old :: added) (old :: es) new := by
  intro e
  simp only [List.mem_cons, h e]
  constructor
  · rintro (rfl | rfl | ⟨he, hother⟩)
    · exact .inr ⟨.inl rfl, hne⟩
    · exact .inl rfl
    · exact .inr ⟨.inr he, hother⟩
  · rintro (rfl | ⟨rfl | he, hother⟩)
    · exact .inr (.inl rfl)
    · exact .inl rfl
    · exact .inr (.inr ⟨he, hother⟩)

theorem Holds.drop_old (h : Holds added es new) (heq : old.1.rank = new.1.rank) :
    Holds added (old :: es) new := by
  intro e
  rw [h e, List.mem_cons]
  refine or_congr_right (and_congr_left fun hother => ⟨.inr, ?_⟩)
  rintro (rfl | he)
  · exact absurd heq hother
  · exact he

theorem holds_insertOrdered (hes : es.IsListed .ordered) :
    Holds (insertOrdered key.rank key value es) es (key, value) := by
  induction es with
  | nil => exact holds_cons fun e he => absurd he List.not_mem_nil
  | cons first es ih =>
    obtain ⟨k, v⟩ := first
    obtain ⟨hfirst, hothers⟩ := List.pairwise_cons.1 hes
    rw [insertOrdered]
    split
    · -- A key below the first one is below all of them.
      rename_i hbelow
      refine holds_cons fun e he => ?_
      rcases List.mem_cons.1 he with rfl | he
      · exact (rank_ne_of_lt hbelow).symm
      · exact (rank_ne_of_lt (Std.TransCmp.lt_trans hbelow (hfirst e he))).symm
    · rename_i hsame
      have hrank : key.rank = k.rank := Std.LawfulEqCmp.eq_of_compare hsame
      exact (holds_cons fun e he => hrank ▸ (hfirst e he).ne.symm).drop_old hrank.symm
    · rename_i habove
      exact (ih hothers).cons_old (rank_ne_of_lt (Std.OrientedCmp.lt_of_gt habove))

theorem holds_insertHashed (hes : es.IsListed .hashed) :
    Holds (insertHashed key.rank key value es) es (key, value) := by
  induction es with
  | nil => exact holds_cons fun e he => absurd he List.not_mem_nil
  | cons first es ih =>
    obtain ⟨k, v⟩ := first
    obtain ⟨hfirst, hothers⟩ := List.pairwise_cons.1 hes
    rw [insertHashed]
    split
    · rename_i hrank
      exact (holds_cons fun e he => hrank ▸ (hfirst e he).ne.symm).drop_old hrank.symm
    · rename_i hrank
      exact (ih hothers).cons_old (Ne.symm hrank)

theorem holds_insert (hes : es.IsListed kind) :
    Holds (es.insert kind key value) es (key, value) := by
  cases kind with
  | ordered => exact holds_insertOrdered hes
  | hashed => exact holds_insertHashed hes

theorem isListed_insert (hes : es.IsListed kind) :
    (es.insert kind key value).IsListed kind := by
  induction es with
  | nil => cases kind <;> exact List.pairwise_singleton _ _
  | cons first es ih =>
    obtain ⟨k, v⟩ := first
    obtain ⟨hfirst, hothers⟩ := List.pairwise_cons.1 hes
    -- The entries behind the first one are those that were there and the new one.
    have hkept (hnew : kind.Before k.rank key.rank) :
        IsListed kind ((k, v) :: insert kind key value es) := by
      refine List.pairwise_cons.2 ⟨fun e he => ?_, ih hothers⟩
      rcases (holds_insert hothers e).1 he with rfl | ⟨he, -⟩
      · exact hnew
      · exact hfirst e he
    cases kind with
    | ordered =>
      rw [insert, insertOrdered]
      split
      · rename_i hbelow
        refine List.pairwise_cons.2 ⟨fun e he => ?_, hes⟩
        rcases List.mem_cons.1 he with rfl | he
        · exact hbelow
        · exact Std.TransCmp.lt_trans hbelow (hfirst e he)
      · rename_i hsame
        have hrank : key.rank = k.rank := Std.LawfulEqCmp.eq_of_compare hsame
        exact List.pairwise_cons.2 ⟨fun e he => hrank ▸ hfirst e he, hothers⟩
      · rename_i habove
        exact hkept (Std.OrientedCmp.lt_of_gt habove)
    | hashed =>
      rw [insert, insertHashed]
      split
      · rename_i hrank
        exact List.pairwise_cons.2 ⟨fun e he => hrank ▸ hfirst e he, hothers⟩
      · rename_i hrank
        exact hkept (Ne.symm hrank)

/-! ## What a list of entries makes -/

theorem ofList_concat (kind : MapKind) (es : List (Value × Value)) (e : Value × Value) :
    ofList kind (es ++ [e]) = (ofList kind es).insert kind e.1 e.2 := by
  rw [ofList, List.foldl_append]
  rfl

theorem isListed_ofList (kind : MapKind) (es : List (Value × Value)) :
    (ofList kind es).IsListed kind := by
  induction es using List.reverseRecOn with
  | nil => exact List.Pairwise.nil
  | append_singleton es e ih =>
    rw [ofList_concat]
    exact isListed_insert ih

/-- Whether `e` stands in the list, and no entry with its key behind it. -/
def IsLast (es : List (Value × Value)) (e : Value × Value) : Prop :=
  ∃ before after, es = before ++ e :: after ∧ ∀ later ∈ after, later.1.rank ≠ e.1.rank

theorem isLast_concat :
    IsLast (es ++ [new]) e ↔ e = new ∨ IsLast es e ∧ e.1.rank ≠ new.1.rank := by
  constructor
  · rintro ⟨before, after, hsplit, hafter⟩
    rcases after.eq_nil_or_concat with rfl | ⟨after, last, rfl⟩
    · exact .inl (List.singleton_inj.1 (List.append_inj' hsplit rfl).2).symm
    · rw [List.concat_eq_append] at hsplit hafter
      rw [← List.cons_append, ← List.append_assoc] at hsplit
      obtain ⟨rfl, hlast⟩ := List.append_inj' hsplit rfl
      obtain rfl := List.singleton_inj.1 hlast
      have hrest := List.forall_mem_append.1 hafter
      exact .inr ⟨⟨before, after, rfl, hrest.1⟩, (hrest.2 new (List.mem_singleton_self _)).symm⟩
  · rintro (rfl | ⟨⟨before, after, rfl, hafter⟩, hne⟩)
    · exact ⟨es, [], rfl, fun later h => absurd h List.not_mem_nil⟩
    · refine ⟨before, after ++ [new], by simp, List.forall_mem_append.2 ⟨hafter, ?_⟩⟩
      exact List.forall_mem_singleton.2 hne.symm

/-- A map holds, for each key, the last of the entries with the key. -/
theorem mem_ofList : e ∈ ofList kind es ↔ IsLast es e := by
  induction es using List.reverseRecOn with
  | nil =>
    constructor
    · exact fun h => absurd h List.not_mem_nil
    · rintro ⟨before, after, hsplit, -⟩
      simp at hsplit
  | append_singleton es new ih =>
    rw [ofList_concat, holds_insert (isListed_ofList kind es) e, isLast_concat, ih]

theorem IsLast.mem (h : IsLast es e) : e ∈ es := by
  obtain ⟨before, after, rfl, -⟩ := h
  exact List.mem_append_cons_self

theorem mem_of_mem_ofList (h : e ∈ ofList kind es) : e ∈ es :=
  (mem_ofList.1 h).mem

theorem IsListed.nodup (h : es.IsListed kind) : es.Nodup :=
  h.imp fun hbefore heq => hbefore.ne (congrArg (fun e => e.1.rank) heq)

/-- Lists with the same last entries make the same map, up to the order in which a
hashed one lists it. -/
theorem perm_ofList {kind' : MapKind} {es' : Entries} (h : ∀ e, IsLast es e ↔ IsLast es' e) :
    (ofList kind es).Perm (ofList kind' es') := by
  refine (List.perm_ext_iff_of_nodup (isListed_ofList kind es).nodup
    (isListed_ofList kind' es').nodup).2 fun e => ?_
  rw [mem_ofList, mem_ofList, h e]

/-- An ordered map lists its entries in one way. -/
theorem IsListed.eq_of_perm {es' : Entries} (hes : es.IsListed .ordered)
    (hes' : es'.IsListed .ordered) (h : es.Perm es') : es = es' := by
  refine h.eq_of_pairwise (fun a b _ _ hab hba => ?_) hes hes'
  exact absurd rfl (rank_ne_of_lt (Std.TransCmp.lt_trans hab hba))

/-- The map that lists entries with different keys lists all of them. -/
theorem ofList_perm_self (h : es.Pairwise fun a b => a.1.rank ≠ b.1.rank) :
    (ofList kind es).Perm es := by
  have hnodup : es.Nodup := h.imp fun hne heq => hne (congrArg (fun e => e.1.rank) heq)
  refine (List.perm_ext_iff_of_nodup (isListed_ofList kind es).nodup hnodup).2 fun e => ?_
  refine ⟨mem_of_mem_ofList, fun he => mem_ofList.2 ?_⟩
  obtain ⟨before, after, rfl⟩ := List.append_of_mem he
  have hrest := List.pairwise_cons.1 (List.pairwise_append.1 h).2.1
  exact ⟨before, after, rfl, fun later hlater => (hrest.1 later hlater).symm⟩

theorem ofList_self (h : es.IsListed .ordered) : ofList .ordered es = es :=
  (isListed_ofList .ordered es).eq_of_perm h (ofList_perm_self (h.imp MapKind.Before.ne))

end Entries

/-! ## Reading and writing entries -/

open Reader

section ReadBack

variable {schema : Schema} {names : List String} {key value t : Ty} {kind : MapKind} {v : Value}
  {es : Entries} {bytes form body : Bytes}

/-- Whether `v` is a value of type `t` with a wire form that is read as it. -/
structure Value.IsReadBack (schema : Schema) (t : Ty) (v : Value) : Prop where
  hasType : v.HasType schema schema t
  reads : ∃ form, v.emit = .raw form ∧ (schema.read t).Reads form v

/-- Whether the key and the value of an entry have wire forms that are read as them. -/
structure Value.EntryIsReadBack (schema : Schema) (key value : Ty) (e : Value × Value) :
    Prop where
  key : e.1.IsReadBack schema key
  value : e.2.IsReadBack schema value

theorem Value.HasForm.isReadBack (hschema : schema.IsDistinct)
    (h : v.HasForm schema schema t form) : v.IsReadBack schema t where
  hasType := h.hasType
  reads := ⟨form, h.emit_eq, Schema.read_append_of_encode hschema h.hasType h.isWellFormed
    (encode_eq_ok.2 h.emit_eq)⟩

theorem Value.reads_entries (h : ∀ e ∈ es, EntryIsReadBack schema key value e) :
    ∃ body, emitEntries es = .raw body ∧
      (repeated es.length (schema.readEntry key value)).Reads body es := by
  induction es with
  | nil => exact ⟨[], rfl, reads_pure []⟩
  | cons e es ih =>
    obtain ⟨k, v⟩ := e
    obtain ⟨he, hes⟩ := List.forall_mem_cons.1 h
    obtain ⟨first, hfirst, hkey⟩ := he.key.reads
    obtain ⟨second, hsecond, hvalue⟩ := he.value.reads
    obtain ⟨others, hothers, hreads⟩ := ih hes
    refine ⟨first ++ second ++ others, ?_, ?_⟩
    · rw [emitEntries, hfirst, hsecond, hothers, List.append_assoc]
      rfl
    · rw [List.length_cons, repeated_succ]
      exact (hkey.pair hvalue).bind (hreads.answer rfl)

theorem Schema.reads_map (kind : MapKind) (hcount : es.length < 0x80000000)
    (h : (repeated es.length (schema.readEntry key value)).Reads body es) :
    (schema.read (.map kind key value)).Reads (Bytes.ofNat 4 es.length ++ body)
      (.map kind (Entries.ofList kind es)) := by
  rw [read_map]
  exact (reads_length hcount).bind (h.answer rfl)

theorem Schema.decode_of_reads (h : (schema.read t).Reads bytes v) :
    schema.decode t bytes = .ok v := by
  have hread := h []
  rw [List.append_nil] at hread
  simp only [decode, bind_apply, hread, finish, pure_apply]

/-- What is read for a plain type has the bytes that were read for its form. -/
theorem Schema.ensures_isReadBack (hschema : schema.IsPlain names) (ht : t.IsPlain names) :
    (schema.read t).Ensures fun v taken => v.IsReadBack schema t ∧ v.emit = .raw taken := by
  intro bytes rest v hrun
  obtain ⟨taken, htaken, hform⟩ :=
    ensures_elementReader hschema (bytes.length + 1) t ht bytes rest v hrun
  obtain ⟨taken', htaken', hread⟩ := (schema.selfDelimiting_read t).exact hrun
  obtain rfl := List.append_cancel_right (htaken.symm.trans htaken')
  have hreads := (schema.selfDelimiting_read t).stands hread (isSettled_ok v)
  exact ⟨taken, htaken, ⟨hform.hasType, taken, hform.emit_eq, hreads⟩, hform.emit_eq⟩

theorem Schema.ensures_entries (hschema : schema.IsPlain names) (hkey : key.IsPlain names)
    (hvalue : value.IsPlain names) (count : Nat) :
    (repeated count (schema.readEntry key value)).Ensures fun es taken => es.length = count ∧
      (∀ e ∈ es, Value.EntryIsReadBack schema key value e) ∧ Value.emitEntries es = .raw taken := by
  induction count with
  | zero => exact ensures_pure ⟨rfl, fun e he => absurd he List.not_mem_nil, rfl⟩
  | succ count ih =>
    have hentry : (schema.readEntry key value).Ensures fun e taken =>
        Value.EntryIsReadBack schema key value e ∧ e.1.emit ++ e.2.emit = .raw taken :=
      (ensures_isReadBack hschema hkey).bind fun k first hk =>
        (ensures_isReadBack hschema hvalue).map fun v second hv =>
          ⟨⟨hk.1, hv.1⟩, Emission.append_eq_raw.2 ⟨first, second, hk.2, hv.2, rfl⟩⟩
    rw [repeated_succ]
    refine hentry.bind fun e first he => ih.map fun es second hes => ?_
    obtain ⟨hcount, hall, hothers⟩ := hes
    refine ⟨congrArg (· + 1) hcount, List.forall_mem_cons.2 ⟨he.1, hall⟩, ?_⟩
    obtain ⟨a, b, ha, hb, rfl⟩ := Emission.append_eq_raw.1 he.2
    rw [Value.emitEntries, ha, hb, hothers, List.append_assoc]
    rfl

end ReadBack

/-! ## As many bytes in any order -/

/-- Whether `second` is written if `first` is, in as many bytes. -/
def Emission.AsLong (first second : Emission) : Prop :=
  ∀ bytes, first = raw bytes → ∃ other, second = raw other ∧ other.length = bytes.length

namespace Emission

variable {first first' second second' third : Emission}

theorem AsLong.refl (e : Emission) : e.AsLong e := fun bytes h => ⟨bytes, h, rfl⟩

theorem AsLong.trans (h : first.AsLong second) (h' : second.AsLong third) :
    first.AsLong third := by
  intro bytes hbytes
  obtain ⟨other, hother, hlength⟩ := h bytes hbytes
  obtain ⟨last, hlast, hlength'⟩ := h' other hother
  exact ⟨last, hlast, hlength'.trans hlength⟩

theorem AsLong.append (h : first.AsLong first') (h' : second.AsLong second') :
    (first ++ second).AsLong (first' ++ second') := by
  intro bytes hbytes
  obtain ⟨a, b, ha, hb, rfl⟩ := append_eq_raw.1 hbytes
  obtain ⟨a', ha', hlength⟩ := h a ha
  obtain ⟨b', hb', hlength'⟩ := h' b hb
  refine ⟨a' ++ b', append_eq_raw.2 ⟨a', b', ha', hb', rfl⟩, ?_⟩
  rw [List.length_append, List.length_append, hlength, hlength']

end Emission

namespace Value

open Emission

/-- Whether `w` is `v` but for the kinds of its maps and the orders in which they
list their entries, at whatever depth. -/
inductive Rearranged : Value → Value → Prop
  | refl (v : Value) : Rearranged v v
  | trans {u v w : Value} : Rearranged u v → Rearranged v w → Rearranged u w
  | entries {es es' : Entries} (kind kind' : MapKind) : es.Perm es' →
      Rearranged (.map kind es) (.map kind' es')
  | entry {k k' v v' : Value} (kind : MapKind) (before after : Entries) :
      Rearranged k k' → Rearranged v v' →
        Rearranged (.map kind (before ++ (k, v) :: after))
          (.map kind (before ++ (k', v') :: after))
  | content {v w : Value} : Rearranged v w → Rearranged (.present v) (.present w)
  | element {v w : Value} (before after : List Value) : Rearranged v w →
      Rearranged (.seq (before ++ v :: after)) (.seq (before ++ w :: after))
  | recordField {v w : Value} (before after : List Value) : Rearranged v w →
      Rearranged (.record (before ++ v :: after)) (.record (before ++ w :: after))
  | variantField {v w : Value} (position : Nat) (discriminant : Scalar.i32.Word)
      (before after : List Value) : Rearranged v w →
        Rearranged (.variant position discriminant (before ++ v :: after))
          (.variant position discriminant (before ++ w :: after))

theorem asLong_emitAll {v w : Value} (h : v.emit.AsLong w.emit) (before after : List Value) :
    (emitAll (before ++ v :: after)).AsLong (emitAll (before ++ w :: after)) := by
  induction before with
  | nil => exact h.append (.refl _)
  | cons u before ih => exact (AsLong.refl u.emit).append ih

theorem asLong_emitEntries {k k' v v' : Value} (hkey : k.emit.AsLong k'.emit)
    (hvalue : v.emit.AsLong v'.emit) (before after : Entries) :
    (emitEntries (before ++ (k, v) :: after)).AsLong
      (emitEntries (before ++ (k', v') :: after)) := by
  induction before with
  | nil => exact hkey.append (hvalue.append (.refl _))
  | cons e before ih => exact (AsLong.refl e.1.emit).append ((AsLong.refl e.2.emit).append ih)

theorem asLong_emitEntries_of_perm {es es' : Entries} (h : es.Perm es') :
    (emitEntries es).AsLong (emitEntries es') := by
  induction h with
  | nil => exact .refl _
  | cons e h ih => exact (AsLong.refl e.1.emit).append ((AsLong.refl e.2.emit).append ih)
  | swap e f es =>
    intro bytes hbytes
    obtain ⟨a, _, ha, hfirst, rfl⟩ := append_eq_raw.1 hbytes
    obtain ⟨b, _, hb, hentry, rfl⟩ := append_eq_raw.1 hfirst
    obtain ⟨c, _, hc, hsecond, rfl⟩ := append_eq_raw.1 hentry
    obtain ⟨d, others, hd, hothers, rfl⟩ := append_eq_raw.1 hsecond
    refine ⟨c ++ (d ++ (a ++ (b ++ others))), ?_, ?_⟩
    · rw [emitEntries, emitEntries, ha, hb, hc, hd, hothers]
      rfl
    · simp only [List.length_append]
      omega
  | trans _ _ ih ih' => exact ih.trans ih'

theorem Rearranged.asLong {v w : Value} (h : v.Rearranged w) : v.emit.AsLong w.emit := by
  induction h with
  | refl v => exact .refl _
  | trans _ _ ih ih' => exact ih.trans ih'
  | entries kind kind' h =>
    rw [emit, emit, h.length_eq]
    exact (AsLong.refl _).append (asLong_emitEntries_of_perm h)
  | entry kind before after _ _ hkey hvalue =>
    simp only [emit, List.length_append, List.length_cons]
    exact (AsLong.refl _).append (asLong_emitEntries hkey hvalue before after)
  | content _ ih => exact (AsLong.refl _).append ih
  | element before after _ ih =>
    simp only [emit, List.length_append, List.length_cons]
    exact (AsLong.refl _).append (asLong_emitAll ih before after)
  | recordField before after _ ih => exact asLong_emitAll ih before after
  | variantField position discriminant before after _ ih =>
    exact (AsLong.refl _).append (asLong_emitAll ih before after)

/-- Fewer entries take fewer bytes. -/
theorem emitEntries_of_sublist {es es' : Entries} (h : es.Sublist es') {body : Bytes}
    (hbody : emitEntries es' = .raw body) :
    ∃ shorter, emitEntries es = .raw shorter ∧ shorter.length ≤ body.length := by
  induction h generalizing body with
  | slnil => exact ⟨body, hbody, le_rfl⟩
  | cons e _ ih =>
    obtain ⟨a, _, ha, hrest, rfl⟩ := append_eq_raw.1 hbody
    obtain ⟨b, others, hb, hothers, rfl⟩ := append_eq_raw.1 hrest
    obtain ⟨shorter, hshorter, hle⟩ := ih hothers
    refine ⟨shorter, hshorter, ?_⟩
    simp only [List.length_append]
    omega
  | cons_cons e _ ih =>
    obtain ⟨a, _, ha, hrest, rfl⟩ := append_eq_raw.1 hbody
    obtain ⟨b, others, hb, hothers, rfl⟩ := append_eq_raw.1 hrest
    obtain ⟨shorter, hshorter, hle⟩ := ih hothers
    refine ⟨a ++ (b ++ shorter), ?_, ?_⟩
    · rw [emitEntries, ha, hb, hshorter]
      rfl
    · simp only [List.length_append]
      omega

end Value

/-! ## Maps -/

namespace Schema

variable {schema : Schema} {names : List String} {key value : Ty} {kind : MapKind}
  {es es' : Entries} {e : Value × Value} {v : Value} {bytes : Bytes}

/-- Whether `e` is a key and a value of these types that have wire forms. -/
def IsEntry (schema : Schema) (key value : Ty) (e : Value × Value) : Prop :=
  (∃ form, e.1.HasForm schema schema key form) ∧ ∃ form, e.2.HasForm schema schema value form

/-- Whether a count and behind it the entries of `es`, in their order, are decoded as the
map of the kind that lists `entries`. -/
def Makes (schema : Schema) (kind : MapKind) (key value : Ty) (es entries : Entries) : Prop :=
  ∃ body, Value.emitEntries es = .raw body ∧
    schema.decode (.map kind key value) (Bytes.ofNat 4 es.length ++ body) = .ok (.map kind entries)

/-- What maps are read from and written as. -/
structure MapLaw (schema : Schema) (key value : Ty) : Prop where
  /-- Entries with wire forms are decoded as a map in which each key has the last of
  its values. -/
  last_wins : schema.IsDistinct → ∀ {es : Entries}, (∀ e ∈ es, schema.IsEntry key value e) →
    es.length < 0x80000000 → ∀ kind, ∃ entries, schema.Makes kind key value es entries ∧
      (entries.Pairwise fun a b => kind.Precedes a.1 b.1) ∧
      ∀ e, e ∈ entries ↔
        ∃ before after, es = before ++ e :: after ∧ ∀ later ∈ after, later.1 ≠ e.1
  /-- If their keys differ, the map does not depend on their order. -/
  order_free : schema.IsDistinct → ∀ {es es' : Entries}, (∀ e ∈ es, schema.IsEntry key value e) →
    es.length < 0x80000000 → (es.Pairwise fun a b => a.1 ≠ b.1) → es.Perm es' →
      (∃ entries, schema.Makes .ordered key value es entries ∧
        schema.Makes .ordered key value es' entries) ∧
      ∃ entries entries', schema.Makes .hashed key value es entries ∧
        schema.Makes .hashed key value es' entries' ∧ entries.Perm entries'
  /-- The readers of both kinds take the same bytes for the same entries, or refuse for
  the same reason in the same place. -/
  read_agree : ∀ bytes,
    (∃ error rest, ∀ kind, schema.read (.map kind key value) bytes = (.error error, rest)) ∨
    ∃ hashed ordered rest, hashed.Perm ordered ∧
      schema.read (.map .hashed key value) bytes = (.ok (.map .hashed hashed), rest) ∧
      schema.read (.map .ordered key value) bytes = (.ok (.map .ordered ordered), rest)
  /-- So do they where nothing may be left. -/
  decode_agree : ∀ bytes,
    (∃ error, ∀ kind, schema.decode (.map kind key value) bytes = .error error) ∨
    ∃ hashed ordered, hashed.Perm ordered ∧
      schema.decode (.map .hashed key value) bytes = .ok (.map .hashed hashed) ∧
      schema.decode (.map .ordered key value) bytes = .ok (.map .ordered ordered)
  /-- An ordered map of plain keys and values that was decoded is written with ascending
  keys, in no more bytes than it was decoded from, and decoded again from these. -/
  normalises : ∀ {names bytes v}, schema.IsPlain names → key.IsPlain names →
    value.IsPlain names → schema.decode (.map .ordered key value) bytes = .ok v →
      ∃ entries shorter, v = .map .ordered entries ∧
        (entries.Pairwise fun a b => compare a.1.rank b.1.rank = .lt) ∧
        encode v = .ok shorter ∧ shorter.length ≤ bytes.length ∧
        schema.decode (.map .ordered key value) shorter = .ok v

theorem IsEntry.isReadBack (hschema : schema.IsDistinct) (h : schema.IsEntry key value e) :
    Value.EntryIsReadBack schema key value e := by
  obtain ⟨⟨_, hkey⟩, _, hvalue⟩ := h
  exact ⟨hkey.isReadBack hschema, hvalue.isReadBack hschema⟩

theorem makes_ofList (hes : ∀ e ∈ es, Value.EntryIsReadBack schema key value e)
    (hcount : es.length < 0x80000000) (kind : MapKind) :
    schema.Makes kind key value es (Entries.ofList kind es) := by
  obtain ⟨body, hbody, hreads⟩ := Value.reads_entries hes
  exact ⟨body, hbody, decode_of_reads (reads_map kind hcount hreads)⟩

/-- Keys of one type differ iff their ranks do. -/
theorem rank_ne_iff {a b : Value} (ha : a.HasType schema schema key)
    (hb : b.HasType schema schema key) : a.rank ≠ b.rank ↔ a ≠ b :=
  not_congr ⟨Value.eq_of_rank_eq ha hb, congrArg Value.rank⟩

theorem isLast_iff (hes : ∀ e ∈ es, e.1.HasType schema schema key) : Entries.IsLast es e ↔
    ∃ before after, es = before ++ e :: after ∧ ∀ later ∈ after, later.1 ≠ e.1 := by
  refine exists₂_congr fun before after => and_congr_right ?_
  rintro rfl
  obtain ⟨-, hhere⟩ := List.forall_mem_append.1 hes
  obtain ⟨he, hafter⟩ := List.forall_mem_cons.1 hhere
  exact forall₂_congr fun later hlater => rank_ne_iff (hafter later hlater) he

theorem last_wins (hschema : schema.IsDistinct) (hes : ∀ e ∈ es, schema.IsEntry key value e)
    (hcount : es.length < 0x80000000) (kind : MapKind) :
    ∃ entries, schema.Makes kind key value es entries ∧
      (entries.Pairwise fun a b => kind.Precedes a.1 b.1) ∧
      ∀ e, e ∈ entries ↔
        ∃ before after, es = before ++ e :: after ∧ ∀ later ∈ after, later.1 ≠ e.1 := by
  have hback := fun e he => (hes e he).isReadBack hschema
  refine ⟨Entries.ofList kind es, makes_ofList hback hcount kind, ?_, fun e => ?_⟩
  · exact (Entries.isListed_ofList kind es).imp MapKind.Before.precedes
  · rw [Entries.mem_ofList, isLast_iff fun e he => (hback e he).key.hasType]

theorem order_free (hschema : schema.IsDistinct) (hes : ∀ e ∈ es, schema.IsEntry key value e)
    (hcount : es.length < 0x80000000) (hdistinct : es.Pairwise fun a b => a.1 ≠ b.1)
    (h : es.Perm es') :
    (∃ entries, schema.Makes .ordered key value es entries ∧
      schema.Makes .ordered key value es' entries) ∧
    ∃ entries entries', schema.Makes .hashed key value es entries ∧
      schema.Makes .hashed key value es' entries' ∧ entries.Perm entries' := by
  have hback := fun e he => (hes e he).isReadBack hschema
  have hback' := fun e he => hback e (h.mem_iff.2 he)
  have hcount' : es'.length < 0x80000000 := h.length_eq ▸ hcount
  have hranks : es.Pairwise fun a b => a.1.rank ≠ b.1.rank :=
    hdistinct.imp_of_mem fun ha hb =>
      (rank_ne_iff (hback _ ha).key.hasType (hback _ hb).key.hasType).2
  have hranks' := (h.pairwise_iff fun hab => hab.symm).1 hranks
  have hsame (kind : MapKind) : (Entries.ofList kind es).Perm (Entries.ofList kind es') :=
    (Entries.ofList_perm_self hranks).trans (h.trans (Entries.ofList_perm_self hranks').symm)
  have hordered : Entries.ofList .ordered es = Entries.ofList .ordered es' :=
    (Entries.isListed_ofList .ordered es).eq_of_perm (Entries.isListed_ofList .ordered es')
      (hsame .ordered)
  refine ⟨⟨_, makes_ofList hback hcount .ordered, ?_⟩, _, _, makes_ofList hback hcount .hashed,
    makes_ofList hback' hcount' .hashed, hsame .hashed⟩
  rw [hordered]
  exact makes_ofList hback' hcount' .ordered

/-- What the map readers gather are the same entries for both kinds. -/
theorem read_map_cases (schema : Schema) (key value : Ty) (bytes : Bytes) :
    (∃ error rest, ∀ kind, schema.read (.map kind key value) bytes = (.error error, rest)) ∨
    ∃ es rest, ∀ kind, schema.read (.map kind key value) bytes =
      (.ok (.map kind (Entries.ofList kind es)), rest) := by
  simp only [read_map, counted, bind_apply]
  rcases length bytes with ⟨error | count, tail⟩
  · exact .inl ⟨error, tail, fun _ => rfl⟩
  · simp only
    rcases repeated count (schema.readEntry key value) tail with ⟨error | es, rest⟩
    · exact .inl ⟨error, rest, fun _ => rfl⟩
    · exact .inr ⟨es, rest, fun _ => rfl⟩

theorem decode_map_cases (schema : Schema) (key value : Ty) (bytes : Bytes) :
    (∃ error, ∀ kind, schema.decode (.map kind key value) bytes = .error error) ∨
    ∃ es, ∀ kind, schema.decode (.map kind key value) bytes =
      .ok (.map kind (Entries.ofList kind es)) := by
  simp only [decode, bind_apply]
  rcases schema.read_map_cases key value bytes with ⟨error, rest, h⟩ | ⟨es, rest, h⟩
  · exact .inl ⟨error, fun kind => by rw [h kind]⟩
  · cases rest with
    | nil => exact .inr ⟨es, fun kind => by rw [h kind]; rfl⟩
    | cons byte rest =>
      exact .inl ⟨.trailingBytes (byte :: rest).length, fun kind => by rw [h kind]; rfl⟩

theorem hashed_perm_ordered (es : Entries) :
    (Entries.ofList .hashed es).Perm (Entries.ofList .ordered es) :=
  Entries.perm_ofList fun _ => Iff.rfl

/-- A map is read from a count and the forms of the entries that made it. -/
theorem ensures_map (hschema : schema.IsPlain names) (hkey : key.IsPlain names)
    (hvalue : value.IsPlain names) (kind : MapKind) :
    (schema.read (.map kind key value)).Ensures fun v taken => ∃ es body,
      v = .map kind (Entries.ofList kind es) ∧ es.length < 0x80000000 ∧
      (∀ e ∈ es, Value.EntryIsReadBack schema key value e) ∧ Value.emitEntries es = .raw body ∧
      taken = Bytes.ofNat 4 es.length ++ body := by
  rw [read_map]
  refine ensures_length.bind fun count first hfirst =>
    (ensures_entries hschema hkey hvalue count).map fun es body hes => ?_
  obtain ⟨rfl, hback, hbody⟩ := hes
  obtain ⟨hcount, rfl⟩ := Emission.length_eq_raw hfirst
  exact ⟨es, body, rfl, hcount, hback, hbody, rfl⟩

theorem normalises (hschema : schema.IsPlain names) (hkey : key.IsPlain names)
    (hvalue : value.IsPlain names)
    (h : schema.decode (.map .ordered key value) bytes = .ok v) :
    ∃ entries shorter, v = .map .ordered entries ∧ Entries.IsListed .ordered entries ∧
      encode v = .ok shorter ∧ shorter.length ≤ bytes.length ∧
      schema.decode (.map .ordered key value) shorter = .ok v := by
  obtain ⟨taken, htaken, es, body, rfl, hcount, hback, hbody, rfl⟩ :=
    ensures_map hschema hkey hvalue .ordered bytes [] v (read_of_decode h)
  rw [List.append_nil] at htaken
  subst htaken
  have hlisted := Entries.isListed_ofList .ordered es
  have hself := Entries.ofList_self hlisted
  have hfew : (Entries.ofList .ordered es).Subperm es :=
    hlisted.nodup.subperm fun e => Entries.mem_of_mem_ofList
  generalize Entries.ofList .ordered es = entries at *
  -- The entries that are left are some of those read, in another order.
  obtain ⟨kept, hperm, hkept⟩ := hfew
  obtain ⟨part, hpart, hle⟩ := Value.emitEntries_of_sublist hkept hbody
  obtain ⟨shorter, hshorter, hlength⟩ := Value.asLong_emitEntries_of_perm hperm part hpart
  have hcount' : entries.length < 0x80000000 :=
    (hperm.length_eq ▸ hkept.length_le).trans_lt hcount
  have hback' : ∀ e ∈ entries, Value.EntryIsReadBack schema key value e :=
    fun e he => hback e (hkept.subset (hperm.mem_iff.2 he))
  obtain ⟨form, hform, hreads⟩ := Value.reads_entries hback'
  obtain rfl : form = shorter := Emission.raw_inj.1 (hform.symm.trans hshorter)
  have hemit : (Value.map .ordered entries).emit = .raw (Bytes.ofNat 4 entries.length ++ form) := by
    rw [Value.emit, Emission.length, if_pos hcount', hform]
    rfl
  refine ⟨entries, _, rfl, hlisted, encode_eq_ok.2 hemit, ?_, ?_⟩
  · simp only [List.length_append, Bytes.length_ofNat]
    omega
  · have hmap := decode_of_reads (reads_map .ordered hcount' hreads)
    rwa [hself] at hmap

/-- Maps of both kinds are read from a count and entries in any order. A key that comes
again has its last value, the order matters otherwise to neither kind, and both kinds
read the same entries or refuse for the same reason. How many bytes a value takes does
not depend on the orders in which its maps list their entries. An ordered map of plain
keys and values is written by ascending key, whatever it was read from. -/
theorem map_law :
    (∀ schema key value, MapLaw schema key value) ∧
      ∀ {v w : Value} {bytes : Bytes}, v.Rearranged w → encode v = .ok bytes →
        ∃ other, encode w = .ok other ∧ other.length = bytes.length := by
  refine ⟨fun schema key value => ?_, fun {v w bytes} h hv => ?_⟩
  · exact {
      last_wins := fun hschema _ => last_wins hschema
      order_free := fun hschema _ _ => order_free hschema
      read_agree := fun bytes => by
        rcases schema.read_map_cases key value bytes with herror | ⟨es, rest, h⟩
        · exact .inl herror
        · exact .inr ⟨_, _, rest, hashed_perm_ordered es, h .hashed, h .ordered⟩
      decode_agree := fun bytes => by
        rcases schema.decode_map_cases key value bytes with herror | ⟨es, h⟩
        · exact .inl herror
        · exact .inr ⟨_, _, hashed_perm_ordered es, h .hashed, h .ordered⟩
      normalises := normalises }
  · obtain ⟨other, hother, hlength⟩ := h.asLong bytes (encode_eq_ok.1 hv)
    exact ⟨other, encode_eq_ok.2 hother, hlength⟩

/-- Of three answers to two questions, the first one to the question asked twice is lost. -/
theorem map_law_answered_twice :
    let answer (question : Scalar.u8.Word) (yes : Bool) :=
      (Value.scalar .u8 question, Value.bool yes)
    let answers : Entries := [answer 2 true, answer 1 true, answer 2 false]
    Specimens.schema.IsDistinct ∧
      (∀ e ∈ answers, Specimens.schema.IsEntry (.scalar .u8) .bool e) ∧
      (∀ kind, ∃ entries, Specimens.schema.Makes kind (.scalar .u8) .bool answers entries ∧
        ∀ e, e ∈ entries ↔ ∃ before after,
          answers = before ++ e :: after ∧ ∀ later ∈ after, later.1 ≠ e.1) ∧
      Specimens.schema.Makes .ordered (.scalar .u8) .bool answers
        [answer 1 true, answer 2 false] ∧
      Specimens.schema.Makes .hashed (.scalar .u8) .bool answers
        [answer 2 false, answer 1 true] := by
  intro answer answers
  have hschema : Specimens.schema.IsDistinct := by decide
  have hanswer (question : Scalar.u8.Word) (yes : Bool) :
      Specimens.schema.IsEntry (.scalar .u8) .bool (answer question yes) :=
    ⟨⟨_, rfl, trivial, rfl⟩, _, rfl, trivial, rfl⟩
  have hanswers : ∀ e ∈ answers, Specimens.schema.IsEntry (.scalar .u8) .bool e := by
    simp only [answers, List.forall_mem_cons]
    exact ⟨hanswer 2 true, hanswer 1 true, hanswer 2 false, fun e he => absurd he List.not_mem_nil⟩
  have hbytes : Bytes.ofNat 4 answers.length ++ [2, 1, 1, 1, 2, 0] =
      [0, 0, 0, 3, 2, 1, 1, 1, 2, 0] := by decide
  have hmakes {kind : MapKind} {entries : Entries} (h : Specimens.schema.decode
      (.map kind (.scalar .u8) .bool) [0, 0, 0, 3, 2, 1, 1, 1, 2, 0] = .ok (.map kind entries)) :
      Specimens.schema.Makes kind (.scalar .u8) .bool answers entries :=
    ⟨[2, 1, 1, 1, 2, 0], rfl, by rwa [hbytes]⟩
  refine ⟨hschema, hanswers, fun kind => ?_, hmakes (by rfl), hmakes (by rfl)⟩
  have hlaw := map_law.1 Specimens.schema (.scalar .u8) .bool
  obtain ⟨entries, hmakes, -, hlast⟩ := hlaw.last_wins hschema hanswers (by decide) kind
  exact ⟨entries, hmakes, hlast⟩

end Schema
end CoreBridge.Wire
