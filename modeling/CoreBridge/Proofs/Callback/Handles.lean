import CoreBridge.Proofs.Callback.Loans

/-!
# What a handle stands for

A handle table tells instances apart by their addresses, and an address is used again for
another instance once nobody owns the one that lived there. What is in the table is owned
by the table. So no two instances that are owned share an address (`Owners.Apart`), what
the table knows of an address is never about an instance that is gone, and a handle
stands for what was inserted under it until it is removed (`handle_law`).
-/
namespace CoreBridge.Host

variable {θ : Type}

namespace HandleTable

variable {t : HandleTable θ} {i : Instance θ} {h : Nat}

/-- The table knows the handle of every instance in it. -/
def Listed (t : HandleTable θ) : Prop :=
  ∀ h i, t.byHandle.get? h = some i → t.byIdentity.get? i.address = some h

/-- What is in the table already keeps its handle. -/
theorem insert_of_mem (hl : t.Listed) (hget : t.byHandle.get? h = some i) :
    t.insert i = (h, t) := by
  simp only [insert, hl h i hget]

/-- What is not in the table gets the next handle. -/
theorem insert_of_not_mem (hv : t.Valid) (hi : t.Admits i)
    (hnew : ∀ h, t.byHandle.get? h ≠ some i) : t.insert i = (t.lastHandle + 1,
      { lastHandle := t.lastHandle + 1
        byHandle := t.byHandle.set (t.lastHandle + 1) i
        byIdentity := t.byIdentity.set i.address (t.lastHandle + 1) }) := by
  obtain ⟨h, _, hget⟩ | hinsert := insert_cases hv hi
  · exact absurd hget (hnew h)
  · exact hinsert

theorem Listed.insert (hl : t.Listed) (hv : t.Valid) (hi : t.Admits i) :
    (t.insert i).2.Listed := by
  by_cases hnew : ∀ h, t.byHandle.get? h ≠ some i
  · rw [insert_of_not_mem hv hi hnew]
    intro h j hj
    simp only [Table.get?_set] at hj ⊢
    split at hj
    · obtain rfl := Option.some.inj hj
      rw [if_pos rfl]
      congr
    · -- An instance that lives where the new one does would be the new one.
      have haddress : i.address ≠ j.address := fun heq =>
        hnew h (hi h j hj heq.symm ▸ hj)
      rw [if_neg haddress]
      exact hl h j hj
  · obtain ⟨h, hget⟩ := not_forall_not.1 hnew
    rw [insert_of_mem hl hget]
    exact hl

theorem Listed.remove (hl : t.Listed) (h : Nat) : (t.remove h).2.Listed := by
  intro h' j hj
  cases hget : t.byHandle.get? h with
  | none =>
    rw [remove_of_none hget] at hj ⊢
    exact hl h' j hj
  | some i =>
    rw [remove_of_some hget] at hj ⊢
    simp only [Table.get?_erase] at hj ⊢
    split at hj
    · cases hj
    · rename_i hne
      have haddress : i.address ≠ j.address := by
        intro heq
        have hi := hl h i hget
        rw [heq, hl h' j hj] at hi
        exact hne (Option.some.inj hi).symm
      rw [if_neg haddress]
      exact hl h' j hj

theorem get_eq_ok : t.get h = .ok i ↔ t.byHandle.get? h = some i := by
  unfold HandleTable.get
  cases t.byHandle.get? h <;> simp

theorem get_of_none (hnone : t.byHandle.get? h = none) : t.get h = .error (.unknownHandle h) := by
  simp only [HandleTable.get, hnone]

end HandleTable

/-! ## Instances and those who own them -/

/-- What an instance is, told from all others that are ever made by a number. -/
structure Made (θ : Type) where
  number : Nat
  content : θ

/-- A table, and the references to instances that are held elsewhere. -/
structure Owners (θ : Type) where
  table : HandleTable (Made θ) := {}
  held : List (Instance (Made θ)) := []
  /-- How many instances have been made. -/
  made : Nat := 0

/-- What is done to the handles of a table. -/
inductive HandleEvent (θ : Type) where
  | inserted (i : Instance (Made θ)) (handle : Nat)
  | removed (handle : Nat)

namespace HandleEvent

def isInserted : HandleEvent θ → Bool
  | inserted _ _ => true
  | removed _ => false

/-- Whether the instance has been inserted under the handle, and the handle has not been
removed since. -/
def InForce (events : List (HandleEvent θ)) (h : Nat) (i : Instance (Made θ)) : Prop :=
  ∃ before after, events = before ++ .inserted i h :: after ∧ .removed h ∉ after

/-- Whether the handle has been issued and then removed. -/
def Retired (events : List (HandleEvent θ)) (h : Nat) : Prop :=
  ∃ before after i, events = before ++ .removed h :: after ∧ .inserted i h ∈ before

variable {events : List (HandleEvent θ)} {e : HandleEvent θ} {h h' : Nat}
  {i j : Instance (Made θ)}

theorem InForce.mem (hf : InForce events h i) : .inserted i h ∈ events := by
  obtain ⟨before, after, rfl, _⟩ := hf
  simp

/-- Where a list is split that has `last` at its end: there, or before it. -/
theorem split_concat {α : Type} {l before after : List α} {last a : α}
    (heq : l ++ [last] = before ++ a :: after) :
    (before = l ∧ a = last ∧ after = []) ∨
      ∃ rest, after = rest ++ [last] ∧ l = before ++ a :: rest := by
  cases after using List.reverseRecOn with
  | nil =>
    obtain ⟨hl, hlast⟩ := List.append_inj' heq rfl
    exact .inl ⟨hl.symm, (List.singleton_inj.1 hlast).symm, rfl⟩
  | append_singleton rest b =>
    have hsplit : l ++ [last] = (before ++ a :: rest) ++ [b] := by simpa using heq
    obtain ⟨hl, hlast⟩ := List.append_inj' hsplit rfl
    rw [List.singleton_inj.1 hlast]
    exact .inr ⟨rest, rfl, hl⟩

theorem inForce_concat : InForce (events ++ [e]) h i ↔
    e = .inserted i h ∨ (InForce events h i ∧ e ≠ .removed h) := by
  constructor
  · rintro ⟨before, after, heq, hafter⟩
    obtain ⟨_, he, _⟩ | ⟨rest, rfl, hevents⟩ := split_concat heq
    · exact .inl he.symm
    · rw [List.mem_append, List.mem_singleton, not_or] at hafter
      exact .inr ⟨⟨before, rest, hevents, hafter.1⟩, Ne.symm hafter.2⟩
  · rintro (rfl | ⟨⟨before, after, rfl, hafter⟩, hne⟩)
    · exact ⟨events, [], rfl, List.not_mem_nil⟩
    · refine ⟨before, after ++ [e], by simp, ?_⟩
      simp [hafter, hne.symm]

theorem Retired.concat_cases (hr : Retired (events ++ [e]) h) :
    Retired events h ∨ (e = .removed h ∧ ∃ i, .inserted i h ∈ events) := by
  obtain ⟨before, after, i, heq, hmem⟩ := hr
  obtain ⟨rfl, he, _⟩ | ⟨rest, _, hevents⟩ := split_concat heq
  · exact .inr ⟨he.symm, i, hmem⟩
  · exact .inl ⟨before, rest, i, hevents, hmem⟩

/-- An insertion removes nothing. -/
theorem Retired.of_inserted (hr : Retired (events ++ [.inserted i h']) h) : Retired events h := by
  obtain hr | ⟨heq, _⟩ := hr.concat_cases
  · exact hr
  · cases heq

@[simp] theorem countP_inserted (events : List (HandleEvent θ)) (i : Instance (Made θ)) (h : Nat) :
    (events ++ [inserted i h]).countP isInserted = events.countP isInserted + 1 := by
  simp [isInserted]

theorem Retired.exists_inserted (hr : Retired events h) : ∃ i, .inserted i h ∈ events := by
  obtain ⟨before, after, i, rfl, hmem⟩ := hr
  exact ⟨i, List.mem_append_left _ hmem⟩

end HandleEvent

namespace Owners

open HandleEvent HandleTable

/-- Whether the instance is held, or in the table. -/
def Owns (w : Owners θ) (i : Instance (Made θ)) : Prop :=
  i ∈ w.held ∨ ∃ h, w.table.byHandle.get? h = some i

/-- Whether nothing that is owned lives at the address. -/
def Vacant (w : Owners θ) (address : Nat) : Prop := ∀ i, w.Owns i → i.address ≠ address

/-- What is owned and lives at one address is one instance. -/
def Apart (w : Owners θ) : Prop :=
  ∀ i j, w.Owns i → w.Owns j → i.address = j.address → i = j

/-- The runs of a table and those who hold instances, with what they do to the handles.
An instance is made where nothing lives that is owned; a reference to it may be shared,
dropped, moved into the table, and got or taken back from there. -/
inductive Comes : List (HandleEvent θ) → Owners θ → Prop
  | start : Comes [] {}
  | make {events : List (HandleEvent θ)} {w : Owners θ} {address : Nat} {content : θ} :
    Comes events w → w.Vacant address →
    Comes events { w with held := ⟨address, ⟨w.made, content⟩⟩ :: w.held, made := w.made + 1 }
  | share {events : List (HandleEvent θ)} {w : Owners θ} {i : Instance (Made θ)} :
    Comes events w → i ∈ w.held → Comes events { w with held := i :: w.held }
  | drop {events : List (HandleEvent θ)} {w : Owners θ} {i : Instance (Made θ)}
    {rest : List (Instance (Made θ))} :
    Comes events w → w.held.Perm (i :: rest) → Comes events { w with held := rest }
  | insert {events : List (HandleEvent θ)} {w : Owners θ} {i : Instance (Made θ)}
    {rest : List (Instance (Made θ))} :
    Comes events w → w.held.Perm (i :: rest) →
    Comes (events ++ [.inserted i (w.table.insert i).1])
      { w with table := (w.table.insert i).2, held := rest }
  | get {events : List (HandleEvent θ)} {w : Owners θ} {h : Nat} {i : Instance (Made θ)} :
    Comes events w → w.table.get h = .ok i → Comes events { w with held := i :: w.held }
  | remove {events : List (HandleEvent θ)} {w : Owners θ} {h : Nat} :
    Comes events w →
    Comes (events ++ [.removed h])
      { w with table := (w.table.remove h).2, held := (w.table.remove h).1.toList ++ w.held }

/-- What holds in every run. -/
structure Invariant (events : List (HandleEvent θ)) (w : Owners θ) : Prop where
  valid : w.table.Valid
  listed : w.table.Listed
  apart : w.Apart
  issued : ∀ i h, .inserted i h ∈ events → 1 ≤ h ∧ h ≤ w.table.lastHandle
  bounded : w.table.lastHandle ≤ events.countP HandleEvent.isInserted
  stands : ∀ h i, w.table.byHandle.get? h = some i ↔ InForce events h i
  retired : ∀ h, Retired events h → w.table.byHandle.get? h = none

variable {events : List (HandleEvent θ)} {w v : Owners θ} {i : Instance (Made θ)} {h : Nat}

theorem Apart.mono (ha : w.Apart) (howns : ∀ j, v.Owns j → w.Owns j) : v.Apart :=
  fun i j hi hj => ha i j (howns i hi) (howns j hj)

theorem Apart.admits (ha : w.Apart) (hi : w.Owns i) : w.table.Admits i :=
  fun h j hj haddress => ha j i (.inr ⟨h, hj⟩) hi haddress

/-- What only bears on who holds an instance keeps all that is said of the table. -/
theorem Invariant.hold (hw : w.Invariant events) {held : List (Instance (Made θ))} {made : Nat}
    (ha : Apart { w with held, made }) : Invariant events { w with held, made } :=
  ⟨hw.valid, hw.listed, ha, hw.issued, hw.bounded, hw.stands, hw.retired⟩

/-- What an owner hands over, or keeps, it has owned. -/
theorem owns_of_perm {rest : List (Instance (Made θ))} (hperm : w.held.Perm (i :: rest)) :
    w.Owns i ∧ ∀ j ∈ rest, w.Owns j :=
  ⟨.inl (hperm.mem_iff.2 List.mem_cons_self),
    fun _ hj => .inl (hperm.mem_iff.2 (List.mem_cons_of_mem i hj))⟩

/-- Inserting an instance that is in the table already. -/
theorem Invariant.insert_again (hw : w.Invariant events) {rest : List (Instance (Made θ))}
    (hperm : w.held.Perm (i :: rest)) (hget : w.table.byHandle.get? h = some i) :
    Invariant (events ++ [.inserted i h]) { w with held := rest } where
  valid := hw.valid
  listed := hw.listed
  apart := by
    refine hw.apart.mono ?_
    rintro j (hj | hj)
    · exact (owns_of_perm hperm).2 j hj
    · exact .inr hj
  issued := by
    intro j h' hmem
    obtain hold | hlast := List.mem_append.1 hmem
    · exact hw.issued j h' hold
    · cases List.mem_singleton.1 hlast
      exact hw.issued i h ((hw.stands h i).1 hget).mem
  bounded := by
    rw [countP_inserted]
    exact Nat.le_succ_of_le hw.bounded
  stands := by
    intro h' j
    rw [inForce_concat, ← hw.stands h' j]
    constructor
    · exact fun hj => .inr ⟨hj, fun heq => by cases heq⟩
    · rintro (heq | ⟨hj, _⟩)
      · cases heq
        exact hget
      · exact hj
  retired h' hr := hw.retired h' hr.of_inserted

/-- Inserting an instance that is not in the table. -/
theorem Invariant.insert_new (hw : w.Invariant events) {rest : List (Instance (Made θ))}
    (hperm : w.held.Perm (i :: rest)) (hnew : ∀ h, w.table.byHandle.get? h ≠ some i) :
    Invariant (events ++ [.inserted i (w.table.insert i).1])
      { w with table := (w.table.insert i).2, held := rest } := by
  obtain ⟨hi, hrest⟩ := owns_of_perm hperm
  have hadmits := hw.apart.admits hi
  have hvalid := hw.valid.insert hadmits
  have hlisted := hw.listed.insert hw.valid hadmits
  rw [insert_of_not_mem hw.valid hadmits hnew] at hvalid hlisted ⊢
  refine ⟨hvalid, hlisted, hw.apart.mono ?_, ?_, ?_, ?_, ?_⟩
  · rintro j (hj | ⟨h, hj⟩)
    · exact hrest j hj
    · rw [Table.get?_set] at hj
      split at hj
      · exact Option.some.inj hj ▸ hi
      · exact .inr ⟨h, hj⟩
  · intro j h hmem
    obtain hold | hlast := List.mem_append.1 hmem
    · obtain ⟨hpositive, hle⟩ := hw.issued j h hold
      exact ⟨hpositive, Nat.le_succ_of_le hle⟩
    · cases List.mem_singleton.1 hlast
      exact ⟨Nat.succ_pos _, le_rfl⟩
  · rw [countP_inserted]
    exact Nat.succ_le_succ hw.bounded
  · intro h j
    rw [inForce_concat, Table.get?_set]
    split
    · rename_i hh
      have hfresh : ¬ InForce events h j := fun hf => by
        have := (hw.issued j h hf.mem).2
        omega
      simp [hh, hfresh]
    · rename_i hh
      simp [hw.stands h j, hh]
  · intro h hr
    obtain ⟨j, hmem⟩ := hr.of_inserted.exists_inserted
    have hle := (hw.issued j h hmem).2
    rw [Table.get?_set, if_neg (by omega)]
    exact hw.retired h hr.of_inserted

theorem Invariant.insert (hw : w.Invariant events) {rest : List (Instance (Made θ))}
    (hperm : w.held.Perm (i :: rest)) :
    Invariant (events ++ [.inserted i (w.table.insert i).1])
      { w with table := (w.table.insert i).2, held := rest } := by
  by_cases hnew : ∀ h, w.table.byHandle.get? h ≠ some i
  · exact hw.insert_new hperm hnew
  · obtain ⟨h, hget⟩ := not_forall_not.1 hnew
    rw [insert_of_mem hw.listed hget]
    exact hw.insert_again hperm hget

theorem Invariant.remove (hw : w.Invariant events) (h : Nat) :
    Invariant (events ++ [.removed h])
      { w with table := (w.table.remove h).2, held := (w.table.remove h).1.toList ++ w.held } where
  valid := hw.valid.remove h
  listed := hw.listed.remove h
  apart := by
    refine hw.apart.mono ?_
    rintro j (hj | ⟨h', hj⟩)
    · obtain hback | hheld := List.mem_append.1 hj
      · cases hget : w.table.byHandle.get? h with
        | none => simp [HandleTable.remove_of_none hget] at hback
        | some i =>
          obtain rfl : j = i := by simpa [HandleTable.remove_of_some hget] using hback
          exact .inr ⟨h, hget⟩
      · exact .inl hheld
    · rw [HandleTable.get?_remove] at hj
      split at hj
      · cases hj
      · exact .inr ⟨h', hj⟩
  issued := by
    intro j h' hmem
    rw [HandleTable.lastHandle_remove]
    exact hw.issued j h' (by simpa using hmem)
  bounded := by
    rw [HandleTable.lastHandle_remove]
    simpa [HandleEvent.isInserted] using hw.bounded
  stands := by
    intro h' j
    rw [HandleTable.get?_remove, inForce_concat, ← hw.stands h' j]
    by_cases hh : h = h' <;> simp [hh]
  retired := by
    intro h' hr
    rw [HandleTable.get?_remove]
    split
    · rfl
    · rename_i hne
      obtain hr | ⟨heq, _⟩ := hr.concat_cases
      · exact hw.retired h' hr
      · cases heq
        exact absurd rfl hne

theorem invariant_start : Invariant [] ({} : Owners θ) where
  valid := valid_empty
  listed _ _ hget := by cases hget
  apart i _ hi := by
    obtain hheld | ⟨_, hget⟩ := hi
    · cases hheld
    · cases hget
  issued _ _ hmem := by cases hmem
  bounded := le_rfl
  stands h i := by
    constructor
    · intro hget
      cases hget
    · intro hf
      cases hf.mem
  retired h hr := by
    obtain ⟨_, hmem⟩ := hr.exists_inserted
    cases hmem

/-- The new instance lives where nothing else does that is owned. -/
theorem Apart.make (ha : w.Apart) (hvacant : w.Vacant i.address) (made : Nat) :
    Apart { w with held := i :: w.held, made } := by
  have howns (j : Instance (Made θ)) (hj : Owns { w with held := i :: w.held, made } j) :
      j = i ∨ w.Owns j := by
    obtain hheld | hget := hj
    · exact (List.mem_cons.1 hheld).imp id .inl
    · exact .inr (.inr hget)
  intro j k hj hk haddress
  obtain rfl | hold := howns j hj
  · obtain rfl | hother := howns k hk
    · rfl
    · exact absurd haddress.symm (hvacant k hother)
  · obtain rfl | hother := howns k hk
    · exact absurd haddress (hvacant j hold)
    · exact ha j k hold hother haddress

/-- Holding one more reference to what is owned, nothing else is owned. -/
theorem Apart.cons (ha : w.Apart) (hi : w.Owns i) : Apart { w with held := i :: w.held } := by
  refine ha.mono ?_
  rintro j (hheld | hget)
  · obtain rfl | hheld := List.mem_cons.1 hheld
    · exact hi
    · exact .inl hheld
  · exact .inr hget

theorem Comes.invariant (hc : Comes events w) : w.Invariant events := by
  induction hc with
  | start => exact invariant_start
  | make _ hvacant ih => exact ih.hold (ih.apart.make hvacant _)
  | share _ hi ih => exact ih.hold (ih.apart.cons (.inl hi))
  | drop _ hperm ih =>
    refine ih.hold (ih.apart.mono ?_)
    rintro j (hheld | hget)
    · exact (owns_of_perm hperm).2 j hheld
    · exact .inr hget
  | insert _ hperm ih => exact ih.insert hperm
  | get _ hget ih => exact ih.hold (ih.apart.cons (.inr ⟨_, get_eq_ok.1 hget⟩))
  | remove _ ih => exact ih.remove _

/-- What is said of a table and its handles when these are the events so far. -/
structure HandleLaw (events : List (HandleEvent θ)) (w : Owners θ) : Prop where
  /-- The two directions are inverse to each other. -/
  listed : ∀ h i, w.table.byHandle.get? h = some i → w.table.byIdentity.get? i.address = some h
  known : ∀ a h, w.table.byIdentity.get? a = some h →
    ∃ i, w.table.byHandle.get? h = some i ∧ i.address = a
  issued : ∀ i h, .inserted i h ∈ events → 1 ≤ h ∧ h ≤ w.table.lastHandle
  /-- No more handles are issued than insertions are made. -/
  bounded : w.table.lastHandle ≤ events.countP HandleEvent.isInserted
  /-- What is in the table already keeps its handle, and the table stays as it is. -/
  again : ∀ h i, w.table.byHandle.get? h = some i → w.table.insert i = (h, w.table)
  /-- What is not gets a handle above all that have been issued. -/
  fresh : ∀ i ∈ w.held, (∀ h, w.table.byHandle.get? h ≠ some i) →
    ∀ j h, .inserted j h ∈ events → h < (w.table.insert i).1
  resolves : ∀ h i, w.table.get h = .ok i ↔ InForce events h i
  unknown : ∀ h, (¬ ∃ i, InForce events h i) → w.table.get h = .error (.unknownHandle h)
  retired : ∀ h, Retired events h → w.table.get h = .error (.unknownHandle h)
  absent : ∀ h, w.table.contains h = false → w.table.remove h = (none, w.table)

/-- In every run, a handle table has for each handle the instance that was inserted under
it last, until the handle is removed; then the handle is unknown for good. -/
theorem handle_law (hc : Comes events w) : w.HandleLaw events := by
  have hw := hc.invariant
  refine ⟨hw.listed, hw.valid.known, hw.issued, hw.bounded, ?_, ?_, ?_, ?_, ?_, ?_⟩
  · intro h i hget
    exact insert_of_mem hw.listed hget
  · intro i hheld hnew j h hmem
    rw [insert_of_not_mem hw.valid (hw.apart.admits (.inl hheld)) hnew]
    have hle := (hw.issued j h hmem).2
    show h < w.table.lastHandle + 1
    omega
  · intro h i
    rw [get_eq_ok, hw.stands]
  · intro h hnone
    apply get_of_none
    cases hget : w.table.byHandle.get? h with
    | none => rfl
    | some i => exact absurd ⟨i, (hw.stands h i).1 hget⟩ hnone
  · exact fun h hr => get_of_none (hw.retired h hr)
  · intro h hcontains
    apply remove_of_none
    simpa [HandleTable.contains, Table.contains] using hcontains

/-- An instance that lives where one did that has been removed and dropped gets a handle
of its own, and the handle of the other stays unknown. -/
theorem handle_law_reused :
    let first : Instance (Made Unit) := ⟨16, ⟨0, ()⟩⟩
    let second : Instance (Made Unit) := ⟨16, ⟨1, ()⟩⟩
    let table := ((({} : HandleTable (Made Unit)).insert first).2.remove 1).2
    let events := [.inserted first 1, .removed 1]
    Comes events { table, held := [second], made := 2 } ∧ 1 < (table.insert second).1 ∧
      table.get 1 = .error (.unknownHandle 1) := by
  intro first second table events
  have hfirst : Comes [.inserted first 1]
      { table := (({} : HandleTable (Made Unit)).insert first).2, held := [], made := 1 } :=
    .insert (.make .start fun i hi => by simp [Owns, Table.get?, Table.lookup] at hi) (.refl _)
  have hdropped : Comes events { table, held := [], made := 1 } :=
    .drop (.remove (h := 1) hfirst) (.refl _)
  have hvacant : Vacant { table, held := [], made := 1 } 16 := by
    rintro i (hheld | ⟨h, hget⟩)
    · cases hheld
    · cases hget
  have hcomes : Comes events { table, held := [second], made := 2 } := .make hdropped hvacant
  have hlaw := handle_law hcomes
  refine ⟨hcomes, ?_, ?_⟩
  · apply hlaw.fresh second List.mem_cons_self (fun h hget => by cases hget) first 1
    simp [events]
  · exact hlaw.retired 1 ⟨[.inserted first 1], [], first, rfl, by simp⟩

end Owners
end CoreBridge.Host
