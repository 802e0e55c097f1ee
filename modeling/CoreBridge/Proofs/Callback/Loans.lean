import CoreBridge.Proofs.Callback.Dispatch

/-!
# Handles on loan

Lowering an object lends its handle to the core, which makes a proxy of it; the
proxy gives the handle back when it is dropped. The table counts no loans: an
object that is lowered again while it is in the table is lent under the same
handle, and the first of its proxies that is dropped takes the handle back from
all of them. So the handle of a proxy resolves, and then to the very object
that it was lowered from, exactly as long as no proxy with that handle has been
dropped (`resolves_iff_not_released`).
-/
namespace CoreBridge.Host

namespace HandleTable

variable {θ : Type}

/-- The two directions of a table agree, and no handle to be issued is in it. -/
structure Valid (t : HandleTable θ) : Prop where
  issued : ∀ h i, t.byHandle.get? h = some i → h ≤ t.lastHandle
  known : ∀ a h, t.byIdentity.get? a = some h → ∃ i, t.byHandle.get? h = some i ∧ i.address = a

/-- The address of the instance is not that of another one in the table: as long
as the table keeps an object, nothing else lives where it does. -/
def Admits (t : HandleTable θ) (i : Instance θ) : Prop :=
  ∀ h j, t.byHandle.get? h = some j → j.address = i.address → j = i

variable {t : HandleTable θ} {i : Instance θ}

theorem admits_of_entries (h : ∀ e ∈ t.byHandle.entries, e.2.address = i.address → e.2 = i) :
    t.Admits i := fun _ _ hget => h _ (Table.mem_entries_of_get? hget)

theorem valid_empty : ({} : HandleTable θ).Valid where
  issued _ _ h := nomatch h
  known _ _ h := nomatch h

/-- An instance is inserted under the handle that it has, or under the next one. -/
theorem insert_cases (hv : t.Valid) (hi : t.Admits i) :
    (∃ h, t.insert i = (h, t) ∧ t.byHandle.get? h = some i) ∨
      t.insert i = (t.lastHandle + 1,
        { lastHandle := t.lastHandle + 1
          byHandle := t.byHandle.set (t.lastHandle + 1) i
          byIdentity := t.byIdentity.set i.address (t.lastHandle + 1) }) := by
  unfold insert
  cases hknown : t.byIdentity.get? i.address with
  | none => exact .inr rfl
  | some h =>
    obtain ⟨j, hj, haddress⟩ := hv.known _ _ hknown
    obtain rfl := hi h j hj haddress
    exact .inl ⟨h, rfl, hj⟩

theorem Valid.insert (hv : t.Valid) (hi : t.Admits i) : (t.insert i).2.Valid := by
  obtain ⟨h, hinsert, _⟩ | hinsert := insert_cases hv hi
  · rw [hinsert]
    exact hv
  · rw [hinsert]
    constructor
    · intro h j hj
      simp only [Table.get?_set] at hj
      split at hj
      · exact ge_of_eq (by assumption)
      · exact Nat.le_succ_of_le (hv.issued h j hj)
    · intro a h hh
      simp only [Table.get?_set] at hh ⊢
      split at hh
      · obtain rfl := Option.some.inj hh
        exact ⟨i, if_pos rfl, by assumption⟩
      · obtain ⟨j, hj, haddress⟩ := hv.known a h hh
        have hne : t.lastHandle + 1 ≠ h := Nat.ne_of_gt (Nat.lt_succ_of_le (hv.issued h j hj))
        exact ⟨j, by rw [if_neg hne]; exact hj, haddress⟩

/-- What inserting an instance does to the handles: its own stands for it, and was
in the table already or is a new one, and those issued before stand for what
they did. -/
theorem insert_spec (hv : t.Valid) (hi : t.Admits i) :
    (t.insert i).2.byHandle.get? (t.insert i).1 = some i ∧
      (t.byHandle.get? (t.insert i).1 = some i ∨ t.lastHandle < (t.insert i).1) ∧
      (∀ h ≤ t.lastHandle, (t.insert i).2.byHandle.get? h = t.byHandle.get? h) ∧
      t.lastHandle ≤ (t.insert i).2.lastHandle := by
  obtain ⟨h, hinsert, hget⟩ | hinsert := insert_cases hv hi
  · rw [hinsert]
    exact ⟨hget, .inl hget, fun _ _ => rfl, le_rfl⟩
  · rw [hinsert]
    refine ⟨by simp, .inr (Nat.lt_succ_self _), ?_, Nat.le_succ _⟩
    intro h hh
    rw [Table.get?_set, if_neg (Nat.ne_of_gt (Nat.lt_succ_of_le hh))]

theorem remove_of_none {h : Nat} (hget : t.byHandle.get? h = none) : t.remove h = (none, t) := by
  simp only [remove, hget]

theorem remove_of_some {h : Nat} (hget : t.byHandle.get? h = some i) :
    t.remove h = (some i, { t with
      byHandle := t.byHandle.erase h
      byIdentity := t.byIdentity.erase i.address }) := by
  simp only [remove, hget]

@[simp] theorem lastHandle_remove (t : HandleTable θ) (h : Nat) :
    (t.remove h).2.lastHandle = t.lastHandle := by
  cases hget : t.byHandle.get? h with
  | none => rw [remove_of_none hget]
  | some i => rw [remove_of_some hget]

@[simp] theorem get?_remove (t : HandleTable θ) (h h' : Nat) :
    (t.remove h).2.byHandle.get? h' = if h = h' then none else t.byHandle.get? h' := by
  cases hget : t.byHandle.get? h with
  | some i => rw [remove_of_some hget, Table.get?_erase]
  | none =>
    rw [remove_of_none hget]
    by_cases hh : h = h'
    · rw [if_pos hh, ← hh]
      exact hget
    · rw [if_neg hh]

/-- What the table knows of an address after a removal, it knew before, and it
is another handle that it knows. -/
theorem Valid.known_of_remove (hv : t.Valid) {h a h' : Nat}
    (hh : (t.remove h).2.byIdentity.get? a = some h') :
    t.byIdentity.get? a = some h' ∧ h ≠ h' := by
  cases hget : t.byHandle.get? h with
  | none =>
    rw [remove_of_none hget] at hh
    refine ⟨hh, ?_⟩
    rintro rfl
    obtain ⟨j, hj, _⟩ := hv.known a h hh
    exact nomatch hget.symm.trans hj
  | some i =>
    rw [remove_of_some hget, Table.get?_erase] at hh
    split at hh
    · exact nomatch hh
    · rename_i hne
      refine ⟨hh, ?_⟩
      rintro rfl
      obtain ⟨j, hj, haddress⟩ := hv.known a h hh
      obtain rfl := Option.some.inj (hget.symm.trans hj)
      exact hne haddress

theorem Valid.remove (hv : t.Valid) (h : Nat) : (t.remove h).2.Valid := by
  constructor
  · intro h' j hj
    rw [get?_remove] at hj
    split at hj
    · exact nomatch hj
    · rw [lastHandle_remove]
      exact hv.issued h' j hj
  · intro a h' hh
    obtain ⟨hbefore, hne⟩ := hv.known_of_remove hh
    obtain ⟨j, hj, haddress⟩ := hv.known a h' hbefore
    exact ⟨j, by rw [get?_remove, if_neg hne]; exact hj, haddress⟩

end HandleTable

/-- What became of a handle that an object was lowered to. -/
inductive LoanState where
  | lowered
  /-- The core has made a proxy of it. -/
  | held
  | dropped
deriving DecidableEq, Repr

/-- One lowering of an object. -/
structure Loan (θ : Type) where
  target : Instance θ
  handle : Nat
  state : LoanState := .lowered
deriving DecidableEq

/-- A host and its core, with the loans made so far. -/
structure Lending (σ θ η : Type) where
  exchange : Exchange σ θ η
  loans : List (Loan θ) := []

namespace Lending

variable {σ θ η : Type} (core : Core.EntryPoints σ) (contract : Contract θ η)

def table (w : Lending σ θ η) : HandleTable θ := w.exchange.slot.table

/-- Lowers an object. -/
def lower (w : Lending σ θ η) (i : Instance θ) : Lending σ θ η :=
  let (handle, exchange) := (CallbackM.lower i).run w.exchange
  { exchange, loans := w.loans ++ [{ target := i, handle }] }

def setState (w : Lending σ θ η) (n : Nat) (state : LoanState) : Lending σ θ η :=
  { w with loans := w.loans.modify n fun loan => { loan with state } }

/-- The proxy that the core makes of a loan. -/
def proxy (loan : Loan θ) : Core.Proxy := { dispatch := contract.name, handle := loan.handle }

/-- Invokes a method through the proxy of a loan. -/
def invoke (w : Lending σ θ η) (loan : Loan θ) (method : Nat) (args : Bytes) :
    Except Core.ProxyError Bytes × Exchange σ θ η :=
  ((proxy contract loan).invoke (CallbackM.dispatcher core contract) method args).run w.exchange

/-- Drops the proxy of a loan. -/
def drop (w : Lending σ θ η) (n : Nat) (loan : Loan θ) : Lending σ θ η :=
  let (_, exchange) :=
    ((proxy contract loan).drop (CallbackM.dispatcher core contract)).run w.exchange
  { w with exchange }.setState n .dropped

/-- The runs of a host and its core: objects are lowered, the core makes one
proxy of each loan, invokes methods through proxies and drops them. What a
method does to the table is again such a run, that of the loans made and the
proxies dropped while the method runs. -/
inductive Leads : Lending σ θ η → Lending σ θ η → Prop
  | refl (w : Lending σ θ η) : Leads w w
  | lower {w v : Lending σ θ η} {i : Instance θ} :
    Leads w v → v.table.Admits i → Leads w (v.lower i)
  | hold {w v : Lending σ θ η} {n : Nat} {loan : Loan θ} :
    Leads w v → v.loans[n]? = some loan → loan.state = .lowered → Leads w (v.setState n .held)
  | invoke {w v u : Lending σ θ η} {loan : Loan θ} {method : Nat} {args : Bytes} :
    Leads w v → loan ∈ v.loans → loan.state = .held → Leads v u →
    (v.invoke core contract loan method args).2.slot.table = u.table →
    Leads w { u with exchange := (v.invoke core contract loan method args).2 }
  | drop {w v : Lending σ θ η} {n : Nat} {loan : Loan θ} :
    Leads w v → v.loans[n]? = some loan → loan.state = .held →
    Leads w (v.drop core contract n loan)

/-- Whether a proxy with the handle has been dropped. -/
def IsReleased (w : Lending σ θ η) (handle : Nat) : Prop :=
  ∃ loan ∈ w.loans, loan.handle = handle ∧ loan.state = .dropped

/-- What holds in every run. -/
structure Consistent (w : Lending σ θ η) : Prop where
  valid : w.table.Valid
  issued : ∀ loan ∈ w.loans, loan.handle ≤ w.table.lastHandle
  released : ∀ loan ∈ w.loans, w.IsReleased loan.handle →
    w.table.byHandle.get? loan.handle = none
  resolves : ∀ loan ∈ w.loans, ¬ w.IsReleased loan.handle →
    w.table.byHandle.get? loan.handle = some loan.target

variable {core contract} {w v : Lending σ θ η} {i : Instance θ} {n handle : Nat} {loan : Loan θ}

theorem getElem?_setState (w : Lending σ θ η) (n : Nat) (state : LoanState) (k : Nat) :
    (w.setState n state).loans[k]? =
      if n = k then w.loans[k]?.map fun loan => { loan with state } else w.loans[k]? := by
  simp only [setState, List.getElem?_modify]
  split <;> simp

theorem mem_setState {state : LoanState} (h : loan ∈ (w.setState n state).loans) :
    ∃ before ∈ w.loans, loan.target = before.target ∧ loan.handle = before.handle := by
  obtain ⟨k, hk⟩ := List.mem_iff_getElem?.1 h
  rw [getElem?_setState] at hk
  split at hk
  · obtain ⟨before, hbefore, rfl⟩ := Option.map_eq_some_iff.1 hk
    exact ⟨before, List.mem_of_getElem? hbefore, rfl, rfl⟩
  · exact ⟨loan, List.mem_of_getElem? hk, rfl, rfl⟩

/-- A loan that was not dropped changes nothing about the others by its new state. -/
theorem isReleased_setState (hn : w.loans[n]? = some loan) (hloan : loan.state ≠ .dropped)
    (state : LoanState) :
    (w.setState n state).IsReleased handle ↔
      (state = .dropped ∧ loan.handle = handle) ∨ w.IsReleased handle := by
  constructor
  · rintro ⟨l, hl, hhandle, hdropped⟩
    obtain ⟨k, hk⟩ := List.mem_iff_getElem?.1 hl
    rw [getElem?_setState] at hk
    split at hk
    · subst k
      rw [hn] at hk
      obtain rfl := Option.some.inj hk
      exact .inl ⟨hdropped, hhandle⟩
    · exact .inr ⟨l, List.mem_of_getElem? hk, hhandle, hdropped⟩
  · rintro (⟨rfl, hhandle⟩ | ⟨l, hl, hhandle, hdropped⟩)
    · have hn' : (w.setState n .dropped).loans[n]? = some { loan with state := .dropped } := by
        rw [getElem?_setState, if_pos rfl, hn]
        rfl
      exact ⟨_, List.mem_of_getElem? hn', hhandle, rfl⟩
    · obtain ⟨k, hk⟩ := List.mem_iff_getElem?.1 hl
      have hne : n ≠ k := by
        rintro rfl
        obtain rfl := Option.some.inj (hn.symm.trans hk)
        exact hloan hdropped
      have hk' : (w.setState n state).loans[k]? = some l := by
        rw [getElem?_setState, if_neg hne, hk]
      exact ⟨l, List.mem_of_getElem? hk', hhandle, hdropped⟩

/-! ## One step -/

theorem consistent_start (htable : w.table = {}) (hloans : w.loans = []) : w.Consistent where
  valid := htable ▸ HandleTable.valid_empty
  issued loan hloan := by simp [hloans] at hloan
  released loan hloan := by simp [hloans] at hloan
  resolves loan hloan := by simp [hloans] at hloan

/-- Only the table and the loans matter. -/
theorem Consistent.congr (h : w.Consistent) (htable : v.table = w.table)
    (hloans : v.loans = w.loans) : v.Consistent := by
  have hreleased (handle : Nat) : v.IsReleased handle ↔ w.IsReleased handle := by
    rw [IsReleased, IsReleased, hloans]
  constructor
  · rw [htable]
    exact h.valid
  · rw [htable, hloans]
    exact h.issued
  · rw [htable, hloans]
    intro loan hloan hrel
    exact h.released loan hloan ((hreleased _).1 hrel)
  · rw [htable, hloans]
    intro loan hloan hrel
    exact h.resolves loan hloan fun hw => hrel ((hreleased _).2 hw)

theorem isReleased_lower (w : Lending σ θ η) (i : Instance θ) :
    (w.lower i).IsReleased handle ↔ w.IsReleased handle := by
  constructor
  · rintro ⟨l, hl, hhandle, hdropped⟩
    obtain hl | hl := List.mem_append.1 hl
    · exact ⟨l, hl, hhandle, hdropped⟩
    · obtain rfl := List.mem_singleton.1 hl
      exact nomatch hdropped
  · rintro ⟨l, hl, hhandle, hdropped⟩
    exact ⟨l, List.mem_append_left _ hl, hhandle, hdropped⟩

theorem Consistent.lower (h : w.Consistent) (hi : w.table.Admits i) : (w.lower i).Consistent := by
  have hvalid : (w.lower i).table.Valid := h.valid.insert hi
  obtain ⟨hnew, hknown, hbefore, hlast⟩ := HandleTable.insert_spec h.valid hi
  have hmem {l : Loan θ} (hl : l ∈ (w.lower i).loans) :
      l ∈ w.loans ∨ l = { target := i, handle := (w.table.insert i).1 } := by
    obtain hl | hl := List.mem_append.1 hl
    · exact .inl hl
    · exact .inr (List.mem_singleton.1 hl)
  constructor
  · exact hvalid
  · intro l hl
    obtain hl | rfl := hmem hl
    · exact (h.issued l hl).trans hlast
    · exact hvalid.issued _ i hnew
  · intro l hl hrel
    rw [isReleased_lower] at hrel
    obtain hl | rfl := hmem hl
    · exact (hbefore _ (h.issued l hl)).trans (h.released l hl hrel)
    · -- No loan of a handle in the table was dropped, and none of a new handle was made.
      obtain ⟨other, hother, hhandle, _⟩ := id hrel
      have hsame : other.handle = (w.table.insert i).1 := hhandle
      rw [← hsame] at hknown
      rw [← hhandle] at hrel
      obtain hknown | hfresh := hknown
      · exact nomatch (h.released other hother hrel).symm.trans hknown
      · exact absurd (h.issued other hother) (Nat.not_le_of_gt hfresh)
  · intro l hl hrel
    rw [isReleased_lower] at hrel
    obtain hl | rfl := hmem hl
    · exact (hbefore _ (h.issued l hl)).trans (h.resolves l hl hrel)
    · exact hnew

theorem Consistent.hold (h : w.Consistent) (hn : w.loans[n]? = some loan)
    (hloan : loan.state = .lowered) : (w.setState n .held).Consistent := by
  have hne : loan.state ≠ .dropped := by simp [hloan]
  have hrel (handle : Nat) : (w.setState n .held).IsReleased handle ↔ w.IsReleased handle := by
    simp [isReleased_setState hn hne]
  constructor
  · exact h.valid
  · intro l hl
    obtain ⟨before, hbefore, _, hhandle⟩ := mem_setState hl
    exact hhandle ▸ h.issued before hbefore
  · intro l hl hreleased
    obtain ⟨before, hbefore, _, hhandle⟩ := mem_setState hl
    rw [hhandle] at hreleased ⊢
    exact h.released before hbefore ((hrel _).1 hreleased)
  · intro l hl hreleased
    obtain ⟨before, hbefore, htarget, hhandle⟩ := mem_setState hl
    rw [hhandle] at hreleased ⊢
    rw [htarget]
    exact h.resolves before hbefore fun hw => hreleased ((hrel _).2 hw)

/-- Dropping a proxy takes its handle out of the table. -/
theorem table_drop (w : Lending σ θ η) (n : Nat) (loan : Loan θ) :
    (w.drop core contract n loan).table = (w.table.remove loan.handle).2 := by
  obtain ⟨session, hrun⟩ := CallbackM.drop_run core contract w.exchange (proxy contract loan)
  have htable : (w.drop core contract n loan).table =
      (((proxy contract loan).drop (CallbackM.dispatcher core contract)).run
        w.exchange).2.slot.table := rfl
  rw [htable, hrun]
  rfl

theorem Consistent.drop (h : w.Consistent) (hn : w.loans[n]? = some loan)
    (hloan : loan.state = .held) : (w.drop core contract n loan).Consistent := by
  have hne : loan.state ≠ .dropped := by simp [hloan]
  have hrel (handle : Nat) : (w.drop core contract n loan).IsReleased handle ↔
      loan.handle = handle ∨ w.IsReleased handle := by
    have hset : (w.setState n .dropped).IsReleased handle ↔
        (LoanState.dropped = .dropped ∧ loan.handle = handle) ∨ w.IsReleased handle :=
      isReleased_setState hn hne .dropped
    exact hset.trans (by simp)
  have htable : (w.drop core contract n loan).table = (w.table.remove loan.handle).2 :=
    table_drop w n loan
  constructor
  · rw [htable]
    exact h.valid.remove loan.handle
  · intro l hl
    obtain ⟨before, hbefore, _, hhandle⟩ := mem_setState hl
    rw [htable, hhandle, HandleTable.lastHandle_remove]
    exact h.issued before hbefore
  · intro l hl hreleased
    obtain ⟨before, hbefore, _, hhandle⟩ := mem_setState hl
    rw [hhandle] at hreleased ⊢
    rw [htable, HandleTable.get?_remove]
    obtain hsame | hw := (hrel _).1 hreleased
    · rw [if_pos hsame]
    · rw [h.released before hbefore hw, ite_self]
  · intro l hl hreleased
    obtain ⟨before, hbefore, htarget, hhandle⟩ := mem_setState hl
    rw [hhandle] at hreleased ⊢
    obtain ⟨hother, hw⟩ := not_or.1 fun hor => hreleased ((hrel _).2 hor)
    rw [htable, HandleTable.get?_remove, if_neg hother, htarget]
    exact h.resolves before hbefore hw

/-! ## Whole runs -/

theorem Leads.consistent (h : Leads core contract w v) (hw : w.Consistent) : v.Consistent := by
  induction h with
  | refl w => exact hw
  | lower _ hi ih => exact (ih hw).lower hi
  | hold _ hn hloan ih => exact (ih hw).hold hn hloan
  | invoke _ _ _ _ htable ih ihmethod => exact (ihmethod (ih hw)).congr htable rfl
  | drop _ hn hloan ih => exact (ih hw).drop hn hloan

/-- In every run, the handle of a proxy stands for the very object that it was
lowered from, and methods invoked through it run on that object, exactly as
long as no proxy with that handle has been dropped; afterwards the handle is
unknown, no method runs and an invocation fails. -/
theorem resolves_iff_not_released {start w : Lending σ θ η} (htable : start.table = {})
    (hloans : start.loans = []) (h : Leads core contract start w) (hloan : loan ∈ w.loans) :
    (w.table.get loan.handle = .ok loan.target ↔ ¬ w.IsReleased loan.handle) ∧
      (¬ w.IsReleased loan.handle → ∀ (method : Nat) (args : Bytes),
        (CallbackM.invoke contract loan.handle method (some args) args.length).run w.exchange =
          (CallbackM.runMethod contract loan.target method args).run w.exchange) ∧
      (w.IsReleased loan.handle →
        w.table.get loan.handle = .error (.unknownHandle loan.handle) ∧
        ∀ (method : Nat) (args : Bytes), method ≠ releaseMethod → args.length < 0x80000000 →
          (CallbackM.invoke contract loan.handle method (some args) args.length).run w.exchange =
            (.error (.failed (.protocol (.unknownHandle loan.handle))), w.exchange) ∧
          ∃ message, (w.invoke core contract loan method args).1 =
            .error (.unexpected message)) := by
  have hw := h.consistent (consistent_start htable hloans)
  have hknown (hrel : ¬ w.IsReleased loan.handle) :
      w.table.get loan.handle = .ok loan.target := by
    simp only [HandleTable.get, hw.resolves loan hloan hrel]
  have hunknown (hrel : w.IsReleased loan.handle) :
      w.table.get loan.handle = .error (.unknownHandle loan.handle) := by
    simp only [HandleTable.get, hw.released loan hloan hrel]
  have hiff : w.table.get loan.handle = .ok loan.target ↔ ¬ w.IsReleased loan.handle := by
    refine ⟨fun hget hrel => ?_, hknown⟩
    exact nomatch hget.symm.trans (hunknown hrel)
  refine ⟨hiff, ?_, ?_⟩
  · intro hrel method args
    exact CallbackM.invoke_known contract (hknown hrel) method args
  · intro hrel
    refine ⟨hunknown hrel, fun method args hmethod hargs => ⟨?_, ?_⟩⟩
    · exact CallbackM.invoke_unknown contract (hunknown hrel) method (some args) args.length
    · have hproxy : w.exchange.slot.table.get (proxy contract loan).handle =
          .error (.unknownHandle (proxy contract loan).handle) := hunknown hrel
      exact CallbackM.proxy_unknown core contract hproxy hmethod hargs

/-! ## An object lent twice -/

def polite : Instance Demo.Manner := { address := 16, content := .polite }

def rude : Instance Demo.Manner := { address := 32, content := .rude }

/-- Greeters before anything is lowered. -/
def greeters : Lending Core.State Demo.Manner Unit :=
  { exchange := { session := { core := {} }, objects := () } }

/-- One greeter lowered twice and another once. -/
def lowered : Lending Core.State Demo.Manner Unit :=
  ((greeters.lower polite).lower polite).lower rude

/-- The same with a proxy for each, and the first proxy dropped. -/
def lentTwice : Lending Core.State Demo.Manner Unit :=
  (((lowered.setState 0 .held).setState 1 .held).setState 2 .held).drop Core.machine Demo.greeter 0
    ⟨polite, 1, .held⟩

theorem leads_lentTwice : Leads Core.machine Demo.greeter greeters lentTwice := by
  have hlowered : Leads Core.machine Demo.greeter greeters lowered := by
    refine (((Leads.refl greeters).lower ?_).lower ?_).lower ?_
    · exact HandleTable.admits_of_entries (by decide)
    · exact HandleTable.admits_of_entries (by decide)
    · exact HandleTable.admits_of_entries (by decide)
  exact (((hlowered.hold (n := 0) rfl rfl).hold (n := 1) rfl rfl).hold (n := 2) rfl rfl).drop
    rfl rfl

/-- The proxy that was not dropped fails with its handle; that of the other greeter does not. -/
theorem lentTwice_handles :
    lentTwice.table.get 1 = .error (.unknownHandle 1) ∧ lentTwice.table.get 2 = .ok rude := by
  have hsecond : (⟨polite, 1, .held⟩ : Loan Demo.Manner) ∈ lentTwice.loans := by decide
  have hother : (⟨rude, 2, .held⟩ : Loan Demo.Manner) ∈ lentTwice.loans := by decide
  have hreleased : lentTwice.IsReleased 1 := ⟨⟨polite, 1, .dropped⟩, by decide, rfl, rfl⟩
  have hkept : ¬ lentTwice.IsReleased 2 := by
    rintro ⟨loan, hloan, hhandle, hdropped⟩
    revert loan
    decide
  exact ⟨((resolves_iff_not_released rfl rfl leads_lentTwice hsecond).2.2 hreleased).1,
    (resolves_iff_not_released rfl rfl leads_lentTwice hother).1.2 hkept⟩

/-- A proxy that has not been dropped need not resolve. -/
theorem not_resolves_while_held : ¬ ∀ w : Lending Core.State Demo.Manner Unit,
    Leads Core.machine Demo.greeter greeters w → ∀ loan ∈ w.loans, loan.state = .held →
      w.table.get loan.handle = .ok loan.target := by
  intro hclaim
  have hget := hclaim lentTwice leads_lentTwice ⟨polite, 1, .held⟩ (by decide) rfl
  exact nomatch hget

end Lending
end CoreBridge.Host
