/-!
# Finite tables

A table holds at most one value per key and keeps its entries in the order
their keys were first put in. What a table answers after an update is said by
`get?_set` and `get?_erase`.
-/
namespace CoreBridge

/-- A finite table from keys to values. -/
structure Table (κ α : Type) where
  entries : List (κ × α) := []
deriving Repr

namespace Table

variable {κ α : Type} [DecidableEq κ]

/-- The first value kept under `key`. -/
def lookup (key : κ) : List (κ × α) → Option α
  | [] => none
  | (k, a) :: entries => if k = key then some a else lookup key entries

/-- Replaces the value under `key` where it stands, or appends. -/
def place (key : κ) (value : α) : List (κ × α) → List (κ × α)
  | [] => [(key, value)]
  | (k, a) :: entries =>
    if k = key then (key, value) :: entries else (k, a) :: place key value entries

def empty : Table κ α := {}

def get? (t : Table κ α) (key : κ) : Option α := lookup key t.entries

def set (t : Table κ α) (key : κ) (value : α) : Table κ α := ⟨place key value t.entries⟩

def erase (t : Table κ α) (key : κ) : Table κ α := ⟨t.entries.filter fun e => e.1 ≠ key⟩

def contains (t : Table κ α) (key : κ) : Bool := (t.get? key).isSome

def size (t : Table κ α) : Nat := t.entries.length

@[simp] theorem get?_empty (key : κ) : (empty : Table κ α).get? key = none := rfl

@[simp] theorem get?_set (t : Table κ α) (key other : κ) (value : α) :
    (t.set key value).get? other = if key = other then some value else t.get? other := by
  obtain ⟨entries⟩ := t
  simp only [set, get?]
  induction entries with
  | nil => simp [place, lookup]
  | cons e entries ih =>
    obtain ⟨k, a⟩ := e
    by_cases hk : k = key
    · subst hk
      by_cases ho : k = other <;> simp [place, lookup, ho]
    · by_cases ho : k = other
      · subst ho
        simp [place, lookup, hk, Ne.symm hk]
      · simp [place, lookup, hk, ho, ih]

@[simp] theorem get?_erase (t : Table κ α) (key other : κ) :
    (t.erase key).get? other = if key = other then none else t.get? other := by
  obtain ⟨entries⟩ := t
  simp only [erase, get?]
  induction entries with
  | nil => simp [lookup]
  | cons e entries ih =>
    obtain ⟨k, a⟩ := e
    by_cases hk : k = key
    · subst hk
      by_cases ho : k = other <;> simp_all [lookup]
    · by_cases ho : k = other
      · subst ho
        simp [lookup, hk, Ne.symm hk]
      · simpa [lookup, hk, ho] using ih

/-- Putting in what is there already changes nothing. -/
theorem set_of_get? {t : Table κ α} {key : κ} {value : α} (h : t.get? key = some value) :
    t.set key value = t := by
  obtain ⟨entries⟩ := t
  simp only [get?] at h
  simp only [set, mk.injEq]
  induction entries with
  | nil => simp [lookup] at h
  | cons e entries ih =>
    obtain ⟨k, a⟩ := e
    by_cases hk : k = key
    · subst hk
      obtain rfl : a = value := by simpa [lookup] using h
      simp [place]
    · have hrest : lookup key entries = some value := by simpa [lookup, hk] using h
      simp [place, hk, ih hrest]

theorem mem_entries_of_get? {t : Table κ α} {key : κ} {value : α} (h : t.get? key = some value) :
    (key, value) ∈ t.entries := by
  obtain ⟨entries⟩ := t
  simp only [get?] at h
  induction entries with
  | nil => simp [lookup] at h
  | cons e entries ih =>
    obtain ⟨k, a⟩ := e
    rw [lookup] at h
    split at h
    · obtain rfl := Option.some.inj h
      subst k
      exact List.mem_cons_self
    · exact List.mem_cons_of_mem _ (ih h)

end Table
end CoreBridge
