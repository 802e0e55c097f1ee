import CoreBridge.Host.Fault
import CoreBridge.Table

/-!
# Handles of host objects

Objects of the host are passed to the core as integer handles. Handles start at
one and are never used again, and an instance that is in the table already
keeps the handle it has. Instances are told apart by their address.

The last handle is a natural number here and has 64 bits at the boundary: the
two agree below 2^64 handles, a bound that no run comes near.
-/
namespace CoreBridge.Host

/-- An object of the host: where it lives and what it is. -/
structure Instance (θ : Type) where
  address : Nat
  content : θ
deriving DecidableEq, Repr

structure HandleTable (θ : Type) where
  lastHandle : Nat := 0
  byHandle : Table Nat (Instance θ) := {}
  byIdentity : Table Nat Nat := {}
deriving Repr

namespace HandleTable

variable {θ : Type}

/-- The handle of an instance, a fresh one unless it has one. -/
def insert (t : HandleTable θ) (i : Instance θ) : Nat × HandleTable θ :=
  match t.byIdentity.get? i.address with
  | some handle => (handle, t)
  | none =>
    let handle := t.lastHandle + 1
    (handle,
      { lastHandle := handle
        byHandle := t.byHandle.set handle i
        byIdentity := t.byIdentity.set i.address handle })

/-- The instance behind a handle. -/
def get (t : HandleTable θ) (handle : Nat) : Except Fault (Instance θ) :=
  match t.byHandle.get? handle with
  | some i => .ok i
  | none => .error (.unknownHandle handle)

/-- Drops the table's reference to the instance behind a handle, if there is one. -/
def remove (t : HandleTable θ) (handle : Nat) : Option (Instance θ) × HandleTable θ :=
  match t.byHandle.get? handle with
  | none => (none, t)
  | some i =>
    (some i,
      { t with
        byHandle := t.byHandle.erase handle
        byIdentity := t.byIdentity.erase i.address })

def contains (t : HandleTable θ) (handle : Nat) : Bool := t.byHandle.contains handle

def size (t : HandleTable θ) : Nat := t.byHandle.size

/-- How many references the table holds to the instance at an address. -/
def references (t : HandleTable θ) (address : Nat) : Nat :=
  t.byHandle.entries.countP fun (_, i) => i.address = address

end HandleTable
end CoreBridge.Host
