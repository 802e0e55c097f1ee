import CoreBridge.Bytes

/-!
# Regions of memory at the boundary

The core owns the memory of every buffer. Each allocation has an identity, so
that one can say of a buffer that it was given back once, and a buffer without
an allocation is the null buffer. The host in turn lends byte regions to the
core for the time of one call.
-/
namespace CoreBridge

/-- A region the core allocated: the bytes written to it and the room it has. -/
structure Allocation where
  id : Nat
  bytes : Bytes
  capacity : Nat
deriving DecidableEq, Repr

/-- A buffer as it is passed across the boundary. -/
inductive Buffer where
  | null
  | allocated (allocation : Allocation)
deriving DecidableEq, Repr

namespace Buffer

def bytes : Buffer → Bytes
  | null => []
  | allocated a => a.bytes

def length (b : Buffer) : Nat := b.bytes.length

def capacity : Buffer → Nat
  | null => 0
  | allocated a => a.capacity

def isEmpty (b : Buffer) : Bool := b.bytes.isEmpty

/-- Whether no allocation backs the buffer. -/
def isNull : Buffer → Bool
  | null => true
  | allocated _ => false

end Buffer

/-- The core's allocator, which numbers its allocations. -/
structure Heap where
  issued : Nat := 0
deriving DecidableEq, Repr

namespace Heap

/-- A new allocation that holds `bytes`. -/
def allocate (heap : Heap) (bytes : Bytes) (capacity : Nat) : Buffer × Heap :=
  (.allocated ⟨heap.issued, bytes, capacity⟩, ⟨heap.issued + 1⟩)

/-- A new allocation with no room beyond `bytes`. -/
def store (heap : Heap) (bytes : Bytes) : Buffer × Heap := heap.allocate bytes bytes.length

end Heap

/-- A byte region that the host lends: a length field and, unless null, the bytes. -/
structure Lent where
  length : Int
  data : Option Bytes
deriving DecidableEq, Repr

namespace Lent

/-- Lends `bytes`, if their length fits the field. -/
def ofBytes? (bytes : Bytes) : Option Lent :=
  if bytes.length < 0x80000000 then some ⟨bytes.length, some bytes⟩ else none

/-- The bytes the core may read. -/
def slice (lent : Lent) : Bytes :=
  match lent.data with
  | none => []
  | some bytes => bytes.take lent.length.toNat

end Lent
end CoreBridge
