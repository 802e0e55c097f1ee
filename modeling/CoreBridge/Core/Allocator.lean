import CoreBridge.Core.Entry

/-!
# The buffer entry points

Buffers are made and grown here. A size that no allocation can have is a panic.
Growing a buffer consumes it whether it succeeds or not.
-/
namespace CoreBridge.Core

/-- The sizes that an allocation cannot have start here. -/
abbrev sizeLimit : Nat := 0x8000000000000000

/-- A panic of the allocator. -/
def capacityOverflow {α : Type} : Outcome α := .panicked (.text "capacity overflow")

/-- A buffer without bytes and with room for `size`. -/
def alloc (hasStatus : Bool) (size : Nat) (heap : Heap) : Reply Buffer × Heap :=
  if size < sizeLimit then
    let (buffer, heap) := heap.allocate [] size
    run hasStatus .null (.returned buffer) heap
  else run hasStatus .null capacityOverflow heap

/-- A buffer that holds a copy of the bytes lent. -/
def fromBytes (hasStatus : Bool) (lent : Lent) (heap : Heap) : Reply Buffer × Heap :=
  let (buffer, heap) := heap.store lent.slice
  run hasStatus .null (.returned buffer) heap

/-- A buffer with the same bytes and room for `additional` more. Its room is just
what is needed, where an allocator promises only that it is no less. -/
def reserve (hasStatus : Bool) (buffer : Buffer) (additional : Nat) (heap : Heap) :
    Reply Buffer × Heap :=
  let needed := buffer.length + additional
  if needed ≤ buffer.capacity then
    let (grown, heap) := heap.allocate buffer.bytes buffer.capacity
    run hasStatus .null (.returned grown) heap
  else if needed < sizeLimit then
    let (grown, heap) := heap.allocate buffer.bytes needed
    run hasStatus .null (.returned grown) heap
  else run hasStatus .null capacityOverflow heap

end CoreBridge.Core
