import CoreBridge.Host.Session
import CoreBridge.Wire.Decode

/-!
# Buffers the host owns

A `CoreBuffer` is a core allocation that the host answers for. Every way to be
done with it either gives it back to the core or hands it over: dropping,
reading it out, growing it, and passing it as an argument.
-/
namespace CoreBridge.Host

/-- A buffer of the core that the host owns. -/
structure CoreBuffer where
  raw : Buffer
deriving DecidableEq, Repr

namespace CoreBuffer

variable {σ : Type}

/-- The null buffer, which nobody needs to give back. -/
def empty : CoreBuffer := ⟨.null⟩

def bytes (b : CoreBuffer) : Bytes := b.raw.bytes

def length (b : CoreBuffer) : Nat := b.raw.length

/-- How a buffer is shown for debugging. -/
def describe (b : CoreBuffer) : String :=
  s!"CoreBuffer \x7b len: {b.length}, capacity: {b.raw.capacity} \x7d"

/-- A buffer without bytes and with room for `size`. -/
def alloc (core : Core.EntryPoints σ) (size : Nat) : HostM σ (Except Fault CoreBuffer) := do
  HostM.observe [.alloc size]
  return (← HostM.call (core.alloc size)).map CoreBuffer.mk

/-- A core buffer that holds a copy of `bytes`; without bytes none is asked for. -/
def fromBytes (core : Core.EntryPoints σ) (bytes : Bytes) : HostM σ (Except Fault CoreBuffer) :=
  if bytes.isEmpty then return .ok empty
  else match Lent.ofBytes? bytes with
    | none => return .error (.encode (.lengthOverflow bytes.length))
    | some lent => do
      HostM.observe [.fromBytes bytes]
      return (← HostM.call (core.fromBytes lent)).map CoreBuffer.mk

/-- A core buffer that holds the wire form of `v`. -/
def lower (core : Core.EntryPoints σ) (v : Wire.Value) : HostM σ (Except Fault CoreBuffer) :=
  match Wire.encode v with
  | .ok bytes => fromBytes core bytes
  | .error error => return .error (.encode error)

/-- Grows the buffer. The old allocation passes to the core either way. -/
def reserve (core : Core.EntryPoints σ) (b : CoreBuffer) (additional : Nat) :
    HostM σ (Except Fault CoreBuffer) := do
  HostM.observe [.reserve b.raw additional]
  return (← HostM.call (core.reserve b.raw additional)).map CoreBuffer.mk

/-- Gives the buffer back. -/
def drop (b : CoreBuffer) : HostM σ Unit := HostM.release b.raw

/-- Reads the whole buffer as a value of type `t` and gives it back. -/
def lift (schema : Wire.Schema) (t : Wire.Ty) (b : CoreBuffer) :
    HostM σ (Except Fault Wire.Value) := do
  b.drop
  return (schema.decode t b.bytes).mapError .decode

/-- Reads the buffer as text and gives it back. -/
def liftText (b : CoreBuffer) : HostM σ String := do
  b.drop
  return b.bytes.toTextLossy

/-- Hands the buffer over, as an argument of a call. -/
def intoRaw (b : CoreBuffer) : Buffer := b.raw

end CoreBuffer
end CoreBridge.Host
