import CoreBridge.Host.Session
import CoreBridge.Text.Quoted

/-!
# The lifetime of core objects

The host holds a pointer to an object of the core. Calls borrow it; disposing
of it releases it. The core's free function runs once, when the object is
disposed of and no borrow is left, in whatever order that comes about.

The counter counts the live borrows. Disposing takes one more off it, so it
reaches minus one exactly when the object is both disposed of and not borrowed.
-/
namespace CoreBridge.Host

structure Object where
  typeName : String
  pointer : Nat
  callCounter : Int := 0
  destroyed : Bool := false
deriving DecidableEq, Repr

/-- How the core frees an object and, if it can, hands out a reference of its own per borrow. -/
structure ObjectFunctions (σ : Type) where
  clone? : Option ((pointer : Nat) → σ → Reply Nat × σ)
  free : (pointer : Nat) → σ → Reply Unit × σ

namespace Object

variable {σ : Type}

/-- The borrows that the counter can count. -/
abbrev maxBorrows : Int := 0x8000000000000000 - 1

/-- How an object is shown for debugging. -/
def describe (o : Object) : String :=
  "FfiObject \x7b type_name: " ++ Text.quoted o.typeName ++ ", pointer: 0x" ++
    Text.hexadecimal o.pointer ++
    s!", call_counter: {o.callCounter}, destroyed: {o.destroyed} \x7d"

/-- Runs the core's free function; a failure is only logged. -/
def free (fs : ObjectFunctions σ) (o : Object) : HostM σ Unit := do
  HostM.observe [.freeObject o.pointer]
  if let .error fault ← HostM.call (fs.free o.pointer) then
    HostM.log .error s!"Failed to free {o.typeName} object: {fault.message}"

/-- Gives up one reference; the last one frees. -/
def release (fs : ObjectFunctions σ) (o : Object) : HostM σ Object := do
  if o.callCounter = 0 then o.free fs
  return { o with callCounter := o.callCounter - 1 }

/-- Borrows the object for one call and answers with the pointer to pass. A
clone that fails gives the borrow back. -/
def borrow (fs : ObjectFunctions σ) (o : Object) : HostM σ (Except Fault Nat × Object) := do
  if o.callCounter ≤ -1 ∨ o.destroyed then return (.error (.objectDestroyed o.typeName), o)
  if o.callCounter = maxBorrows then return (.error (.callCounterOverflow o.typeName), o)
  let borrowed := { o with callCounter := o.callCounter + 1 }
  match fs.clone? with
  | none => return (.ok o.pointer, borrowed)
  | some clone =>
    HostM.observe [.cloneObject o.pointer]
    match ← HostM.call (clone o.pointer) with
    | .ok pointer => return (.ok pointer, borrowed)
    | .error fault => return (.error fault, ← borrowed.release fs)

/-- Disposes of the object; only the first time has an effect. -/
def dispose (fs : ObjectFunctions σ) (o : Object) : HostM σ Object :=
  if o.destroyed then return o else { o with destroyed := true }.release fs

end Object
end CoreBridge.Host
