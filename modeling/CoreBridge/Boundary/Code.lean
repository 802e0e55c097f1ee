/-!
# Result codes

The status of a call into the core and the result of a call back into the host
speak of the same four outcomes with the same four numbers.
-/
namespace CoreBridge

/-- How a call across the boundary ended. -/
inductive ResultCode where
  | success
  /-- The payload is a domain error in its wire form. -/
  | error
  /-- The payload is the text of a failure that nothing declared. -/
  | unexpected
  | cancelled
deriving DecidableEq, Repr

namespace ResultCode

/-- The number that stands for the code at the boundary. -/
def raw : ResultCode → Int
  | success => 0
  | error => 1
  | unexpected => 2
  | cancelled => 3

/-- The code that a number stands for. -/
def ofRaw? : Int → Option ResultCode
  | 0 => some success
  | 1 => some error
  | 2 => some unexpected
  | 3 => some cancelled
  | _ => none

/-- The name that log texts use. -/
def name : ResultCode → String
  | success => "Success"
  | error => "Error"
  | unexpected => "UnexpectedError"
  | cancelled => "Cancelled"

@[simp] theorem ofRaw?_raw (code : ResultCode) : ofRaw? code.raw = some code := by
  cases code <;> rfl

end ResultCode

/-- What a poll answers about a task that is finished. -/
abbrev pollReady : Int := 0

/-- What a continuation says about a task that may have progressed. -/
abbrev pollMaybeReady : Int := 1

/-- What a poll answers if its continuation is still to come. -/
abbrev pollPending : Int := -1

/-- The version of the boundary that this library speaks. -/
abbrev contractVersion : Nat := 1

/-- The method that releases a callback handle. -/
abbrev releaseMethod : Nat := 0

/-- The runtime entry points that every core exports, in the order a host resolves them. -/
def runtimeSymbols : List String := [
  "rustbuffer_alloc", "rustbuffer_from_bytes", "rustbuffer_free", "rustbuffer_reserve",
  "contract_version", "future_continuation_callback_set", "future_poll", "future_cancel",
  "future_complete_buffer", "future_complete_u64", "future_complete_void", "future_free"]

end CoreBridge
