import CoreBridge.Boundary.Code
import CoreBridge.Boundary.Trace

/-!
# The status of a call into the core

The caller hands every entry point a zeroed status. The core leaves it alone on
success and otherwise writes a code and, for failures that have one, a payload
that the caller has to give back.
-/
namespace CoreBridge

/-- What a core entry point wrote about its outcome. -/
structure CallStatus where
  code : Int := 0
  payload : Buffer := .null
deriving DecidableEq, Repr

/-- What a call into the core comes to: the returned value, the status, and
what happened while the call ran. -/
structure Reply (α : Type) where
  value : α
  status : CallStatus := {}
  trace : Trace := []
deriving Repr

namespace Reply

def map {α β : Type} (f : α → β) (r : Reply α) : Reply β := { r with value := f r.value }

end Reply
end CoreBridge
