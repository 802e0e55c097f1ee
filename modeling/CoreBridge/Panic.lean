/-!
# Panics

A panic carries a payload, which is usually its text.
-/
namespace CoreBridge

/-- What a panic carries. -/
inductive Panic where
  | text (message : String)
  /-- A payload that is not text. -/
  | other
deriving DecidableEq, Repr

/-- The text reported for a panic. -/
def Panic.message : Panic → String
  | text message => message
  | other => "unknown panic"

end CoreBridge
