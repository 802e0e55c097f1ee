import CoreBridge.Boundary.Status
import CoreBridge.Table
import CoreBridge.Text.Lossy

/-!
# Proxies of host objects

The host installs one dispatch function per callback contract. A proxy pairs
such a function with the handle of a host object; invoking it dispatches, and
dropping it releases the handle.

What a proxy does is written for any monad that can run a dispatch, so it is
the same against a host and against a script. Dispatch functions are told apart
by a name.
-/
namespace CoreBridge.Core

/-- The dispatch functions installed so far, by contract. -/
abbrev Contracts := Table String String

namespace Contracts

/-- Records the dispatch function of a contract. -/
def init (contracts : Contracts) (contract dispatch : String) : Contracts × Trace :=
  let again := contracts.contains contract
  (contracts.set contract dispatch,
    [if again then .log .warn s!"Callback contract '{contract}' was initialized more than once"
      else .log .debug s!"Callback contract '{contract}' initialized"])

end Contracts

/-- Why an invocation of a host object did not succeed. -/
inductive ProxyError where
  /-- The host returned a domain error in its wire form. -/
  | error (bytes : Bytes)
  | unexpected (message : String)
  | cancelled
  | unknownCode (code : Int)
  | reservedMethod (method : Nat)
  | argumentsTooLarge (length : Nat)
deriving DecidableEq, Repr

def ProxyError.message : ProxyError → String
  | error bytes => s!"callback returned a domain error ({bytes.length} bytes)"
  | unexpected message => s!"callback failed unexpectedly: {message}"
  | cancelled => "callback was cancelled"
  | unknownCode code => s!"callback returned unknown result code {code}"
  | reservedMethod method => s!"method index {method} is reserved"
  | argumentsTooLarge length => s!"callback arguments are too large ({length} bytes)"

/-- A way to run dispatch functions: `dispatch` answers with the result code and
the buffer that was written out, `note` takes what is to be observed. -/
structure Dispatcher (m : Type → Type) where
  dispatch : (name : String) → (handle method : Nat) → (args : Option Bytes) → (length : Int) →
    m (Int × Buffer)
  note : Trace → m Unit

/-- A host object as the core holds it. -/
structure Proxy where
  dispatch : String
  handle : Nat
deriving DecidableEq, Repr

namespace Proxy

variable {m : Type → Type} [Monad m]

/-- The proxy of `handle` that uses the dispatch function installed for a contract. -/
def forContract? (contracts : Contracts) (contract : String) (handle : Nat) : Option Proxy :=
  (contracts.get? contract).map fun dispatch => { dispatch, handle }

/-- What the code and the payload of a dispatch mean. -/
def outcome (code : Int) (payload : Bytes) : Except ProxyError Bytes :=
  match ResultCode.ofRaw? code with
  | some .success => .ok payload
  | some .error => .error (.error payload)
  | some .unexpected => .error (.unexpected payload.toTextLossy)
  | some .cancelled => .error .cancelled
  | none => .error (.unknownCode code)

/-- Takes back the buffer of a dispatch. -/
def reclaim (dispatcher : Dispatcher m) (buffer : Buffer) : m Unit :=
  if buffer.isNull then pure () else dispatcher.note [.reclaimed buffer]

/-- Why a method is not dispatched with arguments of this length, if it is not: the method is
reserved, or a dispatch has no room for the length. -/
def refusal? (method length : Nat) : Option ProxyError :=
  if method = releaseMethod then some (.reservedMethod method)
  else if 0x80000000 ≤ length then some (.argumentsTooLarge length)
  else none

/-- Invokes a method with arguments in their wire form. -/
def invoke (dispatcher : Dispatcher m) (p : Proxy) (method : Nat) (args : Bytes) :
    m (Except ProxyError Bytes) :=
  match refusal? method args.length with
  | some refusal => return .error refusal
  | none => do
    let (code, out) ← dispatcher.dispatch p.dispatch p.handle method (some args) args.length
    reclaim dispatcher out
    return outcome code out.bytes

/-- Releases the handle. -/
def drop (dispatcher : Dispatcher m) (p : Proxy) : m Unit := do
  let (code, out) ← dispatcher.dispatch p.dispatch p.handle releaseMethod none 0
  reclaim dispatcher out
  if code ≠ ResultCode.success.raw then
    dispatcher.note [.log .warn s!"Releasing callback handle {p.handle} returned code {code}"]

end Proxy
end CoreBridge.Core
