import CoreBridge.Boundary.Buffer

/-!
# What can be observed of a run

A run shows log records and the calls that cross the boundary, in order. Every
operation of the library returns what it adds to this trace.
-/
namespace CoreBridge

inductive Level where
  | error | warn | info | debug
deriving DecidableEq, Repr

def Level.name : Level → String
  | error => "ERROR"
  | warn => "WARN"
  | info => "INFO"
  | debug => "DEBUG"

/-- The shape in which a task's value is collected. -/
inductive Flavour where
  | void | word | buffer
deriving DecidableEq, Repr

def Flavour.name : Flavour → String
  | void => "void"
  | word => "u64"
  | buffer => "buffer"

inductive Observation where
  | log (level : Level) (text : String)
  /-- The host asks for a buffer of a size. -/
  | alloc (size : Nat)
  /-- The host asks for a buffer that holds a copy of its bytes. -/
  | fromBytes (bytes : Bytes)
  /-- The host gives a buffer back. -/
  | free (buffer : Buffer)
  | reserve (buffer : Buffer) (additional : Nat)
  /-- The host polled a task, with an id for the continuation, and got an answer. -/
  | polled (task id : Nat) (answer : Int)
  | cancel (task : Nat)
  | complete (flavour : Flavour) (task : Nat)
  | freeTask (task : Nat)
  /-- The core invokes the continuation. -/
  | fired (data : Nat) (result : Int)
  /-- The core drops the future of a task. -/
  | futureDropped (task : Nat)
  /-- A host future that waited for a continuation is woken. -/
  | woke (call : Nat)
  /-- The host starts an asynchronous operation. -/
  | started
  | cloneObject (pointer : Nat)
  | freeObject (pointer : Nat)
  /-- The host calls the entry point that installs its dispatch function. -/
  | contractInit
  /-- The core calls a dispatch function; `args` is none for the null pointer. -/
  | dispatched (dispatch : String) (handle method : Nat) (args : Option Bytes) (length : Int)
  /-- The core takes back a buffer that the host filled for it. -/
  | reclaimed (buffer : Buffer)
  /-- The host looks up a symbol. -/
  | lookedUp (symbol : String)
  /-- The host reads the contract version. -/
  | versionRead
  /-- The host calls a checksum function. -/
  | checksumRead (symbol : String)
  /-- The host installs its continuation. -/
  | continuationInstalled
deriving DecidableEq, Repr

abbrev Trace := List Observation

namespace Trace

/-- The log records of a trace, in order. -/
def logs (trace : Trace) : List (Level × String) :=
  trace.filterMap fun
    | .log level text => some (level, text)
    | _ => none

end Trace
end CoreBridge
