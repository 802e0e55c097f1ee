import CoreBridge.Config.Basic
import CoreBridge.Host.Runtime

/-!
# Loading a core

A core is loaded from a shared library as its configuration says: the
configuration is validated, the library opened, its contract verified, and the
entry point of every callback contract looked up. The first step that fails
ends the loading.
-/
namespace CoreBridge.Host

/-- A library that was opened: what it exports, and how its checksum functions answer. -/
structure Library (σ : Type) where
  identity : Nat
  symbols : SymbolSource
  core : Core.EntryPoints σ
  checksum : String → σ → Reply Nat × σ

/-- Why a core could not be loaded. -/
inductive LoadError where
  | config (issue : Config.Issue)
  | library
  | contract (path : String) (fault : Fault)
  | callbackContract (name : String) (fault : Fault)
deriving DecidableEq, Repr

namespace LoadError

/-- The text of an error, followed by those of its causes. -/
def message : LoadError → String
  | config issue => issue.message
  | library => "Failed to load core library"
  | contract path fault =>
    s!"Core library {path} failed contract verification: {fault.message}"
  | callbackContract name fault =>
    s!"Callback contract '{name}' is not exported: {fault.message}"

/-- The fault that caused the error, if one did. -/
def fault? : LoadError → Option Fault
  | contract _ fault | callbackContract _ fault => some fault
  | _ => none

end LoadError

namespace Runtime

variable {σ : Type}

/-- Looks up the entry points of the callback contracts in order. -/
def requireContracts (r : Runtime) : List String → HostM σ (Except LoadError Unit)
  | [] => return .ok ()
  | name :: names => do
    match ← r.symbol (r.symbolPrefix ++ "callback_init_" ++ name) with
    | .error fault => return .error (.callbackContract name fault)
    | .ok _ => r.requireContracts names

/-- Loads the core that a configuration describes; `library` is what opening its path gives. -/
def load (config : Config) (library : Option (Library σ)) :
    HostM σ (Except LoadError Runtime) := do
  match config.validate, library with
  | .error issue, _ => return .error (.config issue)
  | .ok (), none => return .error .library
  | .ok (), some library =>
    match ← Runtime.new library.identity library.symbols config.symbolPrefix library.core
        library.checksum config.contract with
    | .error fault => return .error (.contract config.libraryPath fault)
    | .ok runtime => do
      match ← runtime.requireContracts config.callbackContracts with
      | .error error => return .error error
      | .ok () => return .ok runtime

end Runtime
end CoreBridge.Host
