import CoreBridge.Host.Session
import CoreBridge.Host.Symbols
import CoreBridge.Text.Quoted

/-!
# The contract gate

A host drives a core only after checking it, in this order: all runtime entry
points are there, the core reports the expected contract version, every
expected checksum function is there and returns the expected value, and the
core takes the host's continuation. The first check that fails is the fault,
and nothing after it is tried.
-/
namespace CoreBridge.Host

/-- What a host expects of a core: its contract version and the checksum behind
each symbol, by ascending symbol. -/
structure ContractSpec where
  version : Nat
  checksums : List (String × Nat) := []
deriving DecidableEq, Repr

/-- A core that passed the gate. Two runtimes with one identity are one core. -/
structure Runtime where
  identity : Nat
  symbolPrefix : String
  symbols : SymbolSource

namespace Runtime

variable {σ : Type}

def sameCore (a b : Runtime) : Bool := a.identity = b.identity

/-- Resolves an entry point by its full symbol name. -/
def symbol (r : Runtime) (name : String) : HostM σ (Except Fault Nat) := do
  HostM.observe [.lookedUp name]
  return match r.symbols.find? name with
    | some address => .ok address
    | none => .error (.missingSymbol name)

/-- How a runtime is shown for debugging, with every address as `0x`. -/
def describe (r : Runtime) : String :=
  let fields := ", ".intercalate (runtimeSymbols.map fun name => name ++ ": 0x")
  "Runtime \x7b prefix: " ++ Text.quoted r.symbolPrefix ++ ", vtable: RuntimeVtable \x7b " ++
    fields ++ " \x7d \x7d"

/-- Checks the expected checksums in order; `checksum` calls the function behind a symbol. -/
def verifyChecksums (r : Runtime) (checksum : String → σ → Reply Nat × σ) :
    List (String × Nat) → HostM σ (Except Fault Unit)
  | [] => return .ok ()
  | (symbol, expected) :: rest => do
    match ← r.symbol symbol with
    | .error fault => return .error fault
    | .ok _ =>
      HostM.observe [.checksumRead symbol]
      match ← HostM.call (checksum symbol) with
      | .error fault => return .error fault
      | .ok found =>
        if found = expected then verifyChecksums r checksum rest
        else return .error (.checksumMismatch symbol expected found)

/-- Checks the contract version and the checksums. -/
def verify (r : Runtime) (core : Core.EntryPoints σ) (checksum : String → σ → Reply Nat × σ)
    (spec : ContractSpec) : HostM σ (Except Fault Unit) := do
  HostM.observe [.versionRead]
  match ← HostM.call core.contractVersion with
  | .error fault => return .error fault
  | .ok found =>
    if found ≠ spec.version then
      return .error (.contractVersionMismatch spec.version found)
    match ← r.verifyChecksums checksum spec.checksums with
    | .error fault => return .error fault
    | .ok () =>
      HostM.log .debug
        s!"Verified contract version {spec.version} with {spec.checksums.length} checksums"
      return .ok ()

/-- The number under which every core knows the host's continuation. -/
def hostContinuation : Nat := 0

/-- Resolves the runtime entry points, verifies the contract and installs the continuation. -/
def new (identity : Nat) (symbols : SymbolSource) (symbolPrefix : String)
    (core : Core.EntryPoints σ) (checksum : String → σ → Reply Nat × σ) (spec : ContractSpec) :
    HostM σ (Except Fault Runtime) := do
  let resolution := symbols.resolveAll symbolPrefix runtimeSymbols
  HostM.observe (resolution.asked.map .lookedUp)
  match resolution.missing with
  | some name => return .error (.missingSymbol (symbolPrefix ++ name))
  | none =>
    let r : Runtime := { identity, symbolPrefix, symbols }
    match ← r.verify core checksum spec with
    | .error fault => return .error fault
    | .ok () =>
      HostM.observe [.continuationInstalled]
      match ← HostM.call (core.setContinuation hostContinuation) with
      | .error fault => return .error fault
      | .ok () =>
        HostM.log .debug s!"Core runtime ready (prefix '{symbolPrefix}')"
        return .ok r

end Runtime
end CoreBridge.Host
