import CoreBridge.Host.Runtime
import CoreBridge.Text.Blank

/-!
# Configurations

A configuration says which core library to load, under which prefix it exports
its entry points, and which contract it has to honour. Validation reports the
first thing that is wrong, in the order in which the fields are declared here,
except that the prefix is looked at before the path.
-/
namespace CoreBridge

structure Config where
  /-- The shared library that holds the core. -/
  libraryPath : String
  /-- What the names of the runtime entry points start with. -/
  symbolPrefix : String
  contractVersion : Nat
  /-- The expected value behind each checksum symbol, by ascending symbol. -/
  checksums : List (String × Nat) := []
  /-- The callback contracts whose entry point the core has to export. -/
  callbackContracts : List String := []
deriving DecidableEq, Repr

namespace Config

/-- What can be wrong with a configuration. -/
inductive Issue where
  | emptyPrefix
  | emptyLibraryPath
  | blankChecksumSymbol (symbol : String)
  | emptyContractName
  | duplicateContract (contract : String)
deriving DecidableEq, Repr

def Issue.message : Issue → String
  | emptyPrefix => "symbol_prefix must not be empty"
  | emptyLibraryPath => "library_path must not be empty"
  | blankChecksumSymbol symbol => s!"Invalid checksum symbol name: '{symbol}'"
  | emptyContractName => "Callback contract names must not be empty"
  | duplicateContract contract => s!"Duplicate callback contract: '{contract}'"

/-- The first contract name that is empty or was listed before; `seen` are the earlier ones. -/
def contractIssue (seen : List String) : List String → Option Issue
  | [] => none
  | name :: names =>
    if name.isEmpty then some .emptyContractName
    else if name ∈ seen then some (.duplicateContract name)
    else contractIssue (name :: seen) names

/-- The first thing that is wrong with a configuration. -/
def issue (c : Config) : Option Issue :=
  if c.symbolPrefix.isEmpty then some .emptyPrefix
  else if c.libraryPath.isEmpty then some .emptyLibraryPath
  else match c.checksums.find? fun (symbol, _) => Text.isBlank symbol with
    | some (symbol, _) => some (.blankChecksumSymbol symbol)
    | none => contractIssue [] c.callbackContracts

/-- Checks a configuration. -/
def validate (c : Config) : Except Issue Unit :=
  match c.issue with
  | some issue => .error issue
  | none => .ok ()

/-- The contract that a loaded core is checked against. -/
def contract (c : Config) : Host.ContractSpec where
  version := c.contractVersion
  checksums := c.checksums

end Config
end CoreBridge
