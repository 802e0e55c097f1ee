import CoreBridge.Table

/-!
# Symbols

Entry points are found by name. A source answers with an address, and an entry
point is there only if the address is not null.
-/
namespace CoreBridge.Host

/-- Resolves a full symbol name to an address; zero is the null address. -/
abbrev SymbolSource := String → Option Nat

/-- The address under `name`, unless it is missing or null. -/
def SymbolSource.find? (source : SymbolSource) (name : String) : Option Nat :=
  (source name).filter (· ≠ 0)

/-- Symbols registered by hand, for cores linked into the host. -/
abbrev SymbolTable := Table String Nat

namespace SymbolTable

/-- Adds every symbol with `symbolPrefix` in front of its name. -/
def extend (t : SymbolTable) (symbolPrefix : String) (symbols : List (String × Nat)) :
    SymbolTable :=
  symbols.foldl (fun t (name, address) => t.set (symbolPrefix ++ name) address) t

def source (t : SymbolTable) : SymbolSource := t.get?

end SymbolTable

/-- What resolving names in order comes to: the names that were looked up, and
the first that has no address, after which none is looked up. -/
structure Resolution where
  asked : List String
  missing : Option String
deriving DecidableEq, Repr

/-- Looks up the names in order, as full names under `symbolPrefix`. -/
def SymbolSource.resolveAll (source : SymbolSource) (symbolPrefix : String) :
    List String → Resolution
  | [] => ⟨[], none⟩
  | name :: names =>
    match source.find? (symbolPrefix ++ name) with
    | none => ⟨[symbolPrefix ++ name], some name⟩
    | some _ =>
      let rest := source.resolveAll symbolPrefix names
      { rest with asked := (symbolPrefix ++ name) :: rest.asked }

end CoreBridge.Host
