import CoreBridge.Config.Basic
import CoreBridge.Json.Reader
import CoreBridge.Yaml.Document
import CoreBridge.Yaml.Number

/-!
# Reading configurations

A configuration is read as YAML, and as JSON if it is not YAML. In either
language it is a mapping whose keys are the names of the fields, or a sequence
of the fields in order, where the last two may be missing. Keys that name no
field are ignored; a field that is given twice is refused, while the last value
of a checksum counts.

The languages differ in what stands for text and for a number: in YAML every
scalar is text, and every scalar that was not quoted may be a number.
-/
namespace CoreBridge.Config

/-- How a tree of some language is taken apart. -/
structure Form (ν : Type) where
  text? : ν → Option String
  /-- The number that a value stands for, if it is below the limit. -/
  number? : (limit : Nat) → ν → Option Nat
  items? : ν → Option (List ν)
  entries? : ν → Option (List (ν × ν))
  /-- The fields of a record that is given by its fields in order. -/
  record? : ν → Option (List ν)

/-- JSON values: text is quoted, and only a number without fraction is one. -/
def jsonForm : Form Json where
  text? := Json.text?
  number? limit j := j.int?.bind fun n => if 0 ≤ n ∧ n < limit then some n.toNat else none
  items? := Json.items?
  entries? j := j.fields?.map fun fields => fields.map fun (key, value) => (.text key, value)
  record? := Json.items?

/-- YAML nodes. Numbers are read with 64 bits. -/
def yamlForm : Form Yaml.Node where
  text? := Yaml.Node.text?
  number? limit n := (n.numeral?.bind (Yaml.unsigned? 0x10000000000000000)).filter (· < limit)
  items? := Yaml.Node.items?
  entries? := Yaml.Node.entries?
  record?
    | .sequence items => some items
    | _ => none

/-- Puts a checksum at its place by ascending symbol, in place of an earlier one. -/
def insertChecksum (symbol : String) (checksum : Nat) : List (String × Nat) → List (String × Nat)
  | [] => [(symbol, checksum)]
  | (s, c) :: rest =>
    if symbol < s then (symbol, checksum) :: (s, c) :: rest
    else if symbol = s then (symbol, checksum) :: rest
    else (s, c) :: insertChecksum symbol checksum rest

/-- Configurations take contract versions of 32 bits and checksums of 16. -/
abbrev versionLimit : Nat := 0x100000000

abbrev checksumLimit : Nat := 0x10000

variable {ν : Type}

/-- The checksums that a mapping lists. -/
def readChecksums (form : Form ν) (v : ν) : Option (List (String × Nat)) := do
  (← form.entries? v).foldlM (fun checksums (key, value) => do
    return insertChecksum (← form.text? key) (← form.number? checksumLimit value) checksums) []

/-- The contract names that a sequence lists. -/
def readContracts (form : Form ν) (v : ν) : Option (List String) := do
  (← form.items? v).mapM form.text?

/-- The fields read so far. -/
structure Partial where
  libraryPath : Option String := none
  symbolPrefix : Option String := none
  contractVersion : Option Nat := none
  checksums : Option (List (String × Nat)) := none
  callbackContracts : Option (List String) := none

/-- Sets a field that was not given before. -/
def Partial.once {α : Type} (old : Option α) (new : Option α) (p : Option α → Partial) :
    Option Partial :=
  if old.isSome then none else new.map fun v => p (some v)

/-- Reads the field with this name. -/
def Partial.read (form : Form ν) (p : Partial) (name : String) (v : ν) : Option Partial :=
  match name with
  | "library_path" => once p.libraryPath (form.text? v) fun f => { p with libraryPath := f }
  | "symbol_prefix" => once p.symbolPrefix (form.text? v) fun f => { p with symbolPrefix := f }
  | "contract_version" =>
    once p.contractVersion (form.number? versionLimit v) fun f => { p with contractVersion := f }
  | "checksums" => once p.checksums (readChecksums form v) fun f => { p with checksums := f }
  | "callback_contracts" =>
    once p.callbackContracts (readContracts form v) fun f => { p with callbackContracts := f }
  | _ => some p

/-- The names of the fields, in order. -/
def fieldNames : List String :=
  ["library_path", "symbol_prefix", "contract_version", "checksums", "callback_contracts"]

/-- The configuration, if none of the fields without default is missing. -/
def Partial.finish (p : Partial) : Option Config := do
  return { libraryPath := ← p.libraryPath, symbolPrefix := ← p.symbolPrefix,
           contractVersion := ← p.contractVersion, checksums := p.checksums.getD [],
           callbackContracts := p.callbackContracts.getD [] }

/-- The configuration that a tree describes. -/
def ofTree? (form : Form ν) (v : ν) : Option Config := do
  let fields ← match form.record? v with
    | some items =>
      if items.length ≤ fieldNames.length then some (fieldNames.zip items) else none
    | none => do
      (← form.entries? v).mapM fun (key, value) => do return (← form.text? key, value)
  let p ← fields.foldlM (fun p (name, value) => Partial.read form p name value) {}
  p.finish

/-- The configuration that a text describes. -/
def parse? (s : String) : Option Config :=
  match (Yaml.parse? s).bind (ofTree? yamlForm) with
  | some config => some config
  | none => (Json.parse? s).bind (ofTree? jsonForm)

end CoreBridge.Config
