import CoreBridge.Text.Hex

/-!
# JSON values

A number written without fraction and exponent is an integer; any other number
is kept as it was written, since nothing here computes with it. An object keeps
its fields in order, repeated keys included. A value is written on one line
without blanks, the fields of an object by ascending key.
-/
namespace CoreBridge

inductive Json where
  | null
  | bool (b : Bool)
  | int (n : Int)
  /-- A number with a fraction or an exponent. -/
  | decimal (written : String)
  | text (s : String)
  | list (items : List Json)
  | object (fields : List (String × Json))
deriving Inhabited

namespace Json

/-- The value of the first field with this key. -/
def get? : Json → String → Option Json
  | object fields, key => fields.lookup key
  | _, _ => none

def text? : Json → Option String
  | text s => some s
  | _ => none

def int? : Json → Option Int
  | int n => some n
  | _ => none

def bool? : Json → Option Bool
  | bool b => some b
  | _ => none

def items? : Json → Option (List Json)
  | list items => some items
  | _ => none

def fields? : Json → Option (List (String × Json))
  | object fields => some fields
  | _ => none

mutual

/-- How many levels of lists and objects a value has. -/
def depth : Json → Nat
  | list items => depthAll items + 1
  | object fields => depthFields fields + 1
  | _ => 0

def depthAll : List Json → Nat
  | [] => 0
  | item :: items => max item.depth (depthAll items)

def depthFields : List (String × Json) → Nat
  | [] => 0
  | (_, value) :: fields => max value.depth (depthFields fields)

end

/-- How one character is written between quotes. -/
def escape (c : Char) : String :=
  match c with
  | '"' => "\\\""
  | '\\' => "\\\\"
  | '\n' => "\\n"
  | '\r' => "\\r"
  | '\t' => "\\t"
  | '\x08' => "\\b"
  | '\x0c' => "\\f"
  | c =>
    if c.toNat < 0x20 then
      "\\u00" ++ String.ofList [Text.hexDigit (c.toNat / 16), Text.hexDigit (c.toNat % 16)]
    else c.toString

/-- A text between quotes. -/
def quote (s : String) : String := "\"" ++ String.join (s.toList.map escape) ++ "\""

mutual

/-- The written form of a value. -/
def render : Json → String
  | null => "null"
  | bool b => if b then "true" else "false"
  | int n => toString n
  | decimal written => written
  | text s => quote s
  | list items => "[" ++ ",".intercalate (renderAll items) ++ "]"
  | object fields =>
    let sorted := (renderFields fields).mergeSort fun a b => a.1 ≤ b.1
    "\x7b" ++ ",".intercalate (sorted.map fun (key, value) => quote key ++ ":" ++ value) ++ "\x7d"

def renderAll : List Json → List String
  | [] => []
  | item :: items => item.render :: renderAll items

def renderFields : List (String × Json) → List (String × String)
  | [] => []
  | (key, value) :: fields => (key, value.render) :: renderFields fields

end

end Json
end CoreBridge
