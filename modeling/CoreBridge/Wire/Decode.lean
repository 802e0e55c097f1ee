import CoreBridge.Wire.Order
import CoreBridge.Wire.Reader

/-!
# Reading values by type

A type determines a reader once it is known how to read what stands behind a
count and how to read a declared name. The declarations of a schema tie the
second knot, one after the other. The first is tied by counting levels: every
level behind a count costs at least the bytes of that count, so a buffer never
holds more levels than bytes.
-/
namespace CoreBridge.Wire

variable (element : Ty → Reader Value)

/-- The entries of a map, added in the order they are read. -/
def readEntries (kind : MapKind) (key value : Reader Value) (count : Nat) : Reader Entries := do
  let entries ← Reader.repeated count do
    let k ← key
    let v ← value
    return (k, v)
  return Entries.ofList kind entries

/-- Reads a value of type `t`, with `element` for the types behind a count and
`named` for the declared names. -/
def Ty.readWith (named : String → Reader Value) : Ty → Reader Value
  | .scalar k => return .scalar k (← Reader.scalar k)
  | .bool => return .bool (← Reader.bool)
  | .text => return .text (← Reader.text)
  | .duration => return .duration (← Reader.duration)
  | .timestamp => return .timestamp (← Reader.timestamp)
  | .option t => do
    if ← Reader.presence then return .present (← t.readWith named) else return .absent
  | .seq t => do
    let count ← Reader.length
    return .seq (← Reader.repeated count (element t))
  | .map kind k v => do
    let count ← Reader.length
    return .map kind (← readEntries kind (element k) (element v) count)
  | .named name => named name

/-- Reads the fields in order. -/
def readFields (named : String → Reader Value) : List Field → Reader (List Value)
  | [] => return []
  | field :: fields => do
    let v ← field.type.readWith element named
    let vs ← readFields named fields
    return v :: vs

/-- Reads a value of the declared type called `name`. -/
def Decl.readWith (named : String → Reader Value) (name : String) : Decl → Reader Value
  | .record fields => return .record (← readFields element named fields)
  | .enumeration variants => do
    let discriminant ← Reader.scalar .i32
    match findVariant discriminant variants with
    | some (position, variant) =>
      return .variant position discriminant (← readFields element named variant.fields)
    | none => Reader.fail (.unknownDiscriminant name discriminant.toInt)

namespace Schema

/-- Reads a value of the type `name` stands for; a declaration sees those before it. -/
def readNamed : Schema → String → Reader Value
  | [], _ => return .record []
  | (declared, decl) :: earlier, name =>
    if declared = name then decl.readWith element (readNamed earlier) name
    else readNamed earlier name

/-- Reads a value of type `t` from a buffer of at most `levels` bytes. -/
def readWithin (schema : Schema) : (levels : Nat) → Ty → Reader Value
  | 0 =>
    -- An empty buffer holds no count, so nothing behind one is ever read.
    let element := fun _ => Reader.fail (.unexpectedEnd 4 0)
    Ty.readWith element (schema.readNamed element)
  | levels + 1 =>
    let element := readWithin schema levels
    Ty.readWith element (schema.readNamed element)

/-- Reads a value of type `t`. -/
def read (schema : Schema) (t : Ty) : Reader Value := fun bytes =>
  schema.readWithin bytes.length t bytes

/-- The value of type `t` whose wire form is all of `bytes`. -/
def decode (schema : Schema) (t : Ty) (bytes : Bytes) : Except DecodeError Value :=
  let whole : Reader Value := do
    let v ← schema.read t
    Reader.finish
    return v
  (whole bytes).1

end Schema
end CoreBridge.Wire
