import CoreBridge.Core.Entry
import CoreBridge.Wire.Notation

/-!
# Return values in JSON

Tools name the types that entry points return and show returned values in JSON:
scalars as on the wire, addresses as text, and a buffer by its bytes and by
whether it is the null buffer.
-/
namespace CoreBridge.Core

/-- The return type with this name. -/
def ReturnType.ofName? : String → Option ReturnType
  | "unit" => some .unit
  | "buffer" => some .buffer
  | "bool" => some .bool
  | "pointer" | "const_pointer" => some .pointer
  | name => (Wire.Scalar.names.lookup name).map .scalar

namespace Returned

/-- The returned value of a type that a JSON value stands for. -/
def ofJson? (t : ReturnType) (j : Json) : Option Returned :=
  match t with
  | .unit => some .unit
  | .bool => j.bool?.map .bool
  | .pointer => (Wire.numberOf? j).map fun address => .pointer address.toNat
  | .buffer => (Wire.bytesOf? j).map fun bytes => .buffer (.allocated ⟨0, bytes, bytes.length⟩)
  | .scalar k => (k.ofJson? j).bind fun
    | .scalar k word => some (.scalar k word)
    | _ => none

/-- The JSON form of a returned value. -/
def toJson : Returned → Json
  | scalar k word => k.toJson word
  | bool b => .bool b
  | unit => .null
  | buffer b => .object [("null", .bool b.isNull), ("hex", .text b.bytes.toHex)]
  | pointer address => .text (toString address)

end Returned
end CoreBridge.Core
