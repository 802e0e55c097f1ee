import CoreBridge.Json.Basic
import CoreBridge.Wire.Order

/-!
# Types and values in JSON

Tools name types and show values in JSON. Numbers of up to 32 bits are JSON
numbers and those of 64 bits are texts, floating point numbers the digits of
their bits, absent values null and present ones an object, maps lists of pairs
by ascending key, and declared types objects with one field per field. A number
is read in either form, and a list of a text and a count stands for the text
repeated.
-/
namespace CoreBridge.Wire

def Scalar.names : List (String × Scalar) :=
  [("i8", i8), ("u8", u8), ("i16", i16), ("u16", u16), ("i32", i32), ("u32", u32),
    ("i64", i64), ("u64", u64), ("f32", f32), ("f64", f64)]

/-- The number that a JSON number or a text of digits stands for. -/
def numberOf? : Json → Option Int
  | .int n => some n
  | .text s => s.toInt?
  | _ => none

/-- The text that a JSON text, or one with a count of repetitions, stands for. -/
def textOf? : Json → Option String
  | .text s => some s
  | .list [.text s, count] => do
    let count ← numberOf? count
    return String.join (List.replicate count.toNat s)
  | _ => none

/-- The pieces that a text of digits stands for, or a list of such texts with
counts of repetitions. -/
def piecesOf? : Json → Option (List (Nat × Bytes))
  | .text digits => do return [(1, ← Bytes.ofHex? digits)]
  | .list pieces => pieces.mapM fun
    | .list [.text digits, count] => do
      return ((← numberOf? count).toNat, ← Bytes.ofHex? digits)
    | _ => none
  | _ => none

/-- The bytes of the pieces, one after the other. -/
def bytesOf? (j : Json) : Option Bytes :=
  (piecesOf? j).map fun pieces =>
    pieces.flatMap fun (count, bytes) => (List.replicate count bytes).flatten

/-- The number of these bytes, without laying them out. -/
def byteCount? (j : Json) : Option Nat :=
  (piecesOf? j).map fun pieces =>
    pieces.foldr (fun (count, bytes) rest => count * bytes.length + rest) 0

theorem byteCount?_eq (j : Json) : byteCount? j = (bytesOf? j).map List.length := by
  rw [byteCount?, bytesOf?, Option.map_map]
  congr 1
  funext pieces
  induction pieces with
  | nil => rfl
  | cons piece pieces ih =>
    rw [List.foldr_cons, ih, Function.comp_apply, Function.comp_apply, List.flatMap_cons,
      List.length_append]
    simp

/-- The type with this name. -/
def Ty.ofName (name : String) : Ty :=
  match Scalar.names.lookup name with
  | some k => .scalar k
  | none =>
    if name = "bool" then .bool
    else if name = "string" then .text
    else if name = "duration" then .duration
    else if name = "systemtime" then .timestamp
    else .named name

/-- The type that a JSON value names. -/
def Ty.ofJson? : Json → Option Ty
  | .text name => some (ofName name)
  | .object [("option", t)] => do return .option (← ofJson? t)
  | .object [("vec", t)] => do return .seq (← ofJson? t)
  | .object [("map", .list [k, v])] => do return .map .ordered (← ofJson? k) (← ofJson? v)
  | .object [("hashmap", .list [k, v])] => do return .map .hashed (← ofJson? k) (← ofJson? v)
  | _ => none

/-- The length of time that the fields of an object stand for. -/
def Duration.ofJson? (j : Json) : Option Duration := do
  let secs ← j.get? "secs" >>= numberOf?
  let nanos ← j.get? "nanos" >>= numberOf?
  if h : secs.toNat < 0x10000000000000000 ∧ nanos.toNat < 1000000000 then
    some ⟨secs.toNat, nanos.toNat, h.1, h.2⟩
  else none

/-- The time that the fields of an object stand for, as an offset from the epoch. -/
def Timestamp.ofJson? (j : Json) : Option Timestamp := do
  let span ← Duration.ofJson? j
  ofOffset? (if j.get? "neg" >>= Json.bool? = some true then .before span else .after span)

/-- The scalar of kind `k` that a JSON value stands for. -/
def Scalar.ofJson? (k : Scalar) (j : Json) : Option Value :=
  match k with
  | .f32 | .f64 => do
    let bits ← j.text? >>= fun digits => Text.hexNumber? digits.toList
    return .scalar k (.ofNat _ bits)
  | k => (numberOf? j).map (Value.ofInt k)

mutual

/-- The value of type `t` that a JSON value stands for, if `fuel` levels suffice. -/
def Value.ofJsonWithin? (schema : Schema) : (fuel : Nat) → Ty → Json → Option Value
  | 0, _, _ => none
  | fuel + 1, t, j =>
    match t with
    | .scalar k => k.ofJson? j
    | .bool => j.bool?.map .bool
    | .text => (textOf? j).map .text
    | .duration => (Duration.ofJson? j).map .duration
    | .timestamp => (Timestamp.ofJson? j).map .timestamp
    | .option t => match j.get? "some" with
      | some v => (Value.ofJsonWithin? schema fuel t v).map .present
      | none => some .absent
    | .seq t => do return .seq (← (← j.items?).mapM (Value.ofJsonWithin? schema fuel t))
    | .map kind k v => do
      let entries ← (← j.items?).mapM fun
        | .list [key, value] => do
          let key ← Value.ofJsonWithin? schema fuel k key
          let value ← Value.ofJsonWithin? schema fuel v value
          return (key, value)
        | _ => none
      return .map kind (Entries.ofList kind entries).sorted
    | .named name => match (schema.find name).1 with
      | .record fields => do return .record (← fieldsOfJson? schema fuel fields j)
      | .enumeration variants => do
        let chosen ← j.get? "variant" >>= Json.text?
        let (variant, position) ← variants.zipIdx.find? (·.1.name = chosen)
        return .variant position variant.discriminant (← fieldsOfJson? schema fuel variant.fields j)

/-- The values of the fields that a JSON object lists. -/
def fieldsOfJson? (schema : Schema) : (fuel : Nat) → List Field → Json → Option (List Value)
  | 0, _, _ => none
  | fuel + 1, fields, j =>
    fields.mapM fun field => j.get? field.name >>= Value.ofJsonWithin? schema fuel field.type

end

/-- The value of type `t` that a JSON value stands for. A declared type takes
two levels per level of the JSON value, and any other at most one. -/
def Value.ofJson? (schema : Schema) (t : Ty) (j : Json) : Option Value :=
  Value.ofJsonWithin? schema (2 * j.depth + 2) t j

/-- The JSON form of a scalar. -/
def Scalar.toJson (k : Scalar) (word : k.Word) : Json :=
  if k = .f32 ∨ k = .f64 then .text (Bytes.ofNat k.size word.toNat).toHex
  else if k.size = 8 then .text (toString (k.toInt word))
  else .int (k.toInt word)

/-- The fields that show a length of time. -/
def Duration.fields (span : Duration) : List (String × Json) :=
  [("secs", .text (toString span.secs)), ("nanos", .int span.nanos)]

/-- The fields that show an offset from the epoch. -/
def Offset.fields : Offset → List (String × Json)
  | .after span => ("neg", .bool false) :: span.fields
  | .before span => ("neg", .bool true) :: span.fields

mutual

/-- The JSON form of a value of type `t`. -/
def Value.toJson (schema : Schema) : Value → (t : Ty) → Json
  | .scalar k word, _ => k.toJson word
  | .bool b, _ => .bool b
  | .text s, _ => .text s
  | .duration span, _ => .object span.fields
  | .timestamp t, _ => .object t.sinceEpoch.fields
  | .present v, .option t => .object [("some", v.toJson schema t)]
  | .seq vs, .seq t => .list (Value.allToJson schema vs t)
  | .map _ es, .map _ k v =>
    let entries := Value.entriesToJson schema es k v
    .list ((entries.mergeSort fun a b => compare a.1 b.1 != .gt).map (·.2))
  | .record vs, .named name =>
    match (schema.find name).1 with
    | .record fields => .object (Value.fieldsToJson schema vs fields)
    | .enumeration _ => .null
  | .variant position _ vs, .named name =>
    match (schema.find name).1 with
    | .record _ => .null
    | .enumeration variants =>
      match variants[position]? with
      | some chosen =>
        .object (("variant", .text chosen.name) :: Value.fieldsToJson schema vs chosen.fields)
      | none => .null
  | _, _ => .null

def Value.allToJson (schema : Schema) : List Value → Ty → List Json
  | [], _ => []
  | v :: vs, t => v.toJson schema t :: Value.allToJson schema vs t

/-- The JSON forms of the entries of a map, with the ranks of their keys. -/
def Value.entriesToJson (schema : Schema) : List (Value × Value) → Ty → Ty → List (List Int × Json)
  | [], _, _ => []
  | (key, value) :: es, k, v =>
    (key.rank, .list [key.toJson schema k, value.toJson schema v]) ::
      Value.entriesToJson schema es k v

def Value.fieldsToJson (schema : Schema) : List Value → List Field → List (String × Json)
  | v :: vs, field :: fields =>
    (field.name, v.toJson schema field.type) :: Value.fieldsToJson schema vs fields
  | _, _ => []

end

end CoreBridge.Wire
