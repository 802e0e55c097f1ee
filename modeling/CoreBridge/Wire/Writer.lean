import CoreBridge.Wire.Error
import CoreBridge.Wire.Value

/-!
# Writing values

Numbers are written most significant byte first. Text and byte strings carry
their length and sequences and maps their count in four bytes in front, an
optional value one byte that says whether it is there, an enumeration its
discriminant.

A write that fails keeps what was written before the part that has no wire
form; `Emission` records both the bytes and the failure.
-/
namespace CoreBridge.Wire

/-- The bytes that a write appends, and the failure that cut it short, if any. -/
structure Emission where
  bytes : Bytes
  failure : Option EncodeError
deriving DecidableEq, Repr

namespace Emission

/-- Appends nothing. -/
def empty : Emission := ⟨[], none⟩

/-- Appends `bytes`. -/
def raw (bytes : Bytes) : Emission := ⟨bytes, none⟩

/-- Appends nothing and fails. -/
def fail (error : EncodeError) : Emission := ⟨[], some error⟩

/-- Writes `second` after `first`, unless `first` failed. -/
def append (first second : Emission) : Emission :=
  match first.failure with
  | some _ => first
  | none => ⟨first.bytes ++ second.bytes, second.failure⟩

instance : Append Emission := ⟨append⟩

@[simp] theorem raw_append (bytes : Bytes) (e : Emission) :
    raw bytes ++ e = ⟨bytes ++ e.bytes, e.failure⟩ := rfl

@[simp] theorem fail_append (error : EncodeError) (e : Emission) : fail error ++ e = fail error :=
  rfl

@[simp] theorem empty_append (e : Emission) : empty ++ e = e := rfl

/-- The low bytes of a number. -/
def number (width n : Nat) : Emission := raw (Bytes.ofNat width n)

/-- The bits of a scalar. -/
def scalar (k : Scalar) (word : k.Word) : Emission := number k.size word.toNat

/-- A signed number, in two's complement. -/
def int (k : Scalar) (n : Int) : Emission := scalar k (BitVec.ofInt _ n)

def bool (b : Bool) : Emission := number 1 b.toNat

/-- A length or count, which has to fit in 31 bits. -/
def length (n : Nat) : Emission :=
  if n < 0x80000000 then number 4 n else fail (.lengthOverflow n)

/-- Bytes after their length. -/
def bytesWithLength (bytes : Bytes) : Emission := length bytes.length ++ raw bytes

def text (s : String) : Emission := bytesWithLength (Bytes.ofText s)

def duration (span : Duration) : Emission := number 8 span.secs ++ number 4 span.nanos

def timestamp (t : Timestamp) : Emission :=
  match t.wireFields with
  | .error error => fail error
  | .ok (secs, nanos) => int .i64 secs ++ number 4 nanos

end Emission

mutual

/-- What writing a value appends. -/
def Value.emit : Value → Emission
  | .scalar k word => .scalar k word
  | .bool b => .bool b
  | .text s => .text s
  | .duration span => .duration span
  | .timestamp t => .timestamp t
  | .absent => .number 1 0
  | .present v => .number 1 1 ++ v.emit
  | .seq vs => .length vs.length ++ Value.emitAll vs
  | .map _ es => .length es.length ++ Value.emitEntries es
  | .record vs => Value.emitAll vs
  | .variant _ discriminant vs => .scalar .i32 discriminant ++ Value.emitAll vs

/-- The values one after the other. -/
def Value.emitAll : List Value → Emission
  | [] => .empty
  | v :: vs => v.emit ++ Value.emitAll vs

/-- The entries of a map, each key before its value. -/
def Value.emitEntries : List (Value × Value) → Emission
  | [] => .empty
  | (key, value) :: es => key.emit ++ (value.emit ++ Value.emitEntries es)

end

/-- The wire form of a value. -/
def encode (v : Value) : Except EncodeError Bytes :=
  match v.emit with
  | ⟨_, some error⟩ => .error error
  | ⟨bytes, none⟩ => .ok bytes

/-- A buffer that values are appended to. -/
structure Writer where
  bytes : Bytes := []
deriving DecidableEq, Repr

namespace Writer

/-- Appends what `emission` produced and reports its failure. -/
def put (w : Writer) (emission : Emission) : Except EncodeError Unit × Writer :=
  let outcome := match emission.failure with
    | some error => .error error
    | none => .ok ()
  (outcome, ⟨w.bytes ++ emission.bytes⟩)

/-- Appends the wire form of `v`, or as much of it as can be written. -/
def write (w : Writer) (v : Value) : Except EncodeError Unit × Writer := w.put v.emit

end Writer
end CoreBridge.Wire
