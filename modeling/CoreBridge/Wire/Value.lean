import CoreBridge.Bytes
import CoreBridge.Wire.Timestamp
import CoreBridge.Wire.Type

/-!
# The values of the wire format

A value carries everything its wire form depends on, so it can be written
without its type. `HasType` says which values belong to a type; the position of
a variant and its discriminant are tied together there.
-/
namespace CoreBridge.Wire

inductive Value where
  | scalar (k : Scalar) (word : k.Word)
  | bool (b : Bool)
  | text (s : String)
  | duration (span : Duration)
  | timestamp (t : Timestamp)
  | absent
  | present (v : Value)
  | seq (elements : List Value)
  | map (kind : MapKind) (entries : List (Value × Value))
  | record (fields : List Value)
  | variant (position : Nat) (discriminant : Scalar.i32.Word) (fields : List Value)

namespace Value

/-- The scalar of kind `k` that stands for `n`, modulo the width of the kind. -/
def ofInt (k : Scalar) (n : Int) : Value := .scalar k (BitVec.ofInt _ n)

instance : Inhabited Value := ⟨.absent⟩

end Value

mutual

/-- Whether `v` is a value of type `t`, where `scope` holds the names usable
outside a count and `schema` those usable behind one. -/
def Value.HasType (schema : Schema) (scope : Schema) : Value → Ty → Prop
  | .scalar k _, t => t = .scalar k
  | .bool _, t => t = .bool
  | .text _, t => t = .text
  | .duration _, t => t = .duration
  | .timestamp _, t => t = .timestamp
  | .absent, t => ∃ s, t = .option s
  | .present v, t => ∃ s, t = .option s ∧ v.HasType schema scope s
  | .seq vs, t => ∃ s, t = .seq s ∧ Value.AllHaveType schema vs s
  | .map kind es, t => ∃ k v, t = .map kind k v ∧ Value.EntriesHaveType schema es k v
  | .record vs, t => ∃ name fields earlier,
      t = .named name ∧ scope.find name = (.record fields, earlier) ∧
        Value.FieldsHaveType schema earlier vs fields
  | .variant i d vs, t => ∃ name variants earlier variant,
      t = .named name ∧ scope.find name = (.enumeration variants, earlier) ∧
        variants[i]? = .some variant ∧ variant.discriminant = d ∧
        Value.FieldsHaveType schema earlier vs variant.fields

/-- Whether every one of the values is of type `t`. -/
def Value.AllHaveType (schema : Schema) : List Value → Ty → Prop
  | [], _ => True
  | v :: vs, t => v.HasType schema schema t ∧ Value.AllHaveType schema vs t

/-- Whether every key is of type `k` and every value of type `v`. -/
def Value.EntriesHaveType (schema : Schema) : List (Value × Value) → Ty → Ty → Prop
  | [], _, _ => True
  | (key, value) :: es, k, v =>
    key.HasType schema schema k ∧ value.HasType schema schema v ∧
      Value.EntriesHaveType schema es k v

/-- Whether the values are those of the fields, one for one. -/
def Value.FieldsHaveType (schema : Schema) (scope : Schema) : List Value → List Field → Prop
  | [], [] => True
  | v :: vs, f :: fs => v.HasType schema scope f.type ∧ Value.FieldsHaveType schema scope vs fs
  | _, _ => False

end

namespace Value

variable {schema scope : Schema} {t : Ty}

@[simp] theorem hasType_scalar {k : Scalar} {word : k.Word} :
    (scalar k word).HasType schema scope t ↔ t = .scalar k := Iff.rfl

@[simp] theorem hasType_bool {b : Bool} : (bool b).HasType schema scope t ↔ t = .bool := Iff.rfl

@[simp] theorem hasType_text {s : String} : (text s).HasType schema scope t ↔ t = .text := Iff.rfl

@[simp] theorem hasType_duration {span : Duration} :
    (duration span).HasType schema scope t ↔ t = .duration := Iff.rfl

@[simp] theorem hasType_timestamp {time : Timestamp} :
    (timestamp time).HasType schema scope t ↔ t = .timestamp := Iff.rfl

@[simp] theorem hasType_absent : absent.HasType schema scope t ↔ ∃ s, t = .option s := Iff.rfl

@[simp] theorem hasType_present {v : Value} : (present v).HasType schema scope t ↔
    ∃ s, t = .option s ∧ v.HasType schema scope s := Iff.rfl

@[simp] theorem hasType_seq {vs : List Value} : (seq vs).HasType schema scope t ↔
    ∃ s, t = .seq s ∧ AllHaveType schema vs s := Iff.rfl

@[simp] theorem hasType_map {kind : MapKind} {es : List (Value × Value)} :
    (map kind es).HasType schema scope t ↔
      ∃ k v, t = .map kind k v ∧ EntriesHaveType schema es k v := Iff.rfl

@[simp] theorem hasType_record {vs : List Value} : (record vs).HasType schema scope t ↔
    ∃ name fields earlier, t = .named name ∧ scope.find name = (.record fields, earlier) ∧
      FieldsHaveType schema earlier vs fields := Iff.rfl

@[simp] theorem hasType_variant {i : Nat} {d : Scalar.i32.Word} {vs : List Value} :
    (variant i d vs).HasType schema scope t ↔ ∃ name variants earlier variant,
      t = .named name ∧ scope.find name = (.enumeration variants, earlier) ∧
        variants[i]? = .some variant ∧ variant.discriminant = d ∧
        FieldsHaveType schema earlier vs variant.fields := Iff.rfl

end Value

end CoreBridge.Wire
