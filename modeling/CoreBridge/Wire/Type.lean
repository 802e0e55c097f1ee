/-!
# The types of the wire format

Types are built from scalars, truth values, text and times by optional values,
sequences, maps and declared names. A schema declares the names: a record lists
its fields, an enumeration its variants with their discriminants.

A declaration may use the names declared before it anywhere, and every name of
the schema, its own included, behind a count, that is as the element of a
sequence or the key or value of a map. So a type can contain itself only where
each further level costs the four bytes of a count.
-/
namespace CoreBridge.Wire

/-- The fixed-width scalars; a floating point number is its bit pattern. -/
inductive Scalar where
  | i8 | u8 | i16 | u16 | i32 | u32 | i64 | u64 | f32 | f64
deriving DecidableEq, Repr

/-- The width of a scalar in bytes. -/
def Scalar.size : Scalar → Nat
  | i8 | u8 => 1
  | i16 | u16 => 2
  | i32 | u32 | f32 => 4
  | i64 | u64 | f64 => 8

/-- Whether the bits of a scalar are read as a number in two's complement. -/
def Scalar.isSigned : Scalar → Bool
  | i8 | i16 | i32 | i64 => true
  | u8 | u16 | u32 | u64 | f32 | f64 => false

/-- The bits of a scalar of kind `k`. -/
abbrev Scalar.Word (k : Scalar) := BitVec (8 * k.size)

/-- The number that the bits of a scalar stand for. -/
def Scalar.toInt (k : Scalar) (word : k.Word) : Int :=
  if k.isSigned then word.toInt else word.toNat

/-- How a map keeps its entries: by ascending key, or in no order of its own. -/
inductive MapKind where
  | ordered
  | hashed
deriving DecidableEq, Repr

inductive Ty where
  | scalar (k : Scalar)
  | bool
  | text
  | duration
  | timestamp
  | option (content : Ty)
  | seq (element : Ty)
  | map (kind : MapKind) (key value : Ty)
  | named (name : String)
deriving DecidableEq, Repr

structure Field where
  name : String
  type : Ty
deriving DecidableEq, Repr

/-- One alternative of an enumeration, told by its discriminant. -/
structure Variant where
  name : String
  discriminant : Scalar.i32.Word
  fields : List Field
deriving DecidableEq, Repr

inductive Decl where
  | record (fields : List Field)
  | enumeration (variants : List Variant)
deriving DecidableEq, Repr

/-- Declarations of type names, the latest first. -/
abbrev Schema := List (String × Decl)

namespace Schema

/-- What `name` stands for and the declarations it may use outside a count; a
name that is not declared stands for the record without fields. -/
def find : Schema → String → Decl × Schema
  | [], _ => (.record [], [])
  | (declared, decl) :: earlier, name =>
    if declared = name then (decl, earlier) else find earlier name

/-- The declarations in scope after `declarations`, which are given in order. -/
def ofDeclarations (declarations : List (String × Decl)) : Schema := declarations.reverse

end Schema

/-- The first variant with this discriminant, and its position. -/
def findVariant (discriminant : Scalar.i32.Word) (variants : List Variant) :
    Option (Nat × Variant) :=
  (variants.zipIdx.find? (·.1.discriminant = discriminant)).map fun (variant, i) => (i, variant)

end CoreBridge.Wire
