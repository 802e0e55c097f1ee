import CoreBridge.Wire.Type

/-!
# Specimens of declared types

One schema with every form a declaration can take: records with and without
fields, enumerations with discriminants out of order, negative and extreme, and
types that contain themselves through sequences.
-/
namespace CoreBridge.Wire.Specimens

/-- The variants of an enumeration, each a name, a discriminant and its fields. -/
def enumeration (variants : List (String × Int × List Field)) : Decl :=
  .enumeration (variants.map fun (name, discriminant, fields) =>
    ⟨name, BitVec.ofInt _ discriminant, fields⟩)

def emptyDecl : Decl := .record []

def point : Decl := .record [⟨"x", .scalar .i32⟩, ⟨"y", .scalar .i32⟩]

def scalars : Decl := .record [
  ⟨"a", .scalar .i8⟩, ⟨"b", .scalar .u8⟩, ⟨"c", .scalar .i16⟩, ⟨"d", .scalar .u16⟩,
  ⟨"e", .scalar .i32⟩, ⟨"f", .scalar .u32⟩, ⟨"g", .scalar .i64⟩, ⟨"h", .scalar .u64⟩,
  ⟨"i", .scalar .f32⟩, ⟨"j", .scalar .f64⟩, ⟨"k", .bool⟩, ⟨"l", .text⟩]

/-- A labelled tree; it contains itself as the element of a sequence. -/
def tree : Decl := .record [⟨"label", .text⟩, ⟨"children", .seq (.named "Tree")⟩]

def shape : Decl := enumeration [("Empty", 1, []), ("Square", 2, [⟨"side", .scalar .u32⟩])]

def sparse : Decl := enumeration [
  ("Zero", 0, []),
  ("Low", 7, [⟨"a", .scalar .u8⟩, ⟨"b", .option .text⟩]),
  ("Minus", -3, [⟨"v", .scalar .i64⟩]),
  ("Max", 2147483647, [⟨"items", .seq (.scalar .u16)⟩])]

/-- An expression; a sum contains its terms as a sequence. -/
def expr : Decl := enumeration [
  ("Num", 1, [⟨"value", .scalar .i64⟩]),
  ("Add", 2, [⟨"terms", .seq (.named "Expr")⟩]),
  ("Var", 3, [⟨"name", .text⟩, ⟨"at", .option (.named "Point")⟩])]

def filter : Decl := .record [⟨"limit", .scalar .u32⟩, ⟨"kinds", .seq .text⟩]

def lookupArgs : Decl := .record [
  ⟨"room", .text⟩, ⟨"since", .option (.scalar .i64)⟩, ⟨"filter", .named "Filter"⟩]

def roomInfo : Decl := .record [⟨"name", .text⟩, ⟨"members", .scalar .u32⟩]

def roomError : Decl := enumeration [
  ("Unauthorized", 1, []),
  ("NotFound", 2, [⟨"message", .text⟩]),
  ("Invalid", 3, [⟨"field", .text⟩, ⟨"reason", .text⟩])]

def greetError : Decl := enumeration [
  ("EmptyName", 1, []),
  ("Rejected", 2, [⟨"reason", .text⟩])]

/-- All specimens, each after those it uses outside a count. -/
def schema : Schema := .ofDeclarations [
  ("Empty", emptyDecl), ("Point", point), ("Scalars", scalars), ("Tree", tree),
  ("Filter", filter), ("LookupArgs", lookupArgs), ("RoomInfo", roomInfo),
  ("Shape", shape), ("Sparse", sparse), ("Expr", expr),
  ("RoomError", roomError), ("GreetError", greetError)]

end CoreBridge.Wire.Specimens
