import CoreBridge.Text.Hex

/-!
# Plain scalars that stand for something else

A plain scalar may stand for nothing, a truth value or a number instead of
text. A number starts with no superfluous zero; digits that do are text. Whole
numbers may be written to base sixteen, eight or two.
-/
namespace CoreBridge.Yaml

/-- The value of digits to a base, if there are any and all are below the base. -/
def digits? (base : Nat) (digits : List Char) : Option Nat :=
  if digits.isEmpty then none
  else digits.foldlM (fun n c => do
    let digit ← Text.hexValue? c
    if digit < base then some (base * n + digit) else none) 0

/-- The value of digits after a mark that names their base. -/
def marked? : List Char → Option Nat
  | '0' :: 'x' :: digits => digits? 16 digits
  | '0' :: 'o' :: digits => digits? 8 digits
  | '0' :: 'b' :: digits => digits? 2 digits
  | _ => none

/-- Whether digits have a superfluous zero in front. -/
def hasLeadingZero : List Char → Bool
  | '0' :: rest => !rest.isEmpty && rest.all Char.isDigit
  | _ => false

/-- Whether a text, after a sign at most, is digits that are no number. -/
def isPadded : List Char → Bool
  | '+' :: rest | '-' :: rest => hasLeadingZero rest
  | cs => hasLeadingZero cs

/-- A plus sign in front is dropped. -/
def dropPlus : List Char → List Char
  | '+' :: rest => rest
  | cs => cs

/-- The number without sign that a plain scalar stands for, if it is below `limit`. -/
def unsigned? (limit : Nat) (s : String) : Option Nat :=
  let cs := dropPlus s.toList
  match (marked? cs).filter (· < limit) with
  | some n => some n
  | none => if isPadded s.toList then none else (digits? 10 cs).filter (· < limit)

/-- Whether a text is a whole number with a mark for its base, of at most 128 bits. -/
def isMarkedNumber (s : String) : Bool :=
  (match s.toList with
    | '-' :: cs => (marked? cs).filter (· ≤ 0x80000000000000000000000000000000)
    | cs => (marked? (dropPlus cs)).filter (· < 0x100000000000000000000000000000000)).isSome

/-- The digits of a decimal, without its point, and the power of ten to scale them by. -/
structure Decimal where
  digits : Nat
  exponent : Int
deriving DecidableEq, Repr

namespace Decimal

/-- The exponent that follows the digits. -/
def exponent? : List Char → Option Int
  | [] => some 0
  | c :: rest =>
    if c = 'e' ∨ c = 'E' then
      match rest with
      | '-' :: digits => (digits? 10 digits).map fun n => -(n : Int)
      | digits => (digits? 10 (dropPlus digits)).map fun n => (n : Int)
    else none

/-- The decimal without sign that a text spells. Digits may be missing on one
side of the point. -/
def ofChars? (cs : List Char) : Option Decimal :=
  let whole := cs.takeWhile Char.isDigit
  let (fraction, rest) := match cs.dropWhile Char.isDigit with
    | '.' :: rest => (rest.takeWhile Char.isDigit, rest.dropWhile Char.isDigit)
    | rest => ([], rest)
  do
    let digits ← digits? 10 (whole ++ fraction)
    let exponent ← exponent? rest
    return ⟨digits, exponent - fraction.length⟩

/-- Values from here on are rounded to infinity in double precision. -/
def overflow : Nat := Nat.pow 2 1024 - Nat.pow 2 970

/-- Whether the value is finite in double precision. The length of the digits
decides unless the value has between one and 310 digits before the point. -/
def isFinite (d : Decimal) : Bool :=
  let places := ((Nat.toDigits 10 d.digits).length : Int) + d.exponent
  if d.digits = 0 ∨ places < 0 then true
  else if 310 < places then false
  else if 0 ≤ d.exponent then d.digits * Nat.pow 10 d.exponent.toNat < overflow
  else d.digits < overflow * Nat.pow 10 (-d.exponent).toNat

end Decimal

/-- Whether a text spells a number in double precision, infinities and the
undefined number included. -/
def isFloat (s : String) : Bool :=
  let magnitude := match s.toList with
    | '+' :: cs | '-' :: cs => cs
    | cs => cs
  [".inf", ".Inf", ".INF"].contains (String.ofList magnitude) ||
    [".nan", ".NaN", ".NAN"].contains s ||
    (Decimal.ofChars? magnitude).any Decimal.isFinite

/-- The words that stand for nothing or a truth value. -/
def reservedWords : List String :=
  ["null", "Null", "NULL", "~", "true", "True", "TRUE", "false", "False", "FALSE"]

/-- Whether a plain scalar with this text would stand for something other than the text. -/
def isAmbiguous (s : String) : Bool :=
  s.isEmpty || reservedWords.contains s || isMarkedNumber s || isPadded s.toList || isFloat s

end CoreBridge.Yaml
