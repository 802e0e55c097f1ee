import CoreBridge.Json.Basic

/-!
# Reading JSON

The reader accepts the standard's grammar and nothing else: no blanks but the
four of the standard, no leading zeros, no raw control characters, and only
escapes that spell a character. Minus zero is no integer.
-/
namespace CoreBridge.Json

def isBlank (c : Char) : Bool := c = ' ' || c = '\t' || c = '\n' || c = '\r'

/-- The character after a backslash that stands for another one. -/
def simpleEscape? : Char → Option Nat
  | '"' => some 0x22
  | '\\' => some 0x5C
  | '/' => some 0x2F
  | 'b' => some 0x08
  | 'f' => some 0x0C
  | 'n' => some 0x0A
  | 'r' => some 0x0D
  | 't' => some 0x09
  | _ => none

/-- Reads up to the closing quote, as code points and surrogates; `read` are
those read so far, the last one first. -/
def readUnits (read : List Nat) : List Char → Option (List Nat × List Char)
  | '"' :: rest => some (read.reverse, rest)
  | '\\' :: 'u' :: a :: b :: c :: d :: rest => do
    let point ← Text.hexNumber? [a, b, c, d]
    readUnits (point :: read) rest
  | '\\' :: c :: rest => do
    let point ← simpleEscape? c
    readUnits (point :: read) rest
  | c :: rest => if c.toNat < 0x20 ∨ c = '\\' then none else readUnits (c.toNat :: read) rest
  | [] => none

/-- The characters spelled; a high surrogate and the low one after it spell one. -/
def joinSurrogates (joined : List Char) : List Nat → Option (List Char)
  | [] => some joined.reverse
  | high :: low :: rest =>
    if 0xD800 ≤ high ∧ high < 0xDC00 then
      if 0xDC00 ≤ low ∧ low < 0xE000 then
        let point := 0x10000 + 0x400 * (high - 0xD800) + (low - 0xDC00)
        joinSurrogates (Char.ofNat point :: joined) rest
      else none
    else if 0xDC00 ≤ high ∧ high < 0xE000 then none
    else joinSurrogates (Char.ofNat high :: joined) (low :: rest)
  | [point] =>
    if 0xD800 ≤ point ∧ point < 0xE000 then none else some (Char.ofNat point :: joined).reverse

/-- Reads a text whose opening quote is behind. -/
def readText (cs : List Char) : Option (String × List Char) := do
  let (units, rest) ← readUnits [] cs
  return (String.ofList (← joinSurrogates [] units), rest)

/-- Reads one or more digits. -/
def readDigits (cs : List Char) : Option (List Char × List Char) :=
  let digits := cs.takeWhile Char.isDigit
  if digits.isEmpty then none else some (digits, cs.dropWhile Char.isDigit)

/-- Reads the fraction and the exponent, either of which may be missing. -/
def readTail (cs : List Char) : Option (List Char × List Char) := do
  let (fraction, cs) ← match cs with
    | '.' :: cs => do
      let (digits, cs) ← readDigits cs
      pure ('.' :: digits, cs)
    | cs => pure ([], cs)
  match cs with
  | 'e' :: cs | 'E' :: cs => do
    let (sign, cs) := match cs with
      | '+' :: cs => (['+'], cs)
      | '-' :: cs => (['-'], cs)
      | cs => ([], cs)
    let (digits, cs) ← readDigits cs
    return (fraction ++ 'e' :: sign ++ digits, cs)
  | cs => return (fraction, cs)

/-- Reads a number. -/
def readNumber (cs : List Char) : Option (Json × List Char) := do
  let (negative, cs) := match cs with
    | '-' :: cs => (true, cs)
    | cs => (false, cs)
  let (digits, cs) ← readDigits cs
  if digits.head? = some '0' ∧ digits ≠ ['0'] then none
  let (tail, cs) ← readTail cs
  if tail.isEmpty ∧ ¬(negative ∧ digits = ['0']) then
    let n := Nat.ofDigitChars 10 digits 0
    return (.int (if negative then -(n : Int) else n), cs)
  else return (.decimal ((if negative then "-" else "") ++ String.ofList (digits ++ tail)), cs)

mutual

/-- Reads a value, blanks before it included. -/
def readValue : (fuel : Nat) → List Char → Option (Json × List Char)
  | 0, _ => none
  | fuel + 1, cs =>
    match cs.dropWhile isBlank with
    | 'n' :: 'u' :: 'l' :: 'l' :: rest => some (.null, rest)
    | 't' :: 'r' :: 'u' :: 'e' :: rest => some (.bool true, rest)
    | 'f' :: 'a' :: 'l' :: 's' :: 'e' :: rest => some (.bool false, rest)
    | '"' :: rest => (readText rest).map fun (s, rest) => (.text s, rest)
    | '[' :: rest =>
      match rest.dropWhile isBlank with
      | ']' :: rest => some (.list [], rest)
      | rest => readItems fuel [] rest
    | '\x7b' :: rest =>
      match rest.dropWhile isBlank with
      | '\x7d' :: rest => some (.object [], rest)
      | rest => readFields fuel [] rest
    | cs => readNumber cs

/-- Reads the items of a list up to its end; `read` are those read so far, the last one first. -/
def readItems : (fuel : Nat) → (read : List Json) → List Char → Option (Json × List Char)
  | 0, _, _ => none
  | fuel + 1, read, cs => do
    let (item, cs) ← readValue fuel cs
    match cs.dropWhile isBlank with
    | ',' :: rest => readItems fuel (item :: read) rest
    | ']' :: rest => some (.list (item :: read).reverse, rest)
    | _ => none

/-- Reads the fields of an object up to its end. -/
def readFields : (fuel : Nat) → (read : List (String × Json)) → List Char →
    Option (Json × List Char)
  | 0, _, _ => none
  | fuel + 1, read, cs =>
    match cs.dropWhile isBlank with
    | '"' :: rest => do
      let (key, rest) ← readText rest
      match rest.dropWhile isBlank with
      | ':' :: rest => do
        let (value, rest) ← readValue fuel rest
        match rest.dropWhile isBlank with
        | ',' :: rest => readFields fuel ((key, value) :: read) rest
        | '\x7d' :: rest => some (.object ((key, value) :: read).reverse, rest)
        | _ => none
      | _ => none
    | _ => none

end

/-- The value that a text spells, blanks around it allowed. -/
def parse? (s : String) : Option Json := do
  let cs := s.toList
  let (value, rest) ← readValue (2 * cs.length + 2) cs
  if rest.all isBlank then some value else none

end CoreBridge.Json
