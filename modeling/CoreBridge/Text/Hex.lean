import CoreBridge.Bytes

/-!
# Bytes as text

Bytes are written with two lower-case digits each, the high half first.
-/
namespace CoreBridge

namespace Text

/-- The lower-case digit of a number below sixteen. -/
def hexDigit (n : Nat) : Char := Char.ofNat (if n < 10 then 48 + n else 87 + n)

/-- The number that a digit of either case stands for. -/
def hexValue? (c : Char) : Option Nat :=
  if '0' ≤ c ∧ c ≤ '9' then some (c.toNat - 48)
  else if 'a' ≤ c ∧ c ≤ 'f' then some (c.toNat - 87)
  else if 'A' ≤ c ∧ c ≤ 'F' then some (c.toNat - 55)
  else none

/-- The number with these digits to base sixteen, the first being the highest. -/
def hexNumber? (digits : List Char) : Option Nat :=
  digits.foldlM (fun n c => (hexValue? c).map (16 * n + ·)) 0

end Text

namespace Bytes

/-- The bytes as digits. -/
def toHex (bytes : Bytes) : String :=
  String.ofList (bytes.flatMap fun byte =>
    [Text.hexDigit (byte.toNat / 16), Text.hexDigit (byte.toNat % 16)])

/-- The bytes that pairs of digits stand for. -/
def ofHexChars? : List Char → Option Bytes
  | [] => some []
  | high :: low :: rest => do
    let byte ← Text.hexNumber? [high, low]
    return UInt8.ofNat byte :: (← ofHexChars? rest)
  | [_] => none

/-- The bytes that a text of digits stands for. -/
def ofHex? (digits : String) : Option Bytes := ofHexChars? digits.toList

end Bytes
end CoreBridge
