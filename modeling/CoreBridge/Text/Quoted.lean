import CoreBridge.Text.Unseen

/-!
# Quoted text

Text is shown for debugging between double quotes. Quotes, backslashes and
characters that cannot be seen, or would merge with the one before, are escaped.
-/
namespace CoreBridge.Text

/-- The digits of `n` to base 16. -/
def hexadecimal (n : Nat) : String := String.ofList (Nat.toDigits 16 n)

/-- How one character is shown inside the quotes. -/
def quoteChar (c : Char) : String :=
  match c with
  | '"' => "\\\""
  | '\\' => "\\\\"
  | '\n' => "\\n"
  | '\r' => "\\r"
  | '\t' => "\\t"
  | '\x00' => "\\0"
  | c =>
    if isUnseen c then "\\u\x7b" ++ hexadecimal c.toNat ++ "\x7d" else c.toString

/-- The text between quotes. -/
def quoted (s : String) : String := "\"" ++ String.join (s.toList.map quoteChar) ++ "\""

end CoreBridge.Text
