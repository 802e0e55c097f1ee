/-!
# Blank texts

A text is blank if it holds nothing but white space in the sense of the
Unicode property `White_Space`.
-/
namespace CoreBridge.Text

/-- The ranges of the property `White_Space`, by first and last code point. -/
def blankRanges : List (Nat × Nat) :=
  [(0x09, 0x0D), (0x20, 0x20), (0x85, 0x85), (0xA0, 0xA0), (0x1680, 0x1680), (0x2000, 0x200A),
    (0x2028, 0x2029), (0x202F, 0x202F), (0x205F, 0x205F), (0x3000, 0x3000)]

def isBlankChar (c : Char) : Bool :=
  blankRanges.any fun (first, last) => first ≤ c.toNat && c.toNat ≤ last

/-- Whether a text has no character but white space; the empty text has none. -/
def isBlank (s : String) : Bool := s.toList.all isBlankChar

end CoreBridge.Text
