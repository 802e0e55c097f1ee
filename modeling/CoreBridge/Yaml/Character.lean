/-!
# The characters of YAML

Lines end with a line feed, a carriage return, both, or one of the three
separators of Unicode. A document may hold no control character but the tab and
the line ends, and no byte order mark.
-/
namespace CoreBridge.Yaml

/-- Whether a character ends a line. -/
def isBreak (c : Char) : Bool :=
  c = '\n' || c = '\r' || c = '\u0085' || c = '\u2028' || c = '\u2029'

/-- Whether a character separates words on a line. -/
def isBlank (c : Char) : Bool := c = ' ' || c = '\t'

/-- Whether a blank, a line end or the end of the text comes next. -/
def atGap : List Char → Bool
  | [] => true
  | c :: _ => isBlank c || isBreak c

/-- Whether a line end comes next. -/
def atBreak : List Char → Bool
  | [] => false
  | c :: _ => isBreak c

/-- The ranges of the characters that a document may hold. -/
def readableRanges : List (Nat × Nat) :=
  [(0x09, 0x0A), (0x0D, 0x0D), (0x20, 0x7E), (0x85, 0x85), (0xA0, 0xFEFE), (0xFF00, 0xFFFD),
    (0x10000, 0x10FFFF)]

def isReadable (c : Char) : Bool :=
  readableRanges.any fun (first, last) => first ≤ c.toNat && c.toNat ≤ last

/-- The ranges of the characters that are written as they are. -/
def writableRanges : List (Nat × Nat) :=
  [(0x0A, 0x0A), (0x20, 0x7E), (0xA0, 0xFEFE), (0xFF00, 0xFFFD), (0x10000, 0x10FFFF)]

def isWritable (c : Char) : Bool :=
  writableRanges.any fun (first, last) => first ≤ c.toNat && c.toNat ≤ last

/-- Whether a character may stand in the name of an anchor. -/
def isNameChar (c : Char) : Bool := c.isAlphanum || c = '_' || c = '-'

/-- Whether a character may stand in a tag. -/
def isTagChar (c : Char) : Bool := isNameChar c || ";/?:@&=+$.!~*'()%#".toList.contains c

/-- The characters with a meaning inside a flow collection. -/
def isFlowIndicator (c : Char) : Bool := c = ',' || c = '[' || c = ']' || c = '\x7b' || c = '\x7d'

/-- The characters that no plain scalar starts with. -/
def isIndicator (c : Char) : Bool :=
  isFlowIndicator c || "#&*!|>'\"%@\x60".toList.contains c

/-- Whether a line that starts like this separates documents. -/
def atMarker : List Char → Bool
  | '-' :: '-' :: '-' :: rest | '.' :: '.' :: '.' :: rest => atGap rest
  | _ => false

end CoreBridge.Yaml
