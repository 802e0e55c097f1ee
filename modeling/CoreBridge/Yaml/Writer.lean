import CoreBridge.Bytes
import CoreBridge.Yaml.Character
import CoreBridge.Yaml.Node
import CoreBridge.Yaml.Number

/-!
# Writing scalars

A text is written plain where it reads back as the same text, and otherwise
between single quotes. Text of several lines is written literally. Where
characters have to be escaped, or a key would run over lines, double quotes are
used.
-/
namespace CoreBridge.Yaml

/-- Whether some two neighbours satisfy `p`. -/
def anyNeighbours (p : Char → Char → Bool) : List Char → Bool
  | c :: d :: rest => p c d || anyNeighbours p (d :: rest)
  | _ => false

/-- Whether a colon ends a word, or a mark of comments starts one, behind the first character. -/
def hasInnerIndicator : List Char → Bool
  | c :: d :: rest =>
    (d = ':' && atGap rest) || (d = '#' && atGap [c]) || hasInnerIndicator (d :: rest)
  | _ => false

/-- Whether a plain scalar with this text would be taken for something else in block structure. -/
def hasIndicator (cs : List Char) : Bool :=
  (match cs with
    | '-' :: '-' :: '-' :: _ | '.' :: '.' :: '.' :: _ => true
    | c :: rest => isIndicator c || ((c = '?' || c = ':' || c = '-') && atGap rest)
    | [] => false) || hasInnerIndicator cs

/-- Whether the ends of a text, or its lines, are such that plain scalars lose them. -/
def hasLooseSpace (cs : List Char) : Bool :=
  let loose (c : Char) : Bool := c = ' ' || isBreak c
  cs.head?.any loose || cs.getLast?.any loose || cs.any isBreak

/-- Whether characters of a text can only be written escaped, or a line ends in a blank. -/
def needsEscapes (cs : List Char) : Bool :=
  cs.any (!isWritable ·) || anyNeighbours (fun c d => c = ' ' && isBreak d) cs

/-- The style that a text is written in; `simpleKey` if it is a key on one line. -/
def styleOf (simpleKey : Bool) (s : String) : Style :=
  let cs := s.toList
  if cs.contains '\n' then
    if needsEscapes cs || cs.getLast? = some ' ' || simpleKey then .doubleQuoted else .literal
  else if needsEscapes cs then
    .doubleQuoted
  else if isAmbiguous s || hasLooseSpace cs || hasIndicator cs then
    if anyNeighbours (fun c d => isBreak c && d = ' ') cs then .doubleQuoted else .singleQuoted
  else .plain

/-- The letter of the escape that stands for a character. -/
def escapeLetter? : Char → Option Char
  | '\x00' => some '0'
  | '\x07' => some 'a'
  | '\x08' => some 'b'
  | '\t' => some 't'
  | '\n' => some 'n'
  | '\x0b' => some 'v'
  | '\x0c' => some 'f'
  | '\r' => some 'r'
  | '\x1b' => some 'e'
  | '"' => some '"'
  | '\\' => some '\\'
  | '\u0085' => some 'N'
  | '\u2028' => some 'L'
  | '\u2029' => some 'P'
  | _ => none

/-- The last `width` upper-case digits of a code point. -/
def codeDigits (width point : Nat) : List Char :=
  ((Bytes.ofNat (width / 2) point).toHex.toList).map Char.toUpper

/-- How a character is written between double quotes. -/
def escapeChar (c : Char) : List Char :=
  match escapeLetter? c with
  | some letter => ['\\', letter]
  | none =>
    if isWritable c then [c]
    else if c.toNat < 0x100 then '\\' :: 'x' :: codeDigits 2 c.toNat
    else if c.toNat < 0x10000 then '\\' :: 'u' :: codeDigits 4 c.toNat
    else '\\' :: 'U' :: codeDigits 8 c.toNat

/-- Lines of a scalar; behind each line end comes the indentation, unless the line is empty. -/
def indentLines (indent : Nat) (fresh : Bool) : List Char → List Char
  | [] => []
  | c :: rest =>
    if isBreak c then c :: indentLines indent true rest
    else (if fresh then List.replicate indent ' ' else []) ++ c :: indentLines indent false rest

/-- The marks of a literal scalar: its indentation if the first line starts with
a blank or is empty, and what becomes of the line ends behind it. -/
def literalMarks (cs : List Char) : List Char :=
  let indentation := if cs.head?.any fun c => c = ' ' || isBreak c then ['2'] else []
  let chomping := match cs.reverse with
    | c :: rest =>
      if !isBreak c then ['-'] else if rest.isEmpty || atBreak rest then ['+'] else []
    | [] => ['-']
  indentation ++ chomping

/-- The written form of a text; its further lines are indented by `indent`. -/
def scalarText (indent : Nat) (simpleKey : Bool) (s : String) : String :=
  let cs := s.toList
  String.ofList <| match styleOf simpleKey s with
    | .plain => cs
    | .singleQuoted =>
      '\x27' :: indentLines indent false
        (cs.flatMap fun c => if c = '\x27' then ['\x27', '\x27'] else [c]) ++ ['\x27']
    | .doubleQuoted => '"' :: cs.flatMap escapeChar ++ ['"']
    | .literal | .folded => '|' :: literalMarks cs ++ '\n' :: indentLines indent true cs

/-- Ends the line unless it has ended. -/
def endLine (s : String) : String :=
  if s.toList.getLast?.any isBreak then s else s ++ "\n"

/-- Whether a key can be written in front of its colon on one line. -/
def isSimpleKey (s : String) : Bool := s.utf8ByteSize ≤ 128 && !s.toList.any isBreak

/-- An entry of a mapping whose keys are at column `indent`; a key that does not
fit on one line is marked, and so is its value. -/
def entryText (indent : Nat) (key value : String) : String :=
  let margin := String.ofList (List.replicate indent ' ')
  if isSimpleKey key then endLine (margin ++ scalarText (indent + 2) true key ++ ": " ++ value)
  else
    endLine (margin ++ "? " ++ scalarText (indent + 2) false key) ++
      endLine (margin ++ ": " ++ value)

end CoreBridge.Yaml
