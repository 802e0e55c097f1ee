import CoreBridge.Text.Hex
import CoreBridge.Yaml.Cursor
import CoreBridge.Yaml.Node

/-!
# Reading scalars

A scalar that runs over several lines is folded: a line end between two lines of
text becomes a blank, and of several line ends all but the first are kept.
Literal block scalars keep every line end. Readers start at the first character
of a scalar and end behind it, plain and block scalars behind the blanks and
line ends that follow.
-/
namespace CoreBridge.Yaml

/-- The blanks and line ends between two pieces of a scalar. -/
structure Space where
  blanks : List Char := []
  /-- Whether a line ended, be it one that leaves no trace. -/
  broken : Bool := false
  first : Option Char := none
  more : List Char := []

/-- What the space between two pieces contributes to the text. -/
def Space.fold (s : Space) : List Char :=
  if s.broken then
    match s.first with
    | some '\n' => if s.more.isEmpty then [' '] else s.more
    | some c => c :: s.more
    | none => s.more
  else s.blanks

namespace Scan

/-- Reads blanks and line ends. Behind a line end a tab left of column `indent`
is refused, and other blanks leave no trace. -/
def space (indent : Nat) : (fuel : Nat) → Space → Scan Space
  | 0, _ => failure
  | fuel + 1, s => do
    let at' ← get
    match at'.rest with
    | c :: _ =>
      if isBlank c then do
        require (!(s.broken && c = '\t' && at'.column < indent))
        advance
        space indent fuel (if s.broken then s else { s with blanks := s.blanks ++ [c] })
      else if isBreak c then do
        let ended ← lineEnd
        space indent fuel
          (if s.broken then { s with more := s.more ++ [ended] }
          else { s with blanks := [], broken := true, first := some ended })
      else return s
    | [] => return s

/-- Whether a plain scalar ends before the next character, which is no blank. -/
def plainEnds (flow : Bool) : List Char → Bool
  | ':' :: rest => atGap rest
  | c :: _ => flow && isFlowIndicator c
  | [] => true

/-- Reads the next piece of a plain scalar, up to a blank or an end. -/
def plainPiece (flow : Bool) : (fuel : Nat) → (read : List Char) → Scan (List Char)
  | 0, _ => failure
  | fuel + 1, read => do
    match ← rest with
    | [] => return read.reverse
    | c :: next =>
      if atGap (c :: next) then return read.reverse
      require (!(flow && c = ':' && next.head?.any fun d => isFlowIndicator d || d = '?'))
      if plainEnds flow (c :: next) then return read.reverse
      advance
      plainPiece flow fuel (c :: read)

/-- Reads a plain scalar. Outside flow collections, lines that continue it have
to start at column `indent` or behind it. The `gap` behind what was read belongs
to the text only if a further piece follows. -/
def plainFrom (flow : Bool) (indent : Nat) :
    (fuel : Nat) → (read gap : List Char) → Scan (List Char)
  | 0, _, _ => failure
  | fuel + 1, read, gap => do
    let s ← get
    if s.column = 0 && atMarker s.rest then return read
    if s.rest.head? = some '#' then return read
    let piece ← plainPiece flow (s.rest.length + 1) []
    if piece.isEmpty then return read
    let read := read ++ gap ++ piece
    if !atGap (← rest) || (← rest).isEmpty then return read
    let gap ← space indent ((← rest).length + 1) {}
    if !flow && (← get).column < indent then return read
    plainFrom flow indent fuel read gap.fold

def plain (flow : Bool) (indent : Nat) : Scan Node := do
  let text ← plainFrom flow indent ((← rest).length + 1) [] []
  return .scalar .plain none (String.ofList text)

/-- The character that an escape of one letter stands for. -/
def escaped? : Char → Option Char
  | '0' => some '\x00'
  | 'a' => some '\x07'
  | 'b' => some '\x08'
  | 't' => some '\t'
  | '\t' => some '\t'
  | 'n' => some '\n'
  | 'v' => some '\x0b'
  | 'f' => some '\x0c'
  | 'r' => some '\r'
  | 'e' => some '\x1b'
  | ' ' => some ' '
  | '"' => some '"'
  | '/' => some '/'
  | '\\' => some '\\'
  | 'N' => some '\u0085'
  | '_' => some '\u00a0'
  | 'L' => some '\u2028'
  | 'P' => some '\u2029'
  | _ => none

/-- The number of digits of an escape that spells a code point. -/
def escapeWidth? : Char → Option Nat
  | 'x' => some 2
  | 'u' => some 4
  | 'U' => some 8
  | _ => none

/-- Reads an escape whose backslash is behind. -/
def escape : Scan Char := do
  match ← rest with
  | [] => failure
  | c :: next =>
    match escapeWidth? c with
    | none => do
      let c ← (escaped? c : Option Char)
      advance
      return c
    | some width => do
      let digits := next.take width
      require (digits.length = width)
      let point ← (Text.hexNumber? digits : Option Nat)
      require (point < 0xD800 || (0xDFFF < point && point < 0x110000))
      advanceBy (width + 1)
      return Char.ofNat point

/-- Reads the next piece of a quoted scalar, up to a blank or the closing quote;
the answer says whether an escaped line end ended it. -/
def quotedPiece (double : Bool) : (fuel : Nat) → (read : List Char) → Scan (List Char × Bool)
  | 0, _ => failure
  | fuel + 1, read => do
    match ← rest with
    | '\x27' :: '\x27' :: _ =>
      if double then do
        advance
        quotedPiece double fuel ('\x27' :: read)
      else do
        advanceBy 2
        quotedPiece double fuel ('\x27' :: read)
    | '\\' :: next =>
      if double then do
        advance
        if atBreak next then do
          let _ ← lineEnd
          return (read.reverse, true)
        let c ← escape
        quotedPiece double fuel (c :: read)
      else do
        advance
        quotedPiece double fuel ('\\' :: read)
    | c :: next =>
      if atGap (c :: next) || c = (if double then '"' else '\x27') then return (read.reverse, false)
      advance
      quotedPiece double fuel (c :: read)
    | [] => return (read.reverse, false)

/-- Reads a quoted scalar whose opening quote is behind. -/
def quotedFrom (double : Bool) : (fuel : Nat) → (read : List Char) → Scan (List Char)
  | 0, _ => failure
  | fuel + 1, read => do
    let s ← get
    require (!(s.column = 0 && atMarker s.rest))
    let (piece, joined) ← quotedPiece double (s.rest.length + 1) []
    let read := read ++ piece
    match ← rest with
    | [] => failure
    | c :: _ =>
      if c = (if double then '"' else '\x27') then do
        advance
        return read
      let gap ← space 0 ((← rest).length + 1) { broken := joined }
      quotedFrom double fuel (read ++ gap.fold)

def quoted (double : Bool) : Scan Node := do
  advance
  let text ← quotedFrom double ((← rest).length + 2) []
  return .scalar (if double then .doubleQuoted else .singleQuoted) none (String.ofList text)

/-- What becomes of the line ends behind a block scalar. -/
inductive Chomping where
  | strip | clip | keep
deriving DecidableEq, Repr

/-- Reads the marks of a block scalar: chomping and indentation in either order. -/
def blockMarks : (fuel : Nat) → Chomping → Option Nat → Scan (Chomping × Option Nat)
  | 0, chomping, indent => return (chomping, indent)
  | fuel + 1, chomping, indent => do
    match ← rest with
    | '+' :: _ => do
      require (chomping = .clip)
      advance
      blockMarks fuel .keep indent
    | '-' :: _ => do
      require (chomping = .clip)
      advance
      blockMarks fuel .strip indent
    | c :: _ =>
      if c.isDigit then do
        require (c ≠ '0' && indent.isNone)
        advance
        blockMarks fuel chomping (some (c.toNat - 48))
      else return (chomping, indent)
    | [] => return (chomping, indent)

/-- Passes over indentation and empty lines. The answer holds the line ends and
the widest indentation seen; `indent` bounds the indentation once it is known. -/
def blockSpace (indent : Option Nat) : (fuel : Nat) → (ends : List Char) → (widest : Nat) →
    Scan (List Char × Nat)
  | 0, _, _ => failure
  | fuel + 1, ends, widest => do
    let s ← get
    let room := match indent with
      | some n => n - s.column
      | none => s.rest.length
    let blanks := (s.rest.take room).takeWhile (· = ' ')
    advanceBy blanks.length
    let column := s.column + blanks.length
    let widest := max widest column
    let within := indent.all (column < ·)
    match ← rest with
    | c :: _ => do
      require (!(within && c = '\t'))
      if isBreak c then do
        let ended ← lineEnd
        blockSpace indent fuel (ends ++ [ended]) widest
      else return (ends, widest)
    | [] => return (ends, widest)

/-- The text of a block scalar read so far. -/
structure BlockText where
  text : List Char := []
  /-- The line end of the last line, not yet part of the text. -/
  ended : List Char := []
  /-- The line ends of the empty lines after it. -/
  empty : List Char := []
  /-- Whether the last line starts with a blank. -/
  indented : Bool := false

/-- Reads the lines of a block scalar, which start at column `indent`. -/
def blockLines (literal : Bool) (indent : Nat) : (fuel : Nat) → BlockText → Scan BlockText
  | 0, _ => failure
  | fuel + 1, b => do
    let s ← get
    if s.column ≠ indent || s.rest.isEmpty then return b
    let indented := s.rest.head?.any isBlank
    let folds := !literal && b.ended = ['\n'] && !b.indented && !indented
    let joint := if folds then (if b.empty.isEmpty then [' '] else []) else b.ended
    let line ← takeWhile fun _ => true
    let ended ← if (← rest).isEmpty then pure [] else do pure [← lineEnd]
    let (empty, _) ← blockSpace (some indent) ((← rest).length + 2) [] 0
    blockLines literal indent fuel
      { text := b.text ++ joint ++ b.empty ++ line, ended, empty, indented }

/-- Reads a block scalar inside block structure at column `parent`. -/
def block (literal : Bool) (parent : Int) : Scan Node := do
  advance
  let (chomping, mark) ← blockMarks 3 .clip none
  let _ ← takeWhile isBlank
  if (← rest).head? = some '#' then
    let _ ← takeWhile fun _ => true
  if !(← rest).isEmpty then
    let _ ← lineEnd
  let fuel := (← rest).length + 2
  let base := (max parent 0).toNat
  let known := mark.map (base + ·)
  let (empty, widest) ← blockSpace known fuel [] 0
  let indent := known.getD (max widest (max (parent + 1).toNat 1))
  let b ← blockLines literal indent fuel { empty }
  let tail := match chomping with
    | .strip => []
    | .clip => b.ended
    | .keep => b.ended ++ b.empty
  return .scalar (if literal then .literal else .folded) none (String.ofList (b.text ++ tail))

end Scan
end CoreBridge.Yaml
