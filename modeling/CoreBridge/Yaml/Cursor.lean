import CoreBridge.Yaml.Character

/-!
# Positions in a document

A cursor is the rest of a document and where it starts: the line, the column
and the number of characters before it. Readers are steps of a cursor that may
fail; why one failed is not told.
-/
namespace CoreBridge.Yaml

structure Cursor where
  rest : List Char
  line : Nat := 0
  column : Nat := 0
  offset : Nat := 0

/-- A step that reads from a document. -/
abbrev Scan := StateT Cursor Option

namespace Scan

/-- What is left of the document. -/
def rest : Scan (List Char) := return (← get).rest

/-- Passes over one character of a line. -/
def advance : Scan Unit := modify fun s =>
  { s with rest := s.rest.tail, column := s.column + 1, offset := s.offset + 1 }

/-- Passes over the given number of characters of a line. -/
def advanceBy (n : Nat) : Scan Unit := modify fun s =>
  { s with rest := s.rest.drop n, column := s.column + n, offset := s.offset + n }

/-- Passes over a line end; the two separators of text stand for themselves and
every other line end for a line feed. -/
def lineEnd : Scan Char := do
  let s ← get
  let (c, n) ← match s.rest with
    | '\r' :: '\n' :: _ => pure ('\n', 2)
    | '\u2028' :: _ => pure ('\u2028', 1)
    | '\u2029' :: _ => pure ('\u2029', 1)
    | c :: _ => if isBreak c then pure ('\n', 1) else failure
    | [] => failure
  set { rest := s.rest.drop n, line := s.line + 1, column := 0, offset := s.offset + n : Cursor }
  return c

/-- Passes over the characters of a line that satisfy `p`. -/
def takeWhile (p : Char → Bool) : Scan (List Char) := do
  let s ← get
  let taken := s.rest.takeWhile fun c => p c && !isBreak c
  advanceBy taken.length
  return taken

/-- Fails unless `p` holds. -/
def require (p : Bool) : Scan Unit := if p then pure () else failure

/-- Passes over blanks, comments and line ends. On a fresh line of block
structure a tab is no blank; `tabs` says whether it is one before that. -/
def skipWith (flow : Bool) : (fuel : Nat) → (tabs : Bool) → Scan Unit
  | 0, _ => failure
  | fuel + 1, tabs => do
    match ← rest with
    | ' ' :: _ => do
      advance
      skipWith flow fuel tabs
    | '\t' :: _ =>
      if flow || tabs then do
        advance
        skipWith flow fuel tabs
      else pure ()
    | '#' :: _ => do
      let _ ← takeWhile fun _ => true
      skipWith flow fuel tabs
    | c :: _ =>
      if isBreak c then do
        let _ ← lineEnd
        skipWith flow fuel flow
      else pure ()
    | [] => pure ()

def skip (flow tabs : Bool) : Scan Unit := do
  skipWith flow ((← rest).length + 1) tabs

/-- Whether the document ends here or is divided from the next one. -/
def atEnd : Scan Bool := do
  let s ← get
  return s.rest.isEmpty || (s.column = 0 && atMarker s.rest)

end Scan
end CoreBridge.Yaml
