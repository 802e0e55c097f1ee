import CoreBridge.Bytes

/-!
# Reading damaged text

Failure messages arrive as raw bytes and must become text whatever they hold.
Bytes that spell text in UTF-8 are that text. Otherwise every maximal part that
starts a character but does not finish it, and every byte that starts none,
becomes one replacement character.
-/
namespace CoreBridge.Bytes

/-- The range that each byte after `lead` must lie in for `lead` to start a character. -/
def continuations (lead : UInt8) : Option (List (UInt8 × UInt8)) :=
  if lead < 0x80 then some []
  else if lead < 0xC2 then none
  else if lead < 0xE0 then some [(0x80, 0xBF)]
  else if lead = 0xE0 then some [(0xA0, 0xBF), (0x80, 0xBF)]
  else if lead = 0xED then some [(0x80, 0x9F), (0x80, 0xBF)]
  else if lead < 0xF0 then some [(0x80, 0xBF), (0x80, 0xBF)]
  else if lead = 0xF0 then some [(0x90, 0xBF), (0x80, 0xBF), (0x80, 0xBF)]
  else if lead < 0xF4 then some [(0x80, 0xBF), (0x80, 0xBF), (0x80, 0xBF)]
  else if lead = 0xF4 then some [(0x80, 0x8F), (0x80, 0xBF), (0x80, 0xBF)]
  else none

/-- The longest start of `bytes` whose bytes lie in `ranges`, one range each. -/
def takeInRanges : List (UInt8 × UInt8) → Bytes → Bytes
  | (low, high) :: ranges, byte :: bytes =>
    if low ≤ byte ∧ byte ≤ high then byte :: takeInRanges ranges bytes else []
  | _, _ => []

/-- The character whose UTF-8 spelling is `lead` followed by `tail`. -/
def assemble (lead : UInt8) (tail : Bytes) : Char :=
  let leadBits := match tail.length with
    | 0 => lead.toNat
    | 1 => lead.toNat % 32
    | 2 => lead.toNat % 16
    | _ => lead.toNat % 8
  Char.ofNat (tail.foldl (fun n byte => n * 64 + byte.toNat % 64) leadBits)

/-- The character that stands for bytes that spell none. -/
def replacement : Char := Char.ofNat 0xFFFD

/-- Reads character by character, putting `replacement` for each maximal damaged part. -/
def repair : Bytes → List Char
  | [] => []
  | lead :: rest =>
    match continuations lead with
    | none => replacement :: repair rest
    | some ranges =>
      let tail := takeInRanges ranges rest
      let char := if tail.length = ranges.length then assemble lead tail else replacement
      char :: repair (rest.drop tail.length)
termination_by bytes => bytes.length
decreasing_by all_goals simp; try omega

/-- The text `bytes` spell, with replacement characters where they spell none. -/
def toTextLossy (bytes : Bytes) : String :=
  match bytes.toText? with
  | some text => text
  | none => String.ofList (repair bytes)

@[simp] theorem toTextLossy_ofText (text : String) : toTextLossy (ofText text) = text := by
  simp [toTextLossy]

end CoreBridge.Bytes
