import CoreBridge.Bytes
import CoreBridge.Wire.Error
import CoreBridge.Wire.Type
import CoreBridge.Wire.Timestamp

/-!
# Reading from a buffer

A reader takes bytes off the front of a buffer. Its answer comes with the bytes
that are left, after a failure as well: what was taken before it stays taken.
Taking `n` bytes takes all of them or none.
-/
namespace CoreBridge.Wire

/-- A step that takes bytes off a buffer and answers or fails. -/
def Reader (α : Type) := Bytes → Except DecodeError α × Bytes

namespace Reader

variable {α β : Type}

protected def pure (a : α) : Reader α := fun bytes => (.ok a, bytes)

protected def bind (r : Reader α) (f : α → Reader β) : Reader β := fun bytes =>
  match r bytes with
  | (.ok a, rest) => f a rest
  | (.error error, rest) => (.error error, rest)

instance : Monad Reader where
  pure := Reader.pure
  bind := Reader.bind

def fail (error : DecodeError) : Reader α := fun bytes => (.error error, bytes)

@[simp] theorem pure_apply (a : α) (bytes : Bytes) : (pure a : Reader α) bytes = (.ok a, bytes) :=
  rfl

theorem bind_apply (r : Reader α) (f : α → Reader β) (bytes : Bytes) :
    (r >>= f) bytes =
      match r bytes with
      | (.ok a, rest) => f a rest
      | (.error error, rest) => (.error error, rest) :=
  rfl

@[simp] theorem fail_apply (error : DecodeError) (bytes : Bytes) :
    (fail error : Reader α) bytes = (.error error, bytes) :=
  rfl

/-- Splits off the first `n` bytes, if there are as many. -/
def split? : (n : Nat) → (taken bytes : Bytes) → Option (Bytes × Bytes)
  | 0, taken, bytes => some (taken.reverse, bytes)
  | _ + 1, _, [] => none
  | n + 1, taken, byte :: bytes => split? n (byte :: taken) bytes

theorem split?_eq (n : Nat) (taken bytes : Bytes) :
    split? n taken bytes =
      if n ≤ bytes.length then some (taken.reverse ++ bytes.take n, bytes.drop n) else none := by
  induction n generalizing taken bytes with
  | zero => simp [split?]
  | succ n ih =>
    cases bytes with
    | nil => simp [split?]
    | cons byte bytes => simp [split?, ih]

/-- The next `n` bytes; fails and takes none if fewer are left. -/
def take (n : Nat) : Reader Bytes := fun bytes =>
  match split? n [] bytes with
  | some (taken, rest) => (.ok taken, rest)
  | none => (.error (.unexpectedEnd n bytes.length), bytes)

theorem take_apply (n : Nat) (bytes : Bytes) :
    take n bytes =
      if n ≤ bytes.length then (.ok (bytes.take n), bytes.drop n)
      else (.error (.unexpectedEnd n bytes.length), bytes) := by
  simp only [take, split?_eq]
  split <;> simp_all

/-- The number that the next `width` bytes spell. -/
def number (width : Nat) : Reader Nat := do
  return (← take width).toNat

/-- The bits of the next scalar. -/
def scalar (k : Scalar) : Reader k.Word := do
  return BitVec.ofNat _ (← number k.size)

/-- The next scalar as a number. -/
def int (k : Scalar) : Reader Int := do
  return k.toInt (← scalar k)

def bool : Reader Bool := do
  match ← int .i8 with
  | 0 => return false
  | 1 => return true
  | other => fail (.invalidBool other)

/-- Whether an optional value follows. -/
def presence : Reader Bool := do
  match ← int .i8 with
  | 0 => return false
  | 1 => return true
  | other => fail (.invalidPresence other)

/-- A length or count, which is not negative. -/
def length : Reader Nat := do
  match ← int .i32 with
  | .ofNat n => return n
  | negative => fail (.negativeLength negative)

/-- As many bytes as their length in front says. -/
def bytesWithLength : Reader Bytes := do take (← length)

def text : Reader String := do
  match (← bytesWithLength).toText? with
  | some s => return s
  | none => fail .invalidText

/-- A part of a second for a value of the type named, for the message. -/
def nanos (typeName : String) : Reader { n : Nat // n < 1000000000 } := do
  let n ← number 4
  if h : n < 1000000000 then return ⟨n, h⟩
  else fail (.invalidValue typeName s!"nanosecond field {n} is out of range")

def duration : Reader Duration := do
  let secs ← scalar .u64
  let part ← nanos "Duration"
  return ⟨secs.toNat, part, secs.isLt, part.property⟩

def timestamp : Reader Timestamp := do
  let secs ← int .i64
  let part ← nanos "SystemTime"
  match Timestamp.ofWireFields? secs part with
  | some t => return t
  | none => fail (.invalidValue "SystemTime" s!"{secs}s from the epoch is not representable")

/-- Runs `r` as many times as `count` says; `done` holds the latest answer first. -/
def repeatedAfter (r : Reader α) : (count : Nat) → (done : List α) → Reader (List α)
  | 0, done => fun bytes => (.ok done.reverse, bytes)
  | count + 1, done => fun bytes =>
    match r bytes with
    | (.ok a, rest) => repeatedAfter r count (a :: done) rest
    | (.error error, rest) => (.error error, rest)

/-- The answers of `count` runs of `r`, one after the other. -/
def repeated (count : Nat) (r : Reader α) : Reader (List α) := repeatedAfter r count []

theorem repeatedAfter_eq (r : Reader α) (count : Nat) (done : List α) (bytes : Bytes) :
    repeatedAfter r count done bytes =
      match repeated count r bytes with
      | (.ok answers, rest) => (.ok (done.reverse ++ answers), rest)
      | (.error error, rest) => (.error error, rest) := by
  induction count generalizing done bytes with
  | zero => simp [repeated, repeatedAfter]
  | succ count ih =>
    simp only [repeated, repeatedAfter]
    rcases r bytes with ⟨_ | a, rest⟩
    · rfl
    · simp only
      rw [ih (a :: done), ih [a]]
      rcases repeated count r rest with ⟨_ | answers, rest⟩ <;> simp

@[simp] theorem repeated_zero (r : Reader α) : repeated 0 r = pure [] := rfl

theorem repeated_succ (count : Nat) (r : Reader α) :
    repeated (count + 1) r = do
      let a ← r
      let answers ← repeated count r
      return a :: answers := by
  funext bytes
  show repeatedAfter r (count + 1) [] bytes = _
  simp only [repeatedAfter, bind_apply]
  rcases r bytes with ⟨_ | a, rest⟩
  · rfl
  · simp only
    rw [repeatedAfter_eq]
    rcases repeated count r rest with ⟨_ | answers, rest⟩ <;> simp

/-- Fails if bytes are left; takes none. -/
def finish : Reader Unit := fun bytes =>
  match bytes with
  | [] => (.ok (), [])
  | rest => (.error (.trailingBytes rest.length), rest)

end Reader
end CoreBridge.Wire
