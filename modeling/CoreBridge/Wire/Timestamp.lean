import CoreBridge.Wire.Error

/-!
# Spans and points in time

A duration is a count of seconds and a part of a second. A timestamp is a
signed count of seconds from the epoch, with the part of a second counted
forward from there. The wire carries exactly these two numbers, but a timestamp
is taken apart by its distance from the epoch, which is how a time before the
epoch can have more whole seconds than the signed field holds.
-/
namespace CoreBridge.Wire

/-- An unsigned span of time: a 64-bit count of seconds, and nanoseconds. -/
structure Duration where
  secs : Nat
  nanos : Nat
  secs_lt : secs < 0x10000000000000000 := by omega
  nanos_lt : nanos < 1000000000 := by omega
deriving DecidableEq, Repr

namespace Duration

/-- A span of `nanos` alone, less than a second. -/
def ofNanos (nanos : Nat) (h : nanos < 1000000000) : Duration :=
  { secs := 0, nanos, nanos_lt := h }

/-- A span of whole seconds. -/
def ofSecs (secs : Nat) (h : secs < 0x10000000000000000) : Duration :=
  { secs, nanos := 0, secs_lt := h }

end Duration

/-- A point in time: a signed 64-bit count of seconds from the epoch, and the nanoseconds
after that. -/
structure Timestamp where
  secs : Int
  nanos : Nat
  le_secs : -0x8000000000000000 ≤ secs := by omega
  secs_lt : secs < 0x8000000000000000 := by omega
  nanos_lt : nanos < 1000000000 := by omega
deriving DecidableEq, Repr

/-- How far a timestamp is from the epoch, and on which side. -/
inductive Offset where
  | after (span : Duration)
  | before (span : Duration)
deriving DecidableEq, Repr

namespace Timestamp

def epoch : Timestamp := { secs := 0, nanos := 0 }

/-- The timestamp with these fields, if they are those of one. -/
def ofFields? (secs : Int) (nanos : Nat) : Option Timestamp :=
  if h : -0x8000000000000000 ≤ secs ∧ secs < 0x8000000000000000 ∧ nanos < 1000000000 then
    some { secs, nanos, le_secs := h.1, secs_lt := h.2.1, nanos_lt := h.2.2 }
  else none

/-- The time `span` later, if it is representable. -/
def add? (t : Timestamp) (span : Duration) : Option Timestamp :=
  let nanos := t.nanos + span.nanos
  if nanos < 1000000000 then ofFields? (t.secs + span.secs) nanos
  else ofFields? (t.secs + span.secs + 1) (nanos - 1000000000)

/-- The time `span` earlier, if it is representable. -/
def sub? (t : Timestamp) (span : Duration) : Option Timestamp :=
  if span.nanos ≤ t.nanos then ofFields? (t.secs - span.secs) (t.nanos - span.nanos)
  else ofFields? (t.secs - span.secs - 1) (t.nanos + 1000000000 - span.nanos)

/-- The distance from the epoch; a time before it counts its part of a second backward. -/
def sinceEpoch (t : Timestamp) : Offset :=
  have := t.le_secs
  have := t.secs_lt
  have := t.nanos_lt
  if 0 ≤ t.secs then
    .after { secs := t.secs.toNat, nanos := t.nanos }
  else if h : t.nanos = 0 then
    .before { secs := (-t.secs).toNat, nanos := 0 }
  else
    .before { secs := (-t.secs - 1).toNat, nanos := 1000000000 - t.nanos }

/-- The time at a distance from the epoch, if it is representable. -/
def ofOffset? : Offset → Option Timestamp
  | .after span => epoch.add? span
  | .before span => epoch.sub? span

/-- The failure for a distance whose whole seconds the signed field cannot hold. -/
def outOfRange : EncodeError :=
  .invalidValue "SystemTime" "seconds from the epoch exceed i64"

/-- The two numbers written for a timestamp: the seconds, counted down from the
epoch for an earlier time, and the nanoseconds counted forward from them. -/
def wireFields (t : Timestamp) : Except EncodeError (Int × Nat) :=
  match t.sinceEpoch with
  | .after span =>
    if 0x8000000000000000 ≤ span.secs then .error outOfRange else .ok (span.secs, span.nanos)
  | .before span =>
    if 0x8000000000000000 ≤ span.secs then .error outOfRange
    else if span.nanos = 0 then .ok (-span.secs, 0)
    else .ok (-span.secs - 1, 1000000000 - span.nanos)

/-- The timestamp read from the two numbers: whole seconds away from the epoch
first, then the nanoseconds forward. -/
def ofWireFields? (secs : Int) (nanos : Nat) : Option Timestamp :=
  if h : secs.natAbs < 0x10000000000000000 ∧ nanos < 1000000000 then
    let whole := Duration.ofSecs secs.natAbs h.1
    let base := if 0 ≤ secs then epoch.add? whole else epoch.sub? whole
    base.bind (·.add? (Duration.ofNanos nanos h.2))
  else none

end Timestamp
end CoreBridge.Wire
