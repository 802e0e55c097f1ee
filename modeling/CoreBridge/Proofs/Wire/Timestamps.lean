import CoreBridge.Demo.Listener
import CoreBridge.Proofs.Wire.Canonical

/-!
# Points in time on the wire

A point in time is read from the twelve bytes of its two fields and from no
others, however far from the epoch it is. The way back goes through the distance
from the epoch, and the seconds of the earliest point are one more than a signed
field can count away from it: that point is read but not written. Every other
one is written as the bytes of its own fields, and no step on the way leaves the
field that it is computed in (`timestamp_codec`).
-/
namespace CoreBridge.Wire

/-- A distance from the epoch in nanoseconds, negative before it. -/
def Offset.instant : Offset → Int
  | .after span => 1000000000 * span.secs + span.nanos
  | .before span => -(1000000000 * span.secs + span.nanos)

namespace Timestamp

variable (t : Timestamp)

/-- Whether no point in time is before this one. -/
def IsEarliest : Prop := t.secs = -0x8000000000000000 ∧ t.nanos = 0

/-- The distance from the epoch is that of the seconds and the nanoseconds together. -/
theorem instant_sinceEpoch : t.sinceEpoch.instant = 1000000000 * t.secs + t.nanos := by
  have hnanos := t.nanos_lt
  unfold sinceEpoch
  split
  · simp only [Offset.instant]
    omega
  · split <;> simp only [Offset.instant] <;> omega

/-! ## Arithmetic within the fields -/

/-- A number, if a signed field of 64 bits holds it. -/
def signed? (n : Int) : Option Int :=
  if -0x8000000000000000 ≤ n ∧ n < 0x8000000000000000 then some n else none

/-- A number, if an unsigned field of 32 bits holds it. -/
def unsigned? (n : Int) : Option Nat :=
  if 0 ≤ n ∧ n < 0x100000000 then some n.toNat else none

theorem signed?_eq_some {n : Int} (hlow : -0x8000000000000000 ≤ n)
    (hhigh : n < 0x8000000000000000) : signed? n = some n := if_pos ⟨hlow, hhigh⟩

theorem unsigned?_natCast {n : Nat} (h : n < 0x100000000) : unsigned? n = some n :=
  if_pos ⟨by omega, by omega⟩

/-- The two numbers written, computed step by step in fields of their width; none
if a result on the way does not fit. -/
def fieldsWithin? : Option (Except EncodeError (Int × Nat)) :=
  match t.sinceEpoch with
  | .after span =>
    if 0x8000000000000000 ≤ span.secs then some (.error outOfRange)
    else do
      let secs ← signed? span.secs
      return .ok (secs, span.nanos)
  | .before span =>
    if 0x8000000000000000 ≤ span.secs then some (.error outOfRange)
    else do
      let secs ← signed? span.secs
      let secs ← signed? (-secs)
      if span.nanos = 0 then return .ok (secs, 0)
      let secs ← signed? (secs - 1)
      let nanos ← unsigned? (1000000000 - span.nanos)
      return .ok (secs, nanos)

/-- Nothing overflows on the way to the numbers written. -/
theorem fieldsWithin?_eq : t.fieldsWithin? = some t.wireFields := by
  unfold fieldsWithin? wireFields
  cases t.sinceEpoch with
  | after span =>
    dsimp only
    split_ifs with hlarge
    · rfl
    · have hsecs := signed?_eq_some (n := span.secs) (by omega) (by omega)
      rw [hsecs]
      rfl
  | before span =>
    dsimp only
    split_ifs with hlarge hwhole
    · rfl
    · have hsecs := signed?_eq_some (n := span.secs) (by omega) (by omega)
      have hnegated := signed?_eq_some (n := -(span.secs : Int)) (by omega) (by omega)
      simp only [hsecs, hnegated, Option.bind_eq_bind, Option.bind_some]
      rfl
    · have hnanos := span.nanos_lt
      have hsecs := signed?_eq_some (n := span.secs) (by omega) (by omega)
      have hnegated := signed?_eq_some (n := -(span.secs : Int)) (by omega) (by omega)
      have hfloor := signed?_eq_some (n := -(span.secs : Int) - 1) (by omega) (by omega)
      have hforward : unsigned? (1000000000 - span.nanos) = some (1000000000 - span.nanos) := by
        rw [← unsigned?_natCast (by omega), Nat.cast_sub (by omega)]
        rfl
      simp only [hsecs, hnegated, hfloor, hforward, Option.bind_eq_bind, Option.bind_some]
      rfl

/-! ## Reading and writing -/

variable {t}

theorem wireFields_of_isEarliest (h : t.IsEarliest) : t.wireFields = .error outOfRange := by
  obtain ⟨hsecs, hnanos⟩ := h
  have hsign : ¬ 0 ≤ t.secs := by omega
  unfold wireFields sinceEpoch
  simp only [if_neg hsign, dif_pos hnanos]
  exact if_pos (by omega)

/-- The numbers written for a point in time are its own fields. A part of a second
makes the distance of an early point a second shorter, so that it fits even at the
edge. -/
theorem wireFields_of_not_isEarliest (h : ¬ t.IsEarliest) :
    t.wireFields = .ok (t.secs, t.nanos) := by
  have hlow := t.le_secs
  have hhigh := t.secs_lt
  have hpart := t.nanos_lt
  unfold IsEarliest at h
  unfold wireFields sinceEpoch
  by_cases hsign : 0 ≤ t.secs
  · simp only [if_pos hsign]
    rw [if_neg (by omega), Int.toNat_of_nonneg hsign]
  · by_cases hnanos : t.nanos = 0
    · simp only [if_neg hsign, dif_pos hnanos, if_true]
      rw [if_neg (by omega), Int.toNat_of_nonneg (by omega), Int.neg_neg, hnanos]
    · simp only [if_neg hsign, dif_neg hnanos]
      have hsecs : -((-t.secs - 1).toNat : Int) - 1 = t.secs := by omega
      have hforward : 1000000000 - (1000000000 - t.nanos) = t.nanos := by omega
      rw [if_neg (by omega), if_neg (by omega), hsecs, hforward]

theorem encode_of_isEarliest (h : t.IsEarliest) :
    encode (.timestamp t) = .error outOfRange := by
  unfold encode Value.emit Emission.timestamp
  rw [wireFields_of_isEarliest h]
  rfl

theorem encode_of_not_isEarliest (h : ¬ t.IsEarliest) :
    encode (.timestamp t) = .ok (form t.secs t.nanos) := by
  unfold encode Value.emit Emission.timestamp
  rw [wireFields_of_not_isEarliest h]
  rfl

end Timestamp

open Reader

/-- A point in time was read from the bytes of its fields. -/
theorem Reader.ensures_timestamp :
    timestamp.Ensures fun t taken => Timestamp.form t.secs t.nanos = taken := by
  refine (ensures_int .i64).bind fun secs first hfirst =>
    (ensures_nanos "SystemTime").bind fun part second hsecond => ?_
  obtain ⟨word, rfl, rfl⟩ := hfirst
  obtain rfl := hsecond
  have hlow : -0x8000000000000000 ≤ word.toInt := BitVec.le_toInt word
  have hhigh : word.toInt < 0x8000000000000000 := BitVec.toInt_lt
  let t : Timestamp :=
    { secs := word.toInt
      nanos := part
      le_secs := hlow
      secs_lt := hhigh
      nanos_lt := part.property }
  have hfields : Timestamp.ofWireFields? (Scalar.i64.toInt word) part = some t :=
    t.ofWireFields?_self
  rw [hfields]
  refine ensures_pure ?_
  have hword : BitVec.ofInt 64 word.toInt = word := BitVec.ofInt_toInt
  simp only [t, Timestamp.form, hword, List.append_nil]
  rfl

namespace Schema

variable (schema : Schema)

/-- Bytes are decoded to a point in time just if they are those of its fields. -/
theorem decode_timestamp_iff {bytes : Bytes} {v : Value} :
    schema.decode .timestamp bytes = .ok v ↔
      ∃ t : Timestamp, v = .timestamp t ∧ bytes = Timestamp.form t.secs t.nanos := by
  have hread (bytes : Bytes) : schema.read .timestamp bytes =
      (do return .timestamp (← Reader.timestamp) : Reader Value) bytes := by
    unfold read
    cases bytes.length <;> rfl
  constructor
  · intro h
    have hrun := read_of_decode h
    rw [hread] at hrun
    have hensures := ensures_timestamp.map (f := Value.timestamp)
      (Q := fun v taken => ∃ t : Timestamp, v = .timestamp t ∧
        Timestamp.form t.secs t.nanos = taken) fun t taken ht => ⟨t, rfl, ht⟩
    obtain ⟨taken, rfl, t, rfl, rfl⟩ := hensures bytes [] v hrun
    exact ⟨t, rfl, List.append_nil _⟩
  · rintro ⟨t, rfl, rfl⟩
    have hreads : (do return .timestamp (← Reader.timestamp) : Reader Value).Reads
        (Timestamp.form t.secs t.nanos) (.timestamp t) := (reads_form t).answer rfl
    have hrun := hreads []
    rw [← hread, List.append_nil] at hrun
    simp only [decode, Reader.bind_apply, hrun, Reader.finish, Reader.pure_apply]

/-- The codec of points in time, over all of them. A point is at its seconds and
nanoseconds from the epoch; no result on the way to the numbers written leaves its
field; and the bytes written are those of its own fields, unless it is the earliest
point, which is refused. The bytes of any seconds and nanoseconds in range are
decoded to the point with these fields. Bytes that are decoded are written again as
they came just if they are not those of the earliest point. -/
theorem timestamp_codec :
    (∀ t : Timestamp,
      t.sinceEpoch.instant = 1000000000 * t.secs + t.nanos ∧
      t.fieldsWithin? = some t.wireFields ∧
      (t.IsEarliest → encode (.timestamp t) = .error Timestamp.outOfRange) ∧
      (¬ t.IsEarliest → encode (.timestamp t) = .ok (Timestamp.form t.secs t.nanos))) ∧
    (∀ (secs : Int) (nanos : Nat), -0x8000000000000000 ≤ secs → secs < 0x8000000000000000 →
      nanos < 1000000000 → ∃ t : Timestamp, t.secs = secs ∧ t.nanos = nanos ∧
        schema.decode .timestamp (Timestamp.form secs nanos) = .ok (.timestamp t)) ∧
    ∀ bytes v, schema.decode .timestamp bytes = .ok v → ∃ t : Timestamp, v = .timestamp t ∧
      bytes = Timestamp.form t.secs t.nanos ∧ (encode v = .ok bytes ↔ ¬ t.IsEarliest) := by
  refine ⟨fun t => ⟨t.instant_sinceEpoch, t.fieldsWithin?_eq, Timestamp.encode_of_isEarliest,
    Timestamp.encode_of_not_isEarliest⟩, fun secs nanos hlow hhigh hnanos => ?_,
    fun bytes v h => ?_⟩
  · let t : Timestamp := { secs, nanos, le_secs := hlow, secs_lt := hhigh, nanos_lt := hnanos }
    exact ⟨t, rfl, rfl, (decode_timestamp_iff schema).2 ⟨t, rfl, rfl⟩⟩
  · obtain ⟨t, rfl, rfl⟩ := (decode_timestamp_iff schema).1 h
    refine ⟨t, rfl, rfl, fun hencode hearliest => ?_, Timestamp.encode_of_not_isEarliest⟩
    rw [Timestamp.encode_of_isEarliest hearliest] at hencode
    cases hencode

/-- The point a nanosecond after the earliest one is decoded from bytes that are
written for it again. -/
theorem timestamp_codec_second :
    let bytes : Bytes := [0x80, 0, 0, 0, 0, 0, 0, 0, 0, 0, 0, 1]
    ∃ t : Timestamp, t.secs = -0x8000000000000000 ∧ t.nanos = 1 ∧
      Specimens.schema.decode .timestamp bytes = .ok (.timestamp t) ∧
      encode (.timestamp t) = .ok bytes := by
  intro bytes
  obtain ⟨hpoints, hdecode, -⟩ := timestamp_codec Specimens.schema
  obtain ⟨t, hsecs, hnanos, ht⟩ :=
    hdecode (-0x8000000000000000) 1 (by decide) (by decide) (by decide)
  have hearliest : ¬ t.IsEarliest := fun h => by simp [h.2] at hnanos
  obtain ⟨-, -, -, hencode⟩ := hpoints t
  have hform := hencode hearliest
  rw [hsecs, hnanos] at hform
  exact ⟨t, hsecs, hnanos, ht, hform⟩

/-- The earliest point is decoded and cannot be written. -/
theorem earliest_read_not_written :
    Specimens.schema.decode .timestamp [0x80, 0, 0, 0, 0, 0, 0, 0, 0, 0, 0, 0] =
      .ok (.timestamp Demo.earliest) ∧
    encode (.timestamp Demo.earliest) = .error Timestamp.outOfRange := by
  have hform : Timestamp.form Demo.earliest.secs Demo.earliest.nanos =
      [0x80, 0, 0, 0, 0, 0, 0, 0, 0, 0, 0, 0] := by rfl
  refine ⟨?_, Timestamp.encode_of_isEarliest ⟨rfl, rfl⟩⟩
  exact (decode_timestamp_iff Specimens.schema).2 ⟨Demo.earliest, rfl, hform.symm⟩

end Schema
end CoreBridge.Wire
