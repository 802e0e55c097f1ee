import CoreBridge.Wire.Reader
import CoreBridge.Wire.Writer
import Mathlib.Tactic

/-!
# Writing and reading the simple types

A reader matches an emission if it takes exactly the bytes written, whatever
follows them, and answers what was written. The lemmas below say so of every
type that is not built from others, and say how matches are put together along
a sequence of reads. Sequences, maps and declared types rest on nothing else.
-/
namespace CoreBridge

theorem Bytes.toNat_ofNat (width n : Nat) : toNat (ofNat width n) = n % 256 ^ width := by
  induction width generalizing n with
  | zero => simp [ofNat, toNat, Nat.mod_one]
  | succ width ih =>
    rw [ofNat, toNat_append_singleton, ih, Nat.pow_succ', Nat.mod_mul]
    simp [UInt8.toNat_ofNat']
    omega

namespace Wire

namespace Emission

theorem append_eq_raw {first second : Emission} {bytes : Bytes} :
    first ++ second = raw bytes ↔
      ∃ b₁ b₂, first = raw b₁ ∧ second = raw b₂ ∧ b₁ ++ b₂ = bytes := by
  obtain ⟨b₁, _ | error⟩ := first
  · obtain ⟨b₂, f₂⟩ := second
    constructor
    · intro h
      obtain ⟨rfl, rfl⟩ := Emission.mk.inj h
      exact ⟨b₁, b₂, rfl, rfl, rfl⟩
    · rintro ⟨_, _, h₁, h₂, rfl⟩
      rw [h₁, h₂]
      rfl
  · constructor
    · intro h
      exact absurd (congrArg Emission.failure h) (Option.some_ne_none error)
    · rintro ⟨_, _, h₁, _⟩
      exact absurd (congrArg Emission.failure h₁) (Option.some_ne_none error)

theorem raw_inj {b₁ b₂ : Bytes} : raw b₁ = raw b₂ ↔ b₁ = b₂ :=
  ⟨fun h => congrArg Emission.bytes h, fun h => h ▸ rfl⟩

/-- A count that was written fits its field. -/
theorem length_eq_raw {n : Nat} {bytes : Bytes} (h : length n = raw bytes) :
    n < 0x80000000 ∧ Bytes.ofNat 4 n = bytes := by
  unfold length at h
  split at h
  · exact ⟨‹_›, raw_inj.1 h⟩
  · exact absurd (congrArg Emission.failure h) (Option.some_ne_none _)

end Emission

namespace Reader

variable {α β : Type}

/-- `r` takes exactly `bytes` off any buffer that starts with them and answers `a`. -/
def Reads (r : Reader α) (bytes : Bytes) (a : α) : Prop :=
  ∀ rest, r (bytes ++ rest) = (.ok a, rest)

theorem reads_pure (a : α) : (pure a : Reader α).Reads [] a := fun _ => rfl

theorem Reads.bind {r : Reader α} {f : α → Reader β} {first second : Bytes} {a : α} {b : β}
    (hr : r.Reads first a) (hf : (f a).Reads second b) : (r >>= f).Reads (first ++ second) b := by
  intro rest
  rw [bind_apply, List.append_assoc, hr]
  exact hf rest

/-- A step that only looks at what was read takes no further bytes. -/
theorem Reads.answer {r : Reader α} {f : α → Reader β} {bytes : Bytes} {a : α} {b : β}
    (hr : r.Reads bytes a) (hf : f a = pure b) : (r >>= f).Reads bytes b := by
  intro rest
  simp only [bind_apply, hr rest, hf, pure_apply]

theorem Reads.pair {r : Reader α} {r' : Reader β} {first second : Bytes} {a : α} {b : β}
    (hr : r.Reads first a) (hr' : r'.Reads second b) :
    (do
      let x ← r
      let y ← r'
      return (x, y)).Reads (first ++ second) (a, b) := by
  intro rest
  simp only [bind_apply, List.append_assoc, hr (second ++ rest), hr' rest, pure_apply]

theorem reads_take (bytes : Bytes) : (take bytes.length).Reads bytes bytes := by
  intro rest
  rw [take_apply, if_pos (by simp)]
  simp

theorem reads_number {width n : Nat} (h : n < 256 ^ width) :
    (number width).Reads (Bytes.ofNat width n) n := by
  have ht := reads_take (Bytes.ofNat width n)
  rw [Bytes.length_ofNat] at ht
  exact ht.answer (by rw [Bytes.toNat_ofNat, Nat.mod_eq_of_lt h])

theorem reads_scalar (k : Scalar) (word : k.Word) :
    (scalar k).Reads (Bytes.ofNat k.size word.toNat) word := by
  have hlt : word.toNat < 256 ^ k.size := by
    have h := word.isLt
    rwa [Nat.pow_mul] at h
  exact (reads_number hlt).answer (by rw [BitVec.ofNat_toNat, BitVec.setWidth_eq])

theorem reads_int (k : Scalar) (word : k.Word) :
    (int k).Reads (Bytes.ofNat k.size word.toNat) (k.toInt word) :=
  (reads_scalar k word).answer rfl

/-- A truth value and the mark of an optional value are the byte zero or one. -/
theorem reads_mark (b : Bool) : (int .i8).Reads (Bytes.ofNat 1 b.toNat) (if b then 1 else 0) := by
  cases b
  · exact reads_int .i8 0
  · exact reads_int .i8 1

theorem reads_bool (b : Bool) : bool.Reads (Bytes.ofNat 1 b.toNat) b :=
  (reads_mark b).answer (by cases b <;> rfl)

theorem reads_presence (b : Bool) : presence.Reads (Bytes.ofNat 1 b.toNat) b :=
  (reads_mark b).answer (by cases b <;> rfl)

theorem reads_length {n : Nat} (h : n < 0x80000000) : length.Reads (Bytes.ofNat 4 n) n := by
  have hword : (BitVec.ofNat 32 n).toNat = n := by
    rw [BitVec.toNat_ofNat]
    omega
  have hint : Scalar.i32.toInt (BitVec.ofNat 32 n) = Int.ofNat n := by
    change (BitVec.ofNat 32 n).toInt = (n : Int)
    rw [BitVec.toInt_eq_toNat_cond, hword, if_pos (by omega)]
  have hi : (int .i32).Reads (Bytes.ofNat 4 (BitVec.ofNat 32 n).toNat) _ :=
    reads_int .i32 (BitVec.ofNat 32 n)
  rw [hword] at hi
  exact hi.answer (by rw [hint])

theorem reads_bytesWithLength {bytes : Bytes} (h : bytes.length < 0x80000000) :
    bytesWithLength.Reads (Bytes.ofNat 4 bytes.length ++ bytes) bytes :=
  (reads_length h).bind (reads_take bytes)

theorem reads_text {s : String} (h : (Bytes.ofText s).length < 0x80000000) :
    text.Reads (Bytes.ofNat 4 (Bytes.ofText s).length ++ Bytes.ofText s) s :=
  (reads_bytesWithLength h).answer (by rw [Bytes.toText?_ofText])

theorem reads_nanos (typeName : String) {n : Nat} (h : n < 1000000000) :
    (nanos typeName).Reads (Bytes.ofNat 4 n) ⟨n, h⟩ := by
  have hn : n < 256 ^ 4 := by omega
  exact (reads_number hn).answer (dif_pos h)

theorem reads_duration (span : Duration) :
    duration.Reads (Bytes.ofNat 8 span.secs ++ Bytes.ofNat 4 span.nanos) span := by
  have hword : (BitVec.ofNat 64 span.secs).toNat = span.secs := by
    rw [BitVec.toNat_ofNat, Nat.mod_eq_of_lt span.secs_lt]
  have hsecs : (scalar .u64).Reads (Bytes.ofNat 8 (BitVec.ofNat 64 span.secs).toNat) _ :=
    reads_scalar .u64 (BitVec.ofNat 64 span.secs)
  rw [hword] at hsecs
  refine hsecs.bind ((reads_nanos "Duration" span.nanos_lt).answer ?_)
  congr

end Reader

namespace Timestamp

/-- The numbers written are the fields themselves: before the epoch the distance
counts its part of a second backward, and writing turns it round again. -/
theorem eq_of_wireFields {t : Timestamp} {secs : Int} {nanos : Nat}
    (h : t.wireFields = .ok (secs, nanos)) : secs = t.secs ∧ nanos = t.nanos := by
  have hlow := t.le_secs
  have hnanos := t.nanos_lt
  unfold wireFields sinceEpoch at h
  by_cases hs : 0 ≤ t.secs
  · simp only [if_pos hs] at h
    split_ifs at h
    obtain ⟨rfl, rfl⟩ := Prod.mk.inj (Except.ok.inj h)
    exact ⟨by omega, rfl⟩
  · by_cases hn : t.nanos = 0
    · simp only [if_neg hs, dif_pos hn, if_true] at h
      split_ifs at h
      obtain ⟨rfl, rfl⟩ := Prod.mk.inj (Except.ok.inj h)
      omega
    · simp only [if_neg hs, dif_neg hn] at h
      split_ifs at h
      · omega
      · obtain ⟨rfl, rfl⟩ := Prod.mk.inj (Except.ok.inj h)
        omega

/-- The twelve bytes of the two fields: the seconds in two's complement, then the
nanoseconds. -/
def form (secs : Int) (nanos : Nat) : Bytes :=
  Bytes.ofNat 8 (BitVec.ofInt 64 secs).toNat ++ Bytes.ofNat 4 nanos

theorem ofFields?_self (t : Timestamp) : ofFields? t.secs t.nanos = some t :=
  dif_pos ⟨t.le_secs, t.secs_lt, t.nanos_lt⟩

theorem epoch_add?_ofSecs {secs : Nat} (h : secs < 0x10000000000000000) :
    epoch.add? (.ofSecs secs h) = ofFields? secs 0 := by
  simp [epoch, add?, Duration.ofSecs]

theorem epoch_sub?_ofSecs {secs : Nat} (h : secs < 0x10000000000000000) :
    epoch.sub? (.ofSecs secs h) = ofFields? (-secs) 0 := by
  simp [epoch, sub?, Duration.ofSecs]

theorem ofWireFields?_self (t : Timestamp) : ofWireFields? t.secs t.nanos = some t := by
  have hlow := t.le_secs
  have hhigh := t.secs_lt
  have habs : t.secs.natAbs < 0x10000000000000000 ∧ t.nanos < 1000000000 := ⟨by omega, t.nanos_lt⟩
  let start : Timestamp := { secs := t.secs, nanos := 0 }
  -- Whole seconds first, on either side of the epoch.
  have hstart : (if 0 ≤ t.secs then epoch.add? (.ofSecs t.secs.natAbs habs.1)
      else epoch.sub? (.ofSecs t.secs.natAbs habs.1)) = some start := by
    rw [epoch_add?_ofSecs, epoch_sub?_ofSecs, ← start.ofFields?_self]
    split
    · rw [Int.natAbs_of_nonneg ‹_›]
    · rw [Int.ofNat_natAbs_of_nonpos (by omega), Int.neg_neg]
  have hrest : start.add? (.ofNanos t.nanos habs.2) = some t := by
    simp only [start, add?, Duration.ofNanos, Nat.zero_add, if_pos habs.2, Int.natCast_zero,
      Int.add_zero, t.ofFields?_self]
  unfold ofWireFields?
  simp only [dif_pos habs, hstart, Option.bind_some, hrest]

end Timestamp

namespace Reader

/-- The bytes of the fields of any point in time are read as that point. -/
theorem reads_form (t : Timestamp) : timestamp.Reads (Timestamp.form t.secs t.nanos) t := by
  have hword : Scalar.i64.toInt (BitVec.ofInt 64 t.secs) = t.secs := by
    change (BitVec.ofInt 64 t.secs).toInt = t.secs
    have hlow := t.le_secs
    have hhigh := t.secs_lt
    rw [BitVec.toInt_ofInt]
    exact Int.bmod_eq_of_le (by omega) (by omega)
  refine (reads_int .i64 (BitVec.ofInt 64 t.secs)).bind
    ((reads_nanos "SystemTime" t.nanos_lt).answer ?_)
  rw [hword, Timestamp.ofWireFields?_self]

theorem reads_timestamp {t : Timestamp} {bytes : Bytes} (h : Emission.timestamp t = .raw bytes) :
    timestamp.Reads bytes t := by
  unfold Emission.timestamp at h
  split at h
  · exact absurd (congrArg Emission.failure h) (Option.some_ne_none _)
  · rename_i secs nanos hfields
    obtain ⟨rfl, rfl⟩ := Timestamp.eq_of_wireFields hfields
    obtain rfl := Emission.raw_inj.1 h
    exact reads_form t

end Reader
end Wire
end CoreBridge
