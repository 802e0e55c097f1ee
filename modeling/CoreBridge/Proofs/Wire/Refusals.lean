import CoreBridge.Proofs.Wire.Timestamps

/-!
# Where a write stops

A value is written as it is listed: itself first, then the values in it, one behind the other
(`Value.parts`). Each of these adds bytes of its own (`Value.head`), a count or a mark or all that
there is of it, and the wire form is nothing but these bytes in this order. There are four reasons
why a part cannot be written (`Value.Misfit`). A write goes on to the first part that has one and
stops in front of it (`write_stops`).
-/
namespace CoreBridge.Wire

/-! ## Parts -/

mutual

/-- The value and all values in it, in the order in which they are written. -/
def Value.parts : Value → List Value
  | .present v => .present v :: v.parts
  | .seq vs => .seq vs :: Value.allParts vs
  | .map kind es => .map kind es :: Value.entryParts es
  | .record vs => .record vs :: Value.allParts vs
  | .variant i d vs => .variant i d vs :: Value.allParts vs
  | v => [v]

def Value.allParts : List Value → List Value
  | [] => []
  | v :: vs => v.parts ++ Value.allParts vs

def Value.entryParts : List (Value × Value) → List Value
  | [] => []
  | (key, value) :: es => key.parts ++ (value.parts ++ Value.entryParts es)

end

namespace Value

/-- The bytes that are a value's own, which stand before those of the values in it. -/
def head : Value → Bytes
  | .scalar k word => Bytes.ofNat k.size word.toNat
  | .bool b => Bytes.ofNat 1 b.toNat
  | .text s => Bytes.ofNat 4 (Bytes.ofText s).length ++ Bytes.ofText s
  | .duration span => Bytes.ofNat 8 span.secs ++ Bytes.ofNat 4 span.nanos
  | .timestamp t => Timestamp.form t.secs t.nanos
  | .absent => Bytes.ofNat 1 0
  | .present _ => Bytes.ofNat 1 1
  | .seq vs => Bytes.ofNat 4 vs.length
  | .map _ es => Bytes.ofNat 4 es.length
  | .record _ => []
  | .variant _ d _ => Bytes.ofNat 4 d.toNat

/-- Why the own bytes of a value cannot be written: its length or count is more than a signed
field of 32 bits holds, or its whole seconds before the epoch more than one of 64 bits does. -/
inductive Misfit : Value → EncodeError → Prop where
  | text {s : String} : 0x7fffffff < (Bytes.ofText s).length →
      Misfit (.text s) (.lengthOverflow (Bytes.ofText s).length)
  | seq {vs : List Value} : 0x7fffffff < vs.length →
      Misfit (.seq vs) (.lengthOverflow vs.length)
  | map {kind : MapKind} {es : List (Value × Value)} : 0x7fffffff < es.length →
      Misfit (.map kind es) (.lengthOverflow es.length)
  | timestamp {t : Timestamp} {span : Duration} : t.sinceEpoch = .before span →
      0x7fffffffffffffff < span.secs →
      Misfit (.timestamp t) (.invalidValue "SystemTime" "seconds from the epoch exceed i64")

/-- Whether the own bytes of a value can be written. -/
def Fits (v : Value) : Prop := ∀ error, ¬ v.Misfit error

theorem fits_text {s : String} : (text s).Fits ↔ (Bytes.ofText s).length ≤ 0x7fffffff := by
  refine ⟨fun h => Nat.le_of_not_lt fun hlength => h _ (.text hlength), fun h error hmisfit => ?_⟩
  cases hmisfit with
  | text hlength => exact Nat.not_le_of_gt hlength h

theorem fits_seq {vs : List Value} : (seq vs).Fits ↔ vs.length ≤ 0x7fffffff := by
  refine ⟨fun h => Nat.le_of_not_lt fun hlength => h _ (.seq hlength), fun h error hmisfit => ?_⟩
  cases hmisfit with
  | seq hlength => exact Nat.not_le_of_gt hlength h

theorem fits_map {kind : MapKind} {es : List (Value × Value)} :
    (map kind es).Fits ↔ es.length ≤ 0x7fffffff := by
  refine ⟨fun h => Nat.le_of_not_lt fun hlength => h _ (.map hlength), fun h error hmisfit => ?_⟩
  cases hmisfit with
  | map hlength => exact Nat.not_le_of_gt hlength h

end Value

/-! ## Writing the parts -/

namespace Emission

theorem append_empty (e : Emission) : e ++ empty = e := by
  obtain ⟨bytes, _ | error⟩ := e
  · exact congrArg (Emission.mk · none) (List.append_nil bytes)
  · rfl

theorem append_assoc (e₁ e₂ e₃ : Emission) : e₁ ++ e₂ ++ e₃ = e₁ ++ (e₂ ++ e₃) := by
  obtain ⟨b₁, _ | error₁⟩ := e₁
  · obtain ⟨b₂, _ | error₂⟩ := e₂
    · exact congrArg (Emission.mk · e₃.failure) (List.append_assoc b₁ b₂ e₃.bytes)
    · rfl
  · rfl

/-- The own bytes of a value, or the failure to write them. -/
def ofHead : Value → Emission
  | .text s => .text s
  | .timestamp t => .timestamp t
  | .seq vs => .length vs.length
  | .map _ es => .length es.length
  | v => .raw v.head

/-- The own bytes of the values one after the other. -/
def ofHeads : List Value → Emission
  | [] => .empty
  | v :: vs => ofHead v ++ ofHeads vs

theorem ofHeads_append (vs ws : List Value) : ofHeads (vs ++ ws) = ofHeads vs ++ ofHeads ws := by
  induction vs with
  | nil => rfl
  | cons v vs ih => rw [List.cons_append, ofHeads, ih, ← append_assoc, ofHeads]

theorem ofHeads_singleton (v : Value) : ofHeads [v] = ofHead v := append_empty _

end Emission

open Emission

mutual

/-- A value is written part by part. -/
theorem Value.emit_eq : ∀ v : Value, v.emit = ofHeads v.parts
  | .scalar k word => (ofHeads_singleton (.scalar k word)).symm
  | .bool b => (ofHeads_singleton (.bool b)).symm
  | .text s => (ofHeads_singleton (.text s)).symm
  | .duration span => (ofHeads_singleton (.duration span)).symm
  | .timestamp t => (ofHeads_singleton (.timestamp t)).symm
  | .absent => (ofHeads_singleton .absent).symm
  | .present v => congrArg (ofHead (.present v) ++ ·) (Value.emit_eq v)
  | .seq vs => congrArg (ofHead (.seq vs) ++ ·) (Value.emitAll_eq vs)
  | .map kind es => congrArg (ofHead (.map kind es) ++ ·) (Value.emitEntries_eq es)
  | .record vs => Value.emitAll_eq vs
  | .variant i d vs => congrArg (ofHead (.variant i d vs) ++ ·) (Value.emitAll_eq vs)

theorem Value.emitAll_eq : ∀ vs : List Value, Value.emitAll vs = ofHeads (Value.allParts vs)
  | [] => rfl
  | v :: vs => by
    rw [Value.emitAll, Value.allParts, ofHeads_append, Value.emit_eq v, Value.emitAll_eq vs]

theorem Value.emitEntries_eq : ∀ es : List (Value × Value),
    Value.emitEntries es = ofHeads (Value.entryParts es)
  | [] => rfl
  | (key, value) :: es => by
    rw [Value.emitEntries, Value.entryParts, ofHeads_append, ofHeads_append, Value.emit_eq key,
      Value.emit_eq value, Value.emitEntries_eq es]

end

/-! ## Which parts can be written -/

/-- The whole seconds before the epoch are too many for the earliest point in time only. -/
theorem Timestamp.isEarliest_iff (t : Timestamp) : t.IsEarliest ↔
    ∃ span, t.sinceEpoch = .before span ∧ 0x7fffffffffffffff < span.secs := by
  have hlow := t.le_secs
  have hnanos := t.nanos_lt
  unfold IsEarliest sinceEpoch
  constructor
  · rintro ⟨hsecs, hzero⟩
    rw [if_neg (by omega), dif_pos hzero]
    exact ⟨_, rfl, by dsimp only; omega⟩
  · rintro ⟨span, hspan, hlarge⟩
    split_ifs at hspan with hsign hzero
    · obtain rfl := Offset.before.inj hspan
      dsimp only at hlarge
      exact ⟨by omega, hzero⟩
    · obtain rfl := Offset.before.inj hspan
      dsimp only at hlarge
      omega

namespace Emission

theorem length_of_le {n : Nat} (h : n ≤ 0x7fffffff) : length n = .raw (Bytes.ofNat 4 n) :=
  if_pos (by omega)

theorem length_of_lt {n : Nat} (h : 0x7fffffff < n) : length n = .fail (.lengthOverflow n) :=
  if_neg (by omega)

/-- A part that has a reason not to be written is refused for it, and nothing of it is written. -/
theorem ofHead_of_misfit {v : Value} {error : EncodeError} (h : v.Misfit error) :
    ofHead v = .fail error := by
  cases h with
  | text hlength =>
    rw [ofHead, Emission.text, bytesWithLength, length_of_lt hlength]
    rfl
  | seq hlength => exact length_of_lt hlength
  | map hlength => exact length_of_lt hlength
  | @timestamp t span hspan hlarge =>
    have hearliest := t.isEarliest_iff.2 ⟨span, hspan, hlarge⟩
    rw [ofHead, Emission.timestamp, Timestamp.wireFields_of_isEarliest hearliest]
    rfl

/-- A part that has none is written whole. -/
theorem ofHead_of_fits {v : Value} (h : v.Fits) : ofHead v = .raw v.head := by
  cases v with
  | text s =>
    rw [ofHead, Emission.text, bytesWithLength, length_of_le (Value.fits_text.1 h)]
    rfl
  | seq vs => exact length_of_le (Value.fits_seq.1 h)
  | map kind es => exact length_of_le (Value.fits_map.1 h)
  | timestamp t =>
    have hearliest : ¬ t.IsEarliest := by
      intro hearliest
      obtain ⟨span, hspan, hlarge⟩ := t.isEarliest_iff.1 hearliest
      exact h _ (.timestamp hspan hlarge)
    rw [ofHead, Emission.timestamp, Timestamp.wireFields_of_not_isEarliest hearliest]
    rfl
  | _ => rfl

theorem ofHeads_of_fits {vs : List Value} (h : ∀ v ∈ vs, v.Fits) :
    ofHeads vs = .raw (vs.flatMap Value.head) := by
  induction vs with
  | nil => rfl
  | cons v vs ih =>
    obtain ⟨hv, hvs⟩ := List.forall_mem_cons.1 h
    rw [ofHeads, ofHead_of_fits hv, ih hvs]
    rfl

/-- What is written of a list of parts up to the first that cannot be written. -/
theorem ofHeads_of_misfit {before after : List Value} {v : Value} {error : EncodeError}
    (hbefore : ∀ u ∈ before, u.Fits) (hv : v.Misfit error) :
    ofHeads (before ++ v :: after) = ⟨before.flatMap Value.head, some error⟩ := by
  rw [ofHeads_append, ofHeads_of_fits hbefore, ofHeads, ofHead_of_misfit hv]
  exact congrArg (Emission.mk · (some error)) (List.append_nil _)

end Emission

/-- Of parts that cannot all be written there is a first. -/
theorem exists_first_misfit {vs : List Value} (h : ∃ v ∈ vs, ∃ error, v.Misfit error) :
    ∃ before v after error, vs = before ++ v :: after ∧ (∀ u ∈ before, u.Fits) ∧
      v.Misfit error := by
  induction vs with
  | nil => simp at h
  | cons v vs ih =>
    by_cases hv : ∃ error, v.Misfit error
    · obtain ⟨error, herror⟩ := hv
      exact ⟨[], v, vs, error, rfl, by simp, herror⟩
    · have hvs : ∃ u ∈ vs, ∃ error, u.Misfit error := by simpa [hv] using h
      obtain ⟨before, u, after, error, rfl, hbefore, hu⟩ := ih hvs
      refine ⟨v :: before, u, after, error, rfl, ?_, hu⟩
      exact List.forall_mem_cons.2 ⟨not_exists.1 hv, hbefore⟩

/-! ## A write -/

namespace Writer

variable (w : Writer) (v : Value)

theorem write_of_fits (h : ∀ part ∈ v.parts, part.Fits) :
    w.write v = (.ok (), ⟨w.bytes ++ v.parts.flatMap Value.head⟩) ∧
      encode v = .ok (v.parts.flatMap Value.head) := by
  have hemit : v.emit = .raw (v.parts.flatMap Value.head) := by
    rw [v.emit_eq, ofHeads_of_fits h]
  refine ⟨?_, encode_eq_ok.2 hemit⟩
  rw [write, hemit]
  rfl

theorem write_of_misfit {before after : List Value} {part : Value} {error : EncodeError}
    (hparts : v.parts = before ++ part :: after) (hbefore : ∀ u ∈ before, u.Fits)
    (hpart : part.Misfit error) :
    w.write v = (.error error, ⟨w.bytes ++ before.flatMap Value.head⟩) ∧
      encode v = .error error := by
  have hemit : v.emit = ⟨before.flatMap Value.head, some error⟩ := by
    rw [v.emit_eq, hparts, ofHeads_of_misfit hbefore hpart]
  constructor
  · rw [write, hemit]
    rfl
  · rw [encode, hemit]

/-- A write goes on to the first part that cannot be written, and stops in front of it. It fails
iff a part of the value, be it the value itself or anything in it, has a length, a count or whole
seconds that are too many. The failure is then that of the first such part in the order of writing,
and the writer holds what it held before, and after that the bytes of all parts in front of this
one and nothing else; of a value that is encoded alone the failure is all there is. If there is no
such part, all parts are written, as they are for a value that is encoded alone. -/
theorem write_stops :
    ((∃ error, (w.write v).1 = .error error) ↔ ∃ part ∈ v.parts, ∃ error, part.Misfit error) ∧
      (∀ before part after error, v.parts = before ++ part :: after → (∀ u ∈ before, u.Fits) →
        part.Misfit error →
          w.write v = (.error error, ⟨w.bytes ++ before.flatMap Value.head⟩) ∧
            encode v = .error error) ∧
      ((∀ part ∈ v.parts, part.Fits) →
        w.write v = (.ok (), ⟨w.bytes ++ v.parts.flatMap Value.head⟩) ∧
          encode v = .ok (v.parts.flatMap Value.head)) := by
  refine ⟨⟨?_, ?_⟩, fun _ _ _ _ => w.write_of_misfit v, w.write_of_fits v⟩
  · rintro ⟨error, herror⟩
    by_contra hnone
    have hfits : ∀ part ∈ v.parts, part.Fits := fun part hpart error hmisfit =>
      hnone ⟨part, hpart, error, hmisfit⟩
    rw [(w.write_of_fits v hfits).1] at herror
    cases herror
  · intro h
    obtain ⟨before, part, after, error, hparts, hbefore, hpart⟩ := exists_first_misfit h
    exact ⟨error, congrArg Prod.fst (w.write_of_misfit v hparts hbefore hpart).1⟩

/-- A count that is too large stops a write behind the mark in front of it, and the earliest point
in time stops one behind the text in front of it. -/
theorem write_stops_early :
    (∃ vs : List Value, vs.length = 0x80000000 ∧
      (⟨[7]⟩ : Writer).write (.record [.bool true, .seq vs]) =
        (.error (.lengthOverflow 0x80000000), ⟨[7, 1]⟩)) ∧
      (⟨[7]⟩ : Writer).write (.seq [.text "a", .timestamp Demo.earliest, .text "b"]) =
        (.error Timestamp.outOfRange, ⟨[7, 0, 0, 0, 3, 0, 0, 0, 1, 97]⟩) := by
  constructor
  · obtain ⟨vs, hcount⟩ : ∃ vs : List Value, vs.length = 0x80000000 :=
      ⟨List.replicate _ .absent, List.length_replicate⟩
    have hmisfit : (Value.seq vs).Misfit (.lengthOverflow 0x80000000) :=
      hcount ▸ .seq (by rw [hcount]; decide)
    have hrecord : (Value.record [.bool true, .seq vs]).Fits := fun error h => by cases h
    have hmark : (Value.bool true).Fits := fun error h => by cases h
    have hbefore := List.forall_mem_cons.2 ⟨hrecord, List.forall_mem_singleton.2 hmark⟩
    obtain ⟨-, hstops, -⟩ := write_stops ⟨[7]⟩ (.record [.bool true, .seq vs])
    exact ⟨vs, hcount, (hstops _ _ _ _ rfl hbefore hmisfit).1⟩
  · obtain ⟨span, hspan, hlarge⟩ := Demo.earliest.isEarliest_iff.1 ⟨rfl, rfl⟩
    have hdated : (Value.seq [.text "a", .timestamp Demo.earliest, .text "b"]).Fits :=
      Value.fits_seq.2 (by decide)
    have htext : (Value.text "a").Fits := Value.fits_text.2 (by decide)
    have hbefore := List.forall_mem_cons.2 ⟨hdated, List.forall_mem_singleton.2 htext⟩
    obtain ⟨-, hstops, -⟩ :=
      write_stops ⟨[7]⟩ (.seq [.text "a", .timestamp Demo.earliest, .text "b"])
    exact (hstops _ _ [.text "b"] _ rfl hbefore (.timestamp hspan hlarge)).1

end Writer
end CoreBridge.Wire
