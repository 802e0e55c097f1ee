import CoreBridge.Wire.Order
import Mathlib.Tactic

/-!
# Entries of maps

Within one type the rank of a value determines the value: ranks are
self-delimiting, so they can be read back even from the front of a longer list.
Hence keys that differ have ranks that differ, and a map whose entries are
added one after the other, in the order in which it lists them, is built again
entry by entry.
-/
namespace CoreBridge.Wire

variable {schema scope : Schema}

theorem Scalar.toInt_injective {k : Scalar} {a b : k.Word} (h : k.toInt a = k.toInt b) : a = b := by
  unfold Scalar.toInt at h
  split at h
  · exact BitVec.toInt_inj.1 h
  · exact BitVec.toNat_inj.1 (Int.ofNat.inj h)

namespace Value

/-! ## The values of each type -/

variable {w : Value}

theorem HasType.eq_scalar {k : Scalar} (h : w.HasType schema scope (.scalar k)) :
    ∃ word, w = .scalar k word := by
  cases w with
  | scalar k' word =>
    obtain rfl : k = k' := Ty.scalar.inj h
    exact ⟨word, rfl⟩
  | _ => simp at h

theorem HasType.eq_bool (h : w.HasType schema scope .bool) : ∃ b, w = .bool b := by
  cases w <;> simp_all

theorem HasType.eq_text (h : w.HasType schema scope .text) : ∃ s, w = .text s := by
  cases w <;> simp_all

theorem HasType.eq_duration (h : w.HasType schema scope .duration) :
    ∃ span, w = .duration span := by
  cases w <;> simp_all

theorem HasType.eq_timestamp (h : w.HasType schema scope .timestamp) :
    ∃ t, w = .timestamp t := by
  cases w <;> simp_all

theorem HasType.eq_option {t : Ty} (h : w.HasType schema scope (.option t)) :
    w = .absent ∨ ∃ u, w = .present u ∧ u.HasType schema scope t := by
  cases w <;> simp_all

theorem HasType.eq_seq {t : Ty} (h : w.HasType schema scope (.seq t)) :
    ∃ ws, w = .seq ws ∧ AllHaveType schema ws t := by
  cases w <;> simp_all

theorem HasType.eq_map {kind : MapKind} {k v : Ty} (h : w.HasType schema scope (.map kind k v)) :
    ∃ es, w = .map kind es ∧ EntriesHaveType schema es k v := by
  cases w <;> simp_all

theorem HasType.eq_record {name : String} {fields : List Field} {earlier : Schema}
    (hfind : scope.find name = (.record fields, earlier))
    (h : w.HasType schema scope (.named name)) :
    ∃ ws, w = .record ws ∧ FieldsHaveType schema earlier ws fields := by
  cases w <;> simp_all

theorem HasType.eq_variant {name : String} {variants : List Variant} {earlier : Schema}
    (hfind : scope.find name = (.enumeration variants, earlier))
    (h : w.HasType schema scope (.named name)) :
    ∃ i variant ws, w = .variant i variant.discriminant ws ∧ variants[i]? = some variant ∧
      FieldsHaveType schema earlier ws variant.fields := by
  cases w with
  | variant i d ws =>
    obtain ⟨_, _, _, variant, hname, hfind', hvariant, rfl, hfields⟩ := h
    obtain rfl := Ty.named.inj hname
    simp only [hfind, Prod.mk.injEq, Decl.enumeration.injEq] at hfind'
    obtain ⟨rfl, rfl⟩ := hfind'
    exact ⟨i, variant, ws, rfl, hvariant, hfields⟩
  | record ws =>
    obtain ⟨_, _, _, hname, hfind', _⟩ := h
    obtain rfl := Ty.named.inj hname
    simp [hfind] at hfind'
  | _ => simp at h

/-! ## Ranks -/

/-- The rank of a text is ended by the first zero. -/
theorem text_rank_append_inj {bs cs : Bytes} {x y : List Int}
    (h : bs.map (fun byte => (byte.toNat : Int) + 1) ++ 0 :: x =
      cs.map (fun byte => (byte.toNat : Int) + 1) ++ 0 :: y) : bs = cs ∧ x = y := by
  induction bs generalizing cs with
  | nil =>
    cases cs with
    | nil => exact ⟨rfl, (List.cons.inj h).2⟩
    | cons c cs =>
      have hhead : (0 : Int) = c.toNat + 1 := (List.cons.inj h).1
      omega
  | cons b bs ih =>
    cases cs with
    | nil =>
      have hhead : (b.toNat : Int) + 1 = 0 := (List.cons.inj h).1
      omega
    | cons c cs =>
      have hhead : (b.toNat : Int) + 1 = c.toNat + 1 := (List.cons.inj h).1
      obtain ⟨rfl, rfl⟩ := ih (List.cons.inj h).2
      obtain rfl : b = c := UInt8.toNat_inj.1 (by omega)
      exact ⟨rfl, rfl⟩

mutual

/-- Values of one type whose ranks start the same list are equal. The recursion
is on the first value; its type tells the form of the second. -/
theorem rank_append_inj : ∀ (v : Value) {scope : Schema} {t : Ty} {w : Value} {x y : List Int},
    v.HasType schema scope t → w.HasType schema scope t → v.rank ++ x = w.rank ++ y →
      v = w ∧ x = y
  | .scalar k word, scope, t, w, x, y, hv, hw, h => by
    obtain rfl : t = .scalar k := hv
    obtain ⟨word', rfl⟩ := hw.eq_scalar
    obtain ⟨hword, rfl⟩ := List.cons.inj h
    obtain rfl := Scalar.toInt_injective hword
    exact ⟨rfl, rfl⟩
  | .bool b, scope, t, w, x, y, hv, hw, h => by
    obtain rfl : t = .bool := hv
    obtain ⟨b', rfl⟩ := hw.eq_bool
    obtain ⟨hb, rfl⟩ := List.cons.inj h
    obtain rfl : b = b' := by cases b <;> cases b' <;> simp_all
    exact ⟨rfl, rfl⟩
  | .text s, scope, t, w, x, y, hv, hw, h => by
    obtain rfl : t = .text := hv
    obtain ⟨s', rfl⟩ := hw.eq_text
    simp only [rank, List.append_assoc, List.singleton_append] at h
    obtain ⟨hs, rfl⟩ := text_rank_append_inj h
    obtain rfl := Bytes.ofText_injective hs
    exact ⟨rfl, rfl⟩
  | .duration span, scope, t, w, x, y, hv, hw, h => by
    obtain rfl : t = .duration := hv
    obtain ⟨⟨secs, nanos, _, _⟩, rfl⟩ := hw.eq_duration
    simp only [rank, List.cons_append, List.nil_append, List.cons.injEq, Int.ofNat_inj] at h
    obtain ⟨rfl, rfl, rfl⟩ := h
    exact ⟨rfl, rfl⟩
  | .timestamp time, scope, t, w, x, y, hv, hw, h => by
    obtain rfl : t = .timestamp := hv
    obtain ⟨⟨secs, nanos, _, _, _⟩, rfl⟩ := hw.eq_timestamp
    simp only [rank, List.cons_append, List.nil_append, List.cons.injEq, Int.ofNat_inj] at h
    obtain ⟨rfl, rfl, rfl⟩ := h
    exact ⟨rfl, rfl⟩
  | .absent, scope, t, w, x, y, hv, hw, h => by
    obtain ⟨s, rfl⟩ := hv
    obtain rfl | ⟨u, rfl, _⟩ := hw.eq_option
    · exact ⟨rfl, (List.cons.inj h).2⟩
    · exact absurd (List.cons.inj h).1 (by decide)
  | .present v, scope, t, w, x, y, hv, hw, h => by
    obtain ⟨s, rfl, hv⟩ := hv
    obtain rfl | ⟨u, rfl, hu⟩ := hw.eq_option
    · exact absurd (List.cons.inj h).1 (by decide)
    · obtain ⟨rfl, rfl⟩ := rank_append_inj v hv hu (List.cons.inj h).2
      exact ⟨rfl, rfl⟩
  | .seq vs, scope, t, w, x, y, hv, hw, h => by
    obtain ⟨s, rfl, hvs⟩ := hv
    obtain ⟨ws, rfl, hws⟩ := hw.eq_seq
    obtain ⟨rfl, rfl⟩ := ranks_append_inj vs hvs hws h
    exact ⟨rfl, rfl⟩
  | .map kind es, scope, t, w, x, y, hv, hw, h => by
    obtain ⟨k, v, rfl, hes⟩ := hv
    obtain ⟨fs, rfl, hfs⟩ := hw.eq_map
    obtain ⟨rfl, rfl⟩ := entryRanks_append_inj es hes hfs h
    exact ⟨rfl, rfl⟩
  | .record vs, scope, t, w, x, y, hv, hw, h => by
    obtain ⟨name, fields, earlier, rfl, hfind, hvs⟩ := hv
    obtain ⟨ws, rfl, hws⟩ := hw.eq_record hfind
    obtain ⟨rfl, rfl⟩ := fieldRanks_append_inj vs hvs hws h
    exact ⟨rfl, rfl⟩
  | .variant i d vs, scope, t, w, x, y, hv, hw, h => by
    obtain ⟨name, variants, earlier, variant, rfl, hfind, hvariant, rfl, hvs⟩ := hv
    obtain ⟨j, variant', ws, rfl, hvariant', hws⟩ := hw.eq_variant hfind
    obtain ⟨hij, htail⟩ := List.cons.inj h
    obtain rfl := Int.ofNat_inj.1 hij
    obtain rfl := Option.some.inj (hvariant.symm.trans hvariant')
    obtain ⟨rfl, rfl⟩ := fieldRanks_append_inj vs hvs hws htail
    exact ⟨rfl, rfl⟩

theorem ranks_append_inj : ∀ (vs : List Value) {t : Ty} {ws : List Value} {x y : List Int},
    AllHaveType schema vs t → AllHaveType schema ws t → ranks vs ++ x = ranks ws ++ y →
      vs = ws ∧ x = y
  | [], t, [], x, y, _, _, h => ⟨rfl, (List.cons.inj h).2⟩
  | [], t, w :: ws, x, y, _, _, h => absurd (List.cons.inj h).1 (by decide)
  | v :: vs, t, [], x, y, _, _, h => absurd (List.cons.inj h).1 (by decide)
  | v :: vs, t, w :: ws, x, y, hvs, hws, h => by
    simp only [ranks, List.cons_append, List.append_assoc, List.cons.injEq, true_and] at h
    obtain ⟨rfl, htail⟩ := rank_append_inj v hvs.1 hws.1 h
    obtain ⟨rfl, rfl⟩ := ranks_append_inj vs hvs.2 hws.2 htail
    exact ⟨rfl, rfl⟩

theorem entryRanks_append_inj : ∀ (es : List (Value × Value)) {k t : Ty}
    {fs : List (Value × Value)} {x y : List Int},
    EntriesHaveType schema es k t → EntriesHaveType schema fs k t →
      entryRanks es ++ x = entryRanks fs ++ y → es = fs ∧ x = y
  | [], k, t, [], x, y, _, _, h => ⟨rfl, (List.cons.inj h).2⟩
  | [], k, t, f :: fs, x, y, _, _, h => absurd (List.cons.inj h).1 (by decide)
  | (key, v) :: es, k, t, [], x, y, _, _, h => absurd (List.cons.inj h).1 (by decide)
  | (key, v) :: es, k, t, (key', v') :: fs, x, y, hes, hfs, h => by
    simp only [entryRanks, List.cons_append, List.append_assoc, List.cons.injEq, true_and] at h
    obtain ⟨rfl, hv⟩ := rank_append_inj key hes.1 hfs.1 h
    obtain ⟨rfl, htail⟩ := rank_append_inj v hes.2.1 hfs.2.1 hv
    obtain ⟨rfl, rfl⟩ := entryRanks_append_inj es hes.2.2 hfs.2.2 htail
    exact ⟨rfl, rfl⟩

theorem fieldRanks_append_inj : ∀ (vs : List Value) {scope : Schema} {fields : List Field}
    {ws : List Value} {x y : List Int},
    FieldsHaveType schema scope vs fields → FieldsHaveType schema scope ws fields →
      fieldRanks vs ++ x = fieldRanks ws ++ y → vs = ws ∧ x = y
  | [], scope, [], [], x, y, _, _, h => ⟨rfl, h⟩
  | v :: vs, scope, f :: fields, w :: ws, x, y, hvs, hws, h => by
    simp only [fieldRanks, List.append_assoc] at h
    obtain ⟨rfl, htail⟩ := rank_append_inj v hvs.1 hws.1 h
    obtain ⟨rfl, rfl⟩ := fieldRanks_append_inj vs hvs.2 hws.2 htail
    exact ⟨rfl, rfl⟩

end

/-- Values of one type with the same rank are equal. -/
theorem eq_of_rank_eq {t : Ty} {v w : Value} (hv : v.HasType schema scope t)
    (hw : w.HasType schema scope t) (h : v.rank = w.rank) : v = w :=
  (rank_append_inj v hv hw (x := []) (y := []) (by rw [h])).1

end Value

/-! ## Building a map -/

/-- Whether a key may be listed before another one: below it in an ordered map,
and merely different from it in a hashed one, which lists its entries in any order. -/
def MapKind.Precedes : MapKind → Value → Value → Prop
  | .ordered, a, b => compare a.rank b.rank = .lt
  | .hashed, a, b => a ≠ b

namespace Entries

theorem insertOrdered_of_forall_lt {key value : Value} {es : Entries}
    (h : ∀ e ∈ es, compare e.1.rank key.rank = .lt) :
    insertOrdered key.rank key value es = es ++ [(key, value)] := by
  induction es with
  | nil => rfl
  | cons e es ih =>
    have hgt : compare key.rank e.1.rank = .gt :=
      Std.OrientedCmp.gt_of_lt (h e List.mem_cons_self)
    rw [insertOrdered, hgt]
    simp only [List.cons_append, ih fun e' he' => h e' (List.mem_cons_of_mem e he')]

theorem insertHashed_of_forall_ne {key value : Value} {es : Entries}
    (h : ∀ e ∈ es, key.rank ≠ e.1.rank) :
    insertHashed key.rank key value es = es ++ [(key, value)] := by
  induction es with
  | nil => rfl
  | cons e es ih =>
    rw [insertHashed, if_neg (h e List.mem_cons_self)]
    simp only [List.cons_append, ih fun e' he' => h e' (List.mem_cons_of_mem e he')]

variable {k v : Ty}

/-- An entry whose key comes after all others is added at the end. -/
theorem insert_of_precedes {kind : MapKind} {key value : Value} {es : Entries}
    (hkey : key.HasType schema schema k) (hes : ∀ e ∈ es, e.1.HasType schema schema k)
    (h : ∀ e ∈ es, kind.Precedes e.1 key) :
    es.insert kind key value = es ++ [(key, value)] := by
  cases kind with
  | ordered => exact insertOrdered_of_forall_lt h
  | hashed =>
    refine insertHashed_of_forall_ne fun e he hrank => ?_
    exact h e he (Value.eq_of_rank_eq hkey (hes e he) hrank).symm

theorem hasType_of_mem {es : Entries} (h : Value.EntriesHaveType schema es k v) :
    ∀ e ∈ es, e.1.HasType schema schema k := by
  induction es with
  | nil => simp
  | cons e es ih =>
    intro e' he'
    rcases List.mem_cons.1 he' with rfl | he'
    · exact h.1
    · exact ih h.2.2 e' he'

/-- Adding the entries of a map in the order in which it lists them builds the map again. -/
theorem ofList_eq_self {kind : MapKind} {es : Entries}
    (htype : Value.EntriesHaveType schema es k v)
    (h : es.Pairwise fun a b => kind.Precedes a.1 b.1) : ofList kind es = es := by
  have hmem := hasType_of_mem htype
  clear htype
  suffices ∀ rest done : Entries, done ++ rest = es →
      rest.foldl (fun map entry => map.insert kind entry.1 entry.2) done = es from
    this es [] rfl
  intro rest
  induction rest with
  | nil => exact fun done hsplit => by simpa using hsplit
  | cons e rest ih =>
    intro done hsplit
    subst hsplit
    obtain ⟨key, value⟩ := e
    have hlast : done.insert kind key value = done ++ [(key, value)] :=
      insert_of_precedes (hmem _ List.mem_append_cons_self)
        (fun e he => hmem e (List.mem_append_left _ he))
        fun e he => (List.pairwise_append.1 h).2.2 e he _ List.mem_cons_self
    simp only [List.foldl_cons, hlast]
    exact ih (done ++ [(key, value)]) (by simp)

end Entries
end CoreBridge.Wire
