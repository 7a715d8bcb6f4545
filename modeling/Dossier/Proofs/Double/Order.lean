import Mathlib
import Dossier.Reliability

/-!
Doubles in order. Every double that is a number has a rank, and numbers are compared by their
ranks: first by the sign, then by the exponent, then by the mantissa. The two zeros share a rank,
and what is no number has none. So reliabilities stand in a line, up to equality as numbers.
-/

namespace Dossier

namespace Double

open Float.Model Float.Model.UnpackedFloat

abbrev Rank := ℤ ×ₗ ℤ ×ₗ ℤ

def unpackedRank? : UnpackedFloat → Option Rank
  | .notANumber => none
  | .infinity .negative => some (toLex (-2, toLex (0, 0)))
  | .finite .negative m e _ => some (toLex (-1, toLex (-e, -m)))
  | .zero _ => some (toLex (0, toLex (0, 0)))
  | .finite .positive m e _ => some (toLex (1, toLex (e, m)))
  | .infinity .positive => some (toLex (2, toLex (0, 0)))

def rank? (x : Float) : Option Rank := unpackedRank? x.toModel.unpack

lemma compare_neg (a b : ℤ) : compare (-a) (-b) = (compare a b).swap := by
  rw [← Std.OrientedOrd.eq_swap]
  simp only [Int.compare_eq_ite_lt, neg_lt_neg_iff]

lemma compare_natCast (m n : ℕ) : compare (m : ℤ) n = compare m n := by
  simp only [Int.compare_eq_ite_lt, Nat.compare_eq_ite_lt, Nat.cast_lt]

/-- **Numbers are compared by their ranks**, and what is no number is not compared. -/
theorem compare_eq (a b : UnpackedFloat) : a.compare b =
    (unpackedRank? a).bind fun r => (unpackedRank? b).map fun s => compare r s := by
  -- within one sign the exponents count before the mantissas; all else is settled by the signs
  rcases a with (_ | _) | _ | _ | ⟨(_ | _), m, e, hm⟩ <;>
    rcases b with (_ | _) | _ | _ | ⟨(_ | _), n, f, hn⟩ <;>
    simp only [UnpackedFloat.compare, unpackedRank?, Prod.Lex.compare_def, compareLex, compareOn,
      ofLex_toLex, Option.bind_some, Option.bind_none, Option.map_some, Option.map_none,
      compare_neg, compare_natCast, ← Ordering.swap_then] <;> rfl

variable {x y z : Float}

lemma le_iff : x ≤ y ↔ ∃ r s, rank? x = some r ∧ rank? y = some s ∧ r ≤ s := by
  have hle : x ≤ y ↔ UnpackedFloat.le x.toModel.unpack y.toModel.unpack = true :=
    decide_eq_true_iff
  rw [hle, UnpackedFloat.le, compare_eq, rank?, rank?]
  cases unpackedRank? x.toModel.unpack with
  | none => simp
  | some r =>
    cases unpackedRank? y.toModel.unpack with
    | none => simp
    | some s => simp [Ordering.isLE_iff_ne_gt, compare_le_iff_le]

lemma beq_iff : (x == y) = true ↔ ∃ r, rank? x = some r ∧ rank? y = some r := by
  have hbeq : (x == y) = UnpackedFloat.beq x.toModel.unpack y.toModel.unpack := rfl
  rw [hbeq, UnpackedFloat.beq, compare_eq, rank?, rank?]
  cases unpackedRank? x.toModel.unpack with
  | none => simp
  | some r =>
    cases unpackedRank? y.toModel.unpack with
    | none => simp
    | some s =>
      have hrank : compare r s = .eq ↔ s = r := (compare_eq_iff_eq).trans eq_comm
      simpa using hrank

protected lemma le_trans (h : x ≤ y) (h' : y ≤ z) : x ≤ z := by
  rw [le_iff] at h h' ⊢
  obtain ⟨r, s, hr, hs, hrs⟩ := h
  obtain ⟨s', t, hs', ht, hst⟩ := h'
  obtain rfl : s = s' := Option.some.inj (hs.symm.trans hs')
  exact ⟨r, t, hr, ht, hrs.trans hst⟩

lemma le_of_beq (h : (x == y) = true) : x ≤ y := by
  obtain ⟨r, hx, hy⟩ := beq_iff.mp h
  exact le_iff.mpr ⟨r, r, hx, hy, le_rfl⟩

lemma beq_symm (h : (x == y) = true) : (y == x) = true := by
  obtain ⟨r, hx, hy⟩ := beq_iff.mp h
  exact beq_iff.mpr ⟨r, hy, hx⟩

lemma beq_trans (h : (x == y) = true) (h' : (y == z) = true) : (x == z) = true := by
  obtain ⟨r, hx, hy⟩ := beq_iff.mp h
  obtain ⟨s, hy', hz⟩ := beq_iff.mp h'
  obtain rfl : r = s := Option.some.inj (hy.symm.trans hy')
  exact beq_iff.mpr ⟨r, hx, hz⟩

lemma beq_self_of_le (h : x ≤ y) : (y == y) = true := by
  obtain ⟨r, s, -, hs, -⟩ := le_iff.mp h
  exact beq_iff.mpr ⟨s, hs, hs⟩

lemma not_le_of_isNaN (h : y.isNaN = true) : ¬ x ≤ y := by
  intro hle
  obtain ⟨r, s, -, hs, -⟩ := le_iff.mp hle
  have hnan : y.toModel.unpack.isNaN = true := h
  rw [rank?] at hs
  generalize y.toModel.unpack = u at hnan hs
  cases u <;> simp [UnpackedFloat.isNaN, unpackedRank?] at hnan hs

/-! ### Numbers from zero to one -/

/-- A number from zero to one; both zeros are. -/
structure InUnit (x : Float) : Prop where
  number : x.isNaN = false
  least : 0.0 ≤ x
  most : x ≤ 1.0

lemma inUnit_iff : InUnit x ↔ isReliability x = true := by
  rw [isReliability, Bool.and_eq_true, decide_eq_true_iff, decide_eq_true_iff]
  refine ⟨fun h => ⟨h.least, h.most⟩, fun h => ⟨?_, h.1, h.2⟩⟩
  by_contra hnan
  exact not_le_of_isNaN (Bool.eq_true_of_not_eq_false hnan) h.1

lemma InUnit.of_beq (h : InUnit x) (hxy : (x == y) = true) : InUnit y :=
  inUnit_iff.mpr <| by
    rw [isReliability, Bool.and_eq_true, decide_eq_true_iff, decide_eq_true_iff]
    exact ⟨Double.le_trans h.least (le_of_beq hxy),
      Double.le_trans (le_of_beq (beq_symm hxy)) h.most⟩

lemma InUnit.beq_self (h : InUnit x) : (x == x) = true := beq_self_of_le h.least

end Double

namespace Reliability

open Double

lemma inUnit (r : Reliability) : InUnit r.value := inUnit_iff.mpr r.inRange

lemma ofFloat?_eq_none_iff {x : Float} : ofFloat? x = none ↔ ¬ InUnit x := by
  rw [inUnit_iff, ofFloat?]
  split <;> simp_all

lemma eq_of_value {r s : Reliability} (h : r.value = s.value) : r = s :=
  Option.some.inj ((ofFloat?_eq_some_iff.mpr h).symm.trans s.ofFloat?_value)

/-- Equal as numbers: the two zeros are. -/
def Same (r s : Reliability) : Prop := (r.value == s.value) = true

instance (r s : Reliability) : Decidable (r.Same s) := inferInstanceAs (Decidable (_ = true))

variable {r s t : Reliability}

@[refl] lemma Same.refl (r : Reliability) : r.Same r := r.inUnit.beq_self

@[symm] lemma Same.symm (h : r.Same s) : s.Same r := beq_symm h

lemma Same.le (h : r.Same s) : r.value ≤ s.value := le_of_beq h

end Reliability

end Dossier
