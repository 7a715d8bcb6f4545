import Mathlib
import Dossier.Proofs.Double.Bits

/-!
Decimals as doubles. Short decimals are read by one operation on two doubles that are exact, all
others by exact arithmetic; both ways lead to the double that encloses the decimal.
-/

namespace Dossier.Double

open Float.Model Float.Model.UnpackedFloat

variable {m : ℕ} {q : ℤ}

lemma unpack_pack (hc : Canonical m q) (hq : q ≤ 971) (s : Sign) :
    (Float.Model.pack (.finite s m q hc.pos)).unpack = .finite s m q hc.pos := by
  obtain ⟨e, f, h⟩ := Fields.of_canonical hc hq
  show UnpackedFloat.unpack .binary64 (UnpackedFloat.pack .binary64 _) = _
  rw [h.pack s]
  exact h.unpack s

lemma encloses_self (m : ℕ) (q : ℤ) : Encloses m q (m * 2 ^ q) := by
  have hpow : (0 : ℚ) < 2 ^ q := by positivity
  refine ⟨?_, ?_, fun _ => ⟨?_, ?_⟩⟩
  · refine mul_le_mul_of_nonneg_right ?_ hpow.le
    split_ifs <;> linarith
  · exact mul_le_mul_of_nonneg_right (by linarith) hpow.le
  · exact mul_lt_mul_of_pos_right (by linarith) hpow
  · exact mul_lt_mul_of_pos_right (by linarith) hpow

lemma zpow_eq_div {b : ℚ} (hb : b ≠ 0) (i : ℤ) : b ^ i = b ^ i.toNat / b ^ (-i).toNat := by
  rw [← zpow_natCast, ← zpow_natCast, ← zpow_sub₀ hb]
  congr 1
  omega

/-- A positive number that is a natural one and has all the digits that a double can have. -/
def IsExact (n : ℕ) (u : UnpackedFloat) : Prop :=
  ∃ (m : ℕ) (q : ℤ) (hpos : 0 < m),
    u = .finite .positive m q hpos ∧ 2 ^ 52 ≤ m ∧ (m : ℚ) * 2 ^ q = n

/-- The same, to be computed. -/
def isExact (n : ℕ) : UnpackedFloat → Bool
  | .finite .positive m q _ =>
    decide (2 ^ 52 ≤ m) && m * 2 ^ q.toNat == n * 2 ^ (-q).toNat
  | _ => false

lemma IsExact.of_isExact {n : ℕ} {u : UnpackedFloat} (h : isExact n u = true) : IsExact n u := by
  cases u with
  | finite s m q hpos =>
    cases s with
    | negative => cases h
    | positive =>
      simp only [isExact, Bool.and_eq_true, decide_eq_true_eq, beq_iff_eq] at h
      refine ⟨m, q, hpos, rfl, h.1, ?_⟩
      have hpow : (0 : ℚ) < 2 ^ (-q).toNat := by positivity
      rw [zpow_eq_div two_ne_zero, ← mul_div_assoc, div_eq_iff hpow.ne']
      exact_mod_cast h.2
  | _ => cases h

lemma isExact_table : ∀ e : Fin Float.exactlyRepresentablePowersOfTen.size,
    isExact (10 ^ e.val) Float.exactlyRepresentablePowersOfTen[e.val].toModel.unpack = true := by
  decide +kernel

lemma isExact_powerOfTen (e : ℕ) (he : e < Float.exactlyRepresentablePowersOfTen.size) :
    IsExact (10 ^ e) Float.exactlyRepresentablePowersOfTen[e].toModel.unpack :=
  .of_isExact (isExact_table ⟨e, he⟩)

lemma canonical_shiftLeft {n k : ℕ} (hpos : 0 < n) (hk : k + n.log2 = 52) :
    2 ^ 52 ≤ n <<< k ∧ Canonical (n <<< k) (-k) := by
  have hlow : 2 ^ 52 ≤ n <<< k := by
    rw [Nat.shiftLeft_eq, ← hk, pow_add, mul_comm]
    exact Nat.mul_le_mul_right _ (Nat.log2_self_le hpos.ne')
  have hhigh : n <<< k < 2 ^ 53 := by
    have hsum : 53 = k + (n.log2 + 1) := by omega
    rw [Nat.shiftLeft_eq, hsum, pow_add, mul_comm]
    exact Nat.mul_lt_mul_of_pos_left Nat.lt_log2_self (by positivity)
  exact ⟨hlow, by omega, hhigh, by omega, .inl hlow⟩

lemma round_natCast {n k : ℕ} (hpos : 0 < n) (hk : k + n.log2 = 52) :
    UnpackedFloat.round .binary64 .positive n 0 =
      .finite .positive (n <<< k) (-k) (canonical_shiftLeft hpos hk).2.pos := by
  have hc := (canonical_shiftLeft hpos hk).2
  have htarget : Format.binary64.targetExponent (totalExponent n 0) = -k := by
    simp only [Format.targetExponent, totalExponent, Format.mantissaBits, Format.minExponent]
    omega
  have hdecrease : decreaseExponent n 0 (-(k : ℤ)) = (n <<< k, -(k : ℤ)) := by
    have hshift : ((0 : ℤ) - -k).toNat = k := by omega
    rw [decreaseExponent, hshift, zero_sub]
  simp only [UnpackedFloat.round, htarget, hdecrease]
  exact roundWithAccuracy_eq hc (describes_exact _) hc.targetExponent.ge (encloses_self _ _)

lemma isExact_ofNat {n : ℕ} (hpos : 0 < n) (hlt : n < 2 ^ 53) :
    IsExact n n.toUInt64.toFloat.toModel.unpack := by
  have hsize : n.toUInt64.toNat = n := by
    refine UInt64.toNat_ofNat_of_lt' ?_
    show n < 2 ^ 64
    omega
  have hlog : n.log2 < 53 := (Nat.log2_lt hpos.ne').mpr hlt
  obtain ⟨k, hk⟩ : ∃ k, k + n.log2 = 52 := ⟨52 - n.log2, by omega⟩
  obtain ⟨hlow, hc⟩ := canonical_shiftLeft hpos hk
  have hnat : UnpackedFloat.ofUInt64 .binary64 n.toUInt64 =
      .finite .positive (n <<< k) (-k) hc.pos := by
    have hsign : compare (n : ℤ) 0 = .gt := compare_gt_iff_gt.mpr (by omega)
    rw [UnpackedFloat.ofUInt64, UnpackedFloat.ofNat, UnpackedFloat.ofInt, UnpackedFloat.normalize,
      hsize, hsign]
    exact round_natCast hpos hk
  have hunpack : n.toUInt64.toFloat.toModel.unpack = .finite .positive (n <<< k) (-k) hc.pos := by
    show (Float.Model.pack (UnpackedFloat.ofUInt64 .binary64 n.toUInt64)).unpack = _
    rw [hnat]
    exact unpack_pack hc (by omega) .positive
  refine ⟨n <<< k, -k, hc.pos, hunpack, hlow, ?_⟩
  rw [Nat.shiftLeft_eq, zpow_neg, zpow_natCast]
  push_cast
  field_simp

section Operations

variable {x y : Float} {a b : ℕ} (hc : Canonical m q) (hx : IsExact a x.toModel.unpack)
  (hy : IsExact b y.toModel.unpack)

include hc hx hy

lemma mul_float (hv : Encloses m q (a * b)) :
    x * y = .ofModel (.pack (.finite .positive m q hc.pos)) := by
  obtain ⟨m₁, q₁, h₁, hx, hlow, ha⟩ := hx
  obtain ⟨m₂, q₂, h₂, hy, -, hb⟩ := hy
  rw [← ha, ← hb] at hv
  show Float.ofModel (.pack (UnpackedFloat.mul .binary64 x.toModel.unpack y.toModel.unpack)) = _
  rw [hx, hy, mul_eq hc h₁ h₂ (hlow.trans (Nat.le_mul_of_pos_right _ h₂)) hv]
  rfl

lemma div_float (hv : Encloses m q (a / b)) :
    x / y = .ofModel (.pack (.finite .positive m q hc.pos)) := by
  obtain ⟨m₁, q₁, h₁, hx, -, ha⟩ := hx
  obtain ⟨m₂, q₂, h₂, hy, -, hb⟩ := hy
  rw [← ha, ← hb] at hv
  show Float.ofModel (.pack (UnpackedFloat.div .binary64 x.toModel.unpack y.toModel.unpack)) = _
  rw [hx, hy, div_eq hc h₁ h₂ hv]
  rfl

end Operations

/-- **A decimal is read as the double that encloses it**, in whichever way. -/
theorem ofScientific_float (hc : Canonical m q) (hq : q ≤ 971) {d e : ℕ} {negative : Bool}
    (hv : Encloses m q (d * 10 ^ (if negative then -(e : ℤ) else e))) :
    Float.ofScientific d negative e = .ofModel (.pack (.finite .positive m q hc.pos)) := by
  have hd := hv.digits_pos hc
  by_cases hfast : d < 2 ^ 53 ∧ e ≤ 22
  · have hx := isExact_ofNat hd hfast.1
    have hy := isExact_powerOfTen e (Nat.lt_succ_of_le hfast.2)
    have hten : ((10 ^ e : ℕ) : ℚ) = 10 ^ e := by norm_cast
    rw [Float.ofScientific, dif_pos hfast]
    cases negative with
    | true =>
      rw [if_pos rfl, zpow_neg, zpow_natCast, ← div_eq_mul_inv, ← hten] at hv
      exact div_float hc hx hy hv
    | false =>
      rw [if_neg Bool.false_ne_true, zpow_natCast, ← hten] at hv
      exact mul_float hc hx hy hv
  · have hexponent : (if negative then Int.negOfNat e else Int.ofNat e) =
        if negative then -(e : ℤ) else e := by
      rw [Int.negOfNat_eq]
      rfl
    rw [Float.ofScientific, dif_neg hfast]
    show Float.ofModel (.pack (UnpackedFloat.ofScientific .binary64 d _)) = _
    rw [hexponent, ofScientific_eq hc hq hv]

end Dossier.Double
