import Mathlib
import Dossier.Reliability
import Dossier.Proofs.Decimal.Numerals
import Dossier.Proofs.Double.Scientific

/-!
Doubles are read back from their numerals. The double encloses its shortest decimal, whatever the
search for it finds; so whichever numeral of this decimal is written, the nearest double is the one
that was written.
-/

namespace Dossier.Decimal

open Double Float.Model Float.Model.UnpackedFloat

/-! ### Comparing decimals with doubles -/

/-- The number that a decimal stands for. -/
def Digits.value (d : Digits) : ℚ := d.digits * 10 ^ d.exponent

lemma tenPow_eq (k : ℕ) : tenPow k = 10 ^ k := rfl

lemma twoPow_eq (k : ℕ) : twoPow k = 2 ^ k := rfl

lemma compareScaled_eq (a n : ℕ) (i j : ℤ) :
    compareScaled a i n j = compare ((a : ℚ) * 10 ^ i) ((n : ℚ) * 2 ^ j) := by
  obtain ⟨c, hc⟩ : ∃ c : ℚ, c = 10 ^ (-i).toNat * 2 ^ (-j).toNat := ⟨_, rfl⟩
  have hpos : 0 < c := by
    rw [hc]
    positivity
  have hleft : ((a * 10 ^ i.toNat * 2 ^ (-j).toNat : ℕ) : ℚ) = a * 10 ^ i * c := by
    rw [zpow_eq_div (by norm_num : (10 : ℚ) ≠ 0), hc]
    push_cast
    field_simp
  have hright : ((n * 2 ^ j.toNat * 10 ^ (-i).toNat : ℕ) : ℚ) = n * 2 ^ j * c := by
    rw [zpow_eq_div (two_ne_zero : (2 : ℚ) ≠ 0), hc]
    push_cast
    field_simp
  rw [compareScaled, tenPow_eq, tenPow_eq, twoPow_eq, twoPow_eq]
  rcases lt_trichotomy ((a : ℚ) * 10 ^ i) (n * 2 ^ j) with h | h | h
  · rw [compare_lt_iff_lt.mpr h, compare_lt_iff_lt, ← Nat.cast_lt (α := ℚ), hleft, hright]
    exact mul_lt_mul_of_pos_right h hpos
  · rw [compare_eq_iff_eq.mpr h, compare_eq_iff_eq, ← Nat.cast_inj (R := ℚ), hleft, hright, h]
  · rw [compare_gt_iff_gt.mpr h, compare_gt_iff_gt, ← Nat.cast_lt (α := ℚ), hleft, hright]
    exact mul_lt_mul_of_pos_right h hpos

/-- The mark of a double whose gap below is the smaller one. -/
def Binary.Marked (x : Binary) : Prop := x.narrowBelow = true ↔ x.m = 2 ^ 52 ∧ x.q ≠ -1074

lemma encloses_of_readsBack {x : Binary} {d : Digits} (hx : 0 < x.m) (hmark : x.Marked)
    (h : x.readsBack d = true) : Encloses x.m x.q d.value := by
  have hquarter : (2 : ℚ) ^ (x.q - 2) = 2 ^ x.q / 4 := by
    rw [zpow_sub₀ two_ne_zero]
    norm_num
  have hpow : (0 : ℚ) < 2 ^ x.q := by positivity
  obtain ⟨low, hlow⟩ : ∃ low, low = if x.narrowBelow then 4 * x.m - 1 else 4 * x.m - 2 := ⟨_, rfl⟩
  have hlowest : (low : ℚ) * 2 ^ (x.q - 2) =
      ((x.m : ℚ) - if x.m = 2 ^ 52 ∧ x.q ≠ -1074 then 1 / 4 else 1 / 2) * 2 ^ x.q := by
    rw [hlow, hquarter]
    by_cases hnarrow : x.narrowBelow = true
    · rw [if_pos hnarrow, if_pos (hmark.mp hnarrow), Nat.cast_sub (by omega)]
      push_cast
      ring
    · rw [if_neg hnarrow, if_neg (mt hmark.mpr hnarrow), Nat.cast_sub (by omega)]
      push_cast
      ring
  have hhighest : ((4 * x.m + 2 : ℕ) : ℚ) * 2 ^ (x.q - 2) = (x.m + 1 / 2) * 2 ^ x.q := by
    rw [hquarter]
    push_cast
    ring
  simp only [Binary.readsBack, ← hlow, compareScaled_eq, hlowest, hhighest, Bool.and_eq_true,
    Bool.or_eq_true, beq_iff_eq, compare_gt_iff_gt, compare_lt_iff_lt, compare_eq_iff_eq] at h
  obtain ⟨hbelow, habove⟩ := h
  refine ⟨?_, ?_, fun hodd => ⟨?_, ?_⟩⟩
  · exact hbelow.elim le_of_lt fun heq => heq.2.ge
  · exact habove.elim le_of_lt fun heq => heq.2.le
  · have hlt := hbelow.resolve_right fun heq => by omega
    have hnarrow : ¬ (x.m = 2 ^ 52 ∧ x.q ≠ -1074) := fun hpower => by omega
    rwa [if_neg hnarrow] at hlt
  · exact habove.resolve_right fun heq => by omega

/-! ### The shortest decimal -/

lemma value_strip (fuel : ℕ) (d : Digits) : (d.strip fuel).value = d.value := by
  induction fuel generalizing d with
  | zero => rfl
  | succ fuel ih =>
    rw [Digits.strip]
    split_ifs with hzero
    · simp only [Bool.and_eq_true, beq_iff_eq] at hzero
      have hdigits : (d.digits : ℚ) = (d.digits / 10 : ℕ) * 10 := by
        exact_mod_cast (Nat.div_mul_cancel (Nat.dvd_of_mod_eq_zero hzero.2)).symm
      rw [ih, Digits.value, Digits.value, hdigits, zpow_add_one₀ (by norm_num)]
      ring
    · rfl

lemma value_exact (x : Binary) : x.exact.value = x.m * 2 ^ x.q := by
  rw [Binary.exact]
  split_ifs with hq
  · have hten : (10 : ℚ) ^ x.q = 2 ^ x.q * 5 ^ x.q := by
      rw [← mul_zpow]
      norm_num
    have hfive : ((Nat.pow 5 (-x.q).toNat : ℕ) : ℚ) = (5 ^ x.q)⁻¹ := by
      have hpow : Nat.pow 5 (-x.q).toNat = 5 ^ (-x.q).toNat := rfl
      rw [hpow, Nat.cast_pow, ← zpow_natCast, Int.toNat_of_nonneg (by omega), zpow_neg]
      rfl
    rw [Digits.value, Nat.cast_mul, hfive, hten]
    field_simp
  · have htwo : ((twoPow x.q.toNat : ℕ) : ℚ) = 2 ^ x.q := by
      rw [twoPow_eq, Nat.cast_pow, ← zpow_natCast, Int.toNat_of_nonneg (by omega)]
      rfl
    rw [Digits.value, Nat.cast_mul, htwo, zpow_zero, mul_one]

lemma encloses_shortest {x : Binary} (hx : 0 < x.m) (hmark : x.Marked) (tie : Tie) :
    Encloses x.m x.q (x.shortest tie).value := by
  have hne : (x.m == 0) = false := beq_eq_false_iff_ne.mpr hx.ne'
  rw [Binary.shortest, hne]
  simp only [Bool.false_eq_true, if_false]
  rw [value_strip]
  cases hfound : ((List.range 17).map fun (n : ℕ) => x.scale - 1 - (n : ℤ)).findSome? (x.pick tie)
  next =>
    rw [Option.getD_none, value_exact]
    exact encloses_self _ _
  next d =>
    obtain ⟨g, -, hg⟩ := List.exists_of_findSome?_eq_some hfound
    exact encloses_of_readsBack hx hmark (readsBack_of_pick hg)

lemma Digits.Spreads.value_eq {d : Digits} {n : Numeral} (h : d.Spreads n) :
    (n.digits : ℚ) * 10 ^ n.exponent = d.value := by
  obtain ⟨k, hdigits, hexponent⟩ := h
  rw [hdigits, hexponent, zpow_sub₀ (by norm_num), zpow_natCast, Digits.value]
  push_cast
  field_simp

/-! ### Numerals -/

lemma size_toString {d : ℕ} (hd : 0 < d) :
    (10 : ℚ) ^ ((toString d).length - 1 : ℤ) ≤ d ∧ (d : ℚ) < 10 ^ ((toString d).length : ℤ) := by
  have hlen : (toString d).length = (Nat.toDigits 10 d).length := by
    rw [← toList_toString, String.length_toList]
  obtain ⟨k, hk⟩ := Nat.exists_eq_succ_of_ne_zero (Nat.length_toDigits_pos (b := 10) (n := d)).ne'
  have hhigh : d < 10 ^ (k + 1) :=
    (Nat.length_toDigits_le_iff (by decide) k.succ_pos).mp hk.le
  have hlow : 10 ^ k ≤ d := by
    rcases Nat.eq_zero_or_pos k with rfl | hpos
    · exact hd
    · exact not_lt.mp fun hlt => by
        have hle := (Nat.length_toDigits_le_iff (by decide : 1 < 10) hpos).mpr hlt
        omega
  rw [hlen, hk, Nat.cast_succ, add_sub_cancel_right]
  exact ⟨by exact_mod_cast hlow, by exact_mod_cast hhigh⟩

variable {m : ℕ} {q : ℤ}

/-- A decimal that some double encloses has its first digit neither too far up nor too far down. -/
lemma size_range (hc : Canonical m q) (hq : q ≤ 971) {d : ℕ} {x : ℤ}
    (hv : Encloses m q (d * 10 ^ x)) :
    -400 ≤ ((toString d).length : ℤ) + x ∧ ((toString d).length : ℤ) + x ≤ 400 := by
  obtain ⟨hlow, hhigh⟩ := size_toString (hv.digits_pos hc)
  obtain ⟨top, htop⟩ : ∃ top : ℤ, ((toString d).length : ℤ) + x = top := ⟨_, rfl⟩
  have hten : (10 : ℚ) ≠ 0 := by norm_num
  have hpow : (0 : ℚ) < 10 ^ x := by positivity
  rw [htop]
  constructor
  · by_contra! hlt
    have hbelow : (d : ℚ) * 10 ^ x < 2 ^ (-1075 : ℤ) :=
      calc (d : ℚ) * 10 ^ x < 10 ^ ((toString d).length : ℤ) * 10 ^ x :=
            mul_lt_mul_of_pos_right hhigh hpow
        _ = 10 ^ top := by rw [← zpow_add₀ hten, htop]
        _ ≤ 2 ^ (3 * top) := ten_zpow_le_two_zpow (by omega)
        _ ≤ 2 ^ (-1075 : ℤ) := zpow_le_zpow_right₀ one_le_two (by omega)
    exact absurd (hv.two_zpow_le hc) (not_le.mpr hbelow)
  · by_contra! hlt
    have habove : (2 : ℚ) ^ (1024 : ℤ) ≤ d * 10 ^ x :=
      calc (2 : ℚ) ^ (1024 : ℤ) ≤ 2 ^ (3 * (top - 1)) := zpow_le_zpow_right₀ one_le_two (by omega)
        _ ≤ 10 ^ (top - 1) := two_zpow_le_ten_zpow (by omega)
        _ = 10 ^ ((toString d).length - 1 : ℤ) * 10 ^ x := by
            rw [← zpow_add₀ hten, ← htop]
            congr 1
            ring
        _ ≤ d * 10 ^ x := mul_le_mul_of_nonneg_right hlow hpow.le
    exact absurd (hv.lt_two_zpow hc hq) (not_lt.mpr habove)

/-- **A numeral is read as the double that encloses it.** -/
theorem toFloat_eq (hc : Canonical m q) (hq : q ≤ 971) {n : Numeral}
    (hv : Encloses m q (n.digits * 10 ^ n.exponent)) :
    n.toFloat = .ofModel (.pack (.finite (signOf n.negative) m q hc.pos)) := by
  obtain ⟨hsmall, hlarge⟩ := size_range hc hq hv
  have hd := hv.digits_pos hc
  have hexponent : (if decide (n.exponent < 0) = true then -(n.exponent.natAbs : ℤ)
      else n.exponent.natAbs) = n.exponent := by
    simp only [decide_eq_true_eq]
    split_ifs <;> omega
  rw [← hexponent] at hv
  have hmagnitude := ofScientific_float hc hq hv
  have hzero : (n.digits == 0 || decide (((toString n.digits).length : ℤ) + n.exponent < -400)) =
      false := by
    rw [decide_eq_false (not_lt.mpr hsmall), beq_eq_false_iff_ne.mpr hd.ne']
    rfl
  simp only [Numeral.toFloat, hzero, not_lt.mpr hlarge, hmagnitude, Bool.false_eq_true, if_false]
  cases n.negative with
  | false => rfl
  | true =>
    show Float.ofModel (.pack (Float.Model.unpack (.pack (.finite .positive m q hc.pos))).neg) = _
    rw [unpack_pack hc hq]
    rfl

/-! ### Doubles that are written -/

lemma marked_ofBits (b : UInt64) : (Binary.ofBits b).Marked := by
  have hfraction := fractionField_lt b
  rw [ofBits_eq, Binary.Marked]
  split_ifs with hzero
  · simp only [false_iff, not_and]
    intro hm
    omega
  · simp only [Bool.and_eq_true, beq_iff_eq, decide_eq_true_eq]
    omega

lemma eq_zero {x : Float} (hx : (Binary.ofBits x.toBits).m = 0) :
    x = if isNegative x then -0.0 else 0.0 := by
  have hfields : exponentField x.toBits = 0 ∧ fractionField x.toBits = 0 := by
    rw [ofBits_eq] at hx
    split_ifs at hx with hzero
    · exact ⟨hzero, hx⟩
    · simp at hx
  have hbits := toBitVec_eq x.toBits
  rw [hfields.1, hfields.2] at hbits
  apply float_ext
  rw [hbits]
  show packComponents .binary64 (signOf (isNegative x)) _ _ = _
  cases isNegative x with
  | false => decide +kernel
  | true => decide +kernel

lemma isFinite_iff {x : Float} : isFinite x = true ↔ exponentField x.toBits ≠ 2047 := by
  rw [isFinite, bne_iff_ne, Ne, ← UInt64.toNat_inj]
  rfl

/-- **A finite double is read back** from any numeral of its shortest decimal. -/
theorem toFloat_of_spreads {x : Float} (hx : isFinite x = true) {n : Numeral}
    (hsign : n.negative = isNegative x)
    (hn : ((Binary.ofBits x.toBits).shortest .toEven).Spreads n) : n.toFloat = x := by
  by_cases hm : (Binary.ofBits x.toBits).m = 0
  · have hdigits : n.digits = 0 := by
      obtain ⟨k, hdigits, -⟩ := hn
      simpa [Binary.shortest, hm] using hdigits
    rw [eq_zero hm, Numeral.toFloat, hdigits, hsign]
    rfl
  · have hfields := fields_ofBits (isFinite_iff.mp hx) hm
    have hv := encloses_shortest (Nat.pos_of_ne_zero hm) (marked_ofBits x.toBits) .toEven
    rw [← hn.value_eq] at hv
    rw [toFloat_eq hfields.canonical hfields.exponent_le hv]
    apply float_ext
    rw [hsign, toBitVec_eq x.toBits]
    exact hfields.pack _

lemma unpack_of_not_finite {x : Float} (h : isFinite x = false) :
    (∃ s, x.toModel.unpack = .infinity s) ∨ x.toModel.unpack = .notANumber := by
  have hexponent : exponentField x.toBits = 2047 := by
    by_contra hne
    exact Bool.false_ne_true (h.symm.trans (isFinite_iff.mpr hne))
  have hbits : x.toModel.toBits.toBitVec = _ := toBitVec_eq x.toBits
  rw [Float.Model.unpack, hbits, hexponent, UnpackedFloat.unpack]
  simp only [unpackMantissa_packComponents, unpackExponent_packComponents]
  rw [if_pos (by decide)]
  split_ifs
  · exact .inl ⟨_, rfl⟩
  · exact .inr rfl

lemma isFinite_of_isReliability {x : Float} (h : isReliability x = true) : isFinite x = true := by
  by_contra hx
  rw [isReliability, Bool.and_eq_true, decide_eq_true_eq, decide_eq_true_eq] at h
  have hzero : UnpackedFloat.le (0.0 : Float).toModel.unpack x.toModel.unpack = true :=
    of_decide_eq_true h.1
  have hone : UnpackedFloat.le x.toModel.unpack (1.0 : Float).toModel.unpack = true :=
    of_decide_eq_true h.2
  rcases unpack_of_not_finite (Bool.eq_false_of_not_eq_true hx) with ⟨s, hs⟩ | hs
  · rw [hs] at hzero hone
    cases s with
    | positive => exact absurd hone (by decide +kernel)
    | negative => exact absurd hzero (by decide +kernel)
  · rw [hs] at hone
    exact absurd hone (by decide +kernel)

end Dossier.Decimal
