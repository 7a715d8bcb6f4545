import Mathlib

/-!
Rounding, as the arithmetic of doubles does it: a mantissa is cut off at some bit, and two more bits
say on which side of one half the rest lies. These bits suffice to find the nearest mantissa.
-/

namespace Dossier.Double

open Float.Model Float.Model.UnpackedFloat

/-- What the two bits behind a mantissa say of a number between this mantissa and the next. -/
def Describes : ExtendedMantissa → ℚ → Prop
  | ⟨m, false, false⟩, t => t = m
  | ⟨m, false, true⟩, t => m < t ∧ t < m + 1 / 2
  | ⟨m, true, false⟩, t => t = m + 1 / 2
  | ⟨m, true, true⟩, t => m + 1 / 2 < t ∧ t < m + 1

/-- A natural number to which a number is rounded: none is nearer, and if one is as near, it is
odd. -/
structure Nearest (t : ℚ) (m : ℕ) : Prop where
  low : (m : ℚ) - 1 / 2 ≤ t
  high : t ≤ m + 1 / 2
  strict : m % 2 = 1 → (m : ℚ) - 1 / 2 < t ∧ t < m + 1 / 2

variable {em : ExtendedMantissa} {t : ℚ} {m : ℕ}

lemma describes_exact (m : ℕ) : Describes (.ofMantissaAndAccuracy m .exact) m := rfl

/-- What is left of a division says on which side of one half it lies. -/
lemma describes_fraction (m : ℕ) {r d : ℕ} (h : r < d) :
    Describes (.ofMantissaAndAccuracy m (accuracyOfFraction r d)) (m + r / d) := by
  have hd : (0 : ℚ) < d := by exact_mod_cast (show 0 < d by omega)
  by_cases hr : r = 0
  · simp [accuracyOfFraction, ExtendedMantissa.ofMantissaAndAccuracy, Describes, hr]
  have hpos : (0 : ℚ) < r := by exact_mod_cast Nat.pos_of_ne_zero hr
  have hlt : (r : ℚ) < d := by exact_mod_cast h
  simp only [accuracyOfFraction, hr, if_false]
  rcases lt_trichotomy (2 * r) d with hhalf | hhalf | hhalf
  · rw [Nat.compare_eq_lt.mpr hhalf]
    have hq : 2 * (r : ℚ) < d := by exact_mod_cast hhalf
    refine ⟨by simpa using div_pos hpos hd, ?_⟩
    rw [add_lt_add_iff_left, div_lt_iff₀ hd]
    linarith
  · rw [Nat.compare_eq_eq.mpr hhalf]
    have hq : 2 * (r : ℚ) = d := by exact_mod_cast hhalf
    show (m : ℚ) + r / d = m + 1 / 2
    rw [add_right_inj, div_eq_div_iff hd.ne' two_ne_zero]
    linarith
  · rw [Nat.compare_eq_gt.mpr hhalf]
    have hq : (d : ℚ) < 2 * r := by exact_mod_cast hhalf
    constructor
    · rw [add_lt_add_iff_left, lt_div_iff₀ hd]
      linarith
    · rw [add_lt_add_iff_left, div_lt_iff₀ hd]
      linarith

lemma Describes.mantissa_le (h : Describes em t) : (em.mantissa : ℚ) ≤ t := by
  obtain ⟨m, r, s⟩ := em
  cases r <;> cases s <;> simp only [Describes] at h ⊢ <;> linarith

lemma Describes.lt_succ (h : Describes em t) : t < em.mantissa + 1 := by
  obtain ⟨m, r, s⟩ := em
  cases r <;> cases s <;> simp only [Describes] at h ⊢ <;> linarith

lemma Describes.shiftRightOne (h : Describes em t) : Describes em.shiftRightOne (t / 2) := by
  obtain ⟨m, r, s⟩ := em
  have hm : (m : ℚ) = 2 * (m / 2 : ℕ) + (m % 2 : ℕ) := by exact_mod_cast (Nat.div_add_mod m 2).symm
  rcases Nat.mod_two_eq_zero_or_one m with hpar | hpar
  · rw [hpar, Nat.cast_zero, add_zero] at hm
    cases r <;> cases s <;> simp [Describes, ExtendedMantissa.shiftRightOne, hpar] at h ⊢ <;>
      first | linarith | constructor <;> linarith
  · rw [hpar, Nat.cast_one] at hm
    cases r <;> cases s <;> simp [Describes, ExtendedMantissa.shiftRightOne, hpar] at h ⊢ <;>
      first | linarith | constructor <;> linarith

lemma Describes.shiftRight (h : Describes em t) (n : ℕ) : Describes (em >>> n) (t / 2 ^ n) := by
  show Describes (n.repeat ExtendedMantissa.shiftRightOne em) (t / 2 ^ n)
  induction n with
  | zero => simpa [Nat.repeat] using h
  | succ n ih =>
    rw [Nat.repeat, pow_succ, ← div_div]
    exact ih.shiftRightOne

/-- **The bits suffice** to round to the nearest mantissa. -/
theorem Describes.roundedMantissa (h : Describes em t) (hm : Nearest t m) :
    em.roundedMantissa = m := by
  obtain ⟨hlow, hhigh, hstrict⟩ := hm
  have hclose : ∀ {a b : ℕ}, (a : ℚ) < b + 1 → (b : ℚ) < a + 1 → a = b := by
    intro a b hab hba
    have hab' : a < b + 1 := by exact_mod_cast hab
    have hba' : b < a + 1 := by exact_mod_cast hba
    omega
  obtain ⟨k, r, s⟩ := em
  cases r <;> cases s <;> simp only [Describes] at h
  case false.false => exact hclose (a := k) (by linarith) (by linarith)
  case false.true => exact hclose (a := k) (by linarith) (by linarith)
  case true.true => exact hclose (a := k + 1) (by push_cast; linarith) (by push_cast; linarith)
  case true.false =>
    -- halfway between two mantissas, of which the even one is taken
    show k + k % 2 = m
    have hbetween : m = k ∨ m = k + 1 := by
      have hle : (k : ℚ) ≤ m := by linarith
      have hge : (m : ℚ) ≤ (k + 1 : ℕ) := by push_cast; linarith
      have hle' : k ≤ m := by exact_mod_cast hle
      have hge' : m ≤ k + 1 := by exact_mod_cast hge
      omega
    rcases hbetween with rfl | rfl
    · have heven : m % 2 ≠ 1 := fun hodd => by linarith [(hstrict hodd).2]
      omega
    · have heven : (k + 1) % 2 ≠ 1 := fun hodd => by
        have hlt := (hstrict hodd).1
        push_cast at hlt
        linarith
      omega

/-! ### Doubles -/

/-- A positive number with the mantissa and the exponent of a double, the exponent as small as it
can be; it may still be too large. -/
structure Canonical (m : ℕ) (q : ℤ) : Prop where
  pos : 0 < m
  mantissa : m < 2 ^ 53
  exponent : -1074 ≤ q
  smallest : 2 ^ 52 ≤ m ∨ q = -1074

/-- The numbers that are rounded to a double. Below a power of two the doubles lie closer, but
where they lie as close as anywhere. -/
structure Encloses (m : ℕ) (q : ℤ) (v : ℚ) : Prop where
  low : ((m : ℚ) - if m = 2 ^ 52 ∧ q ≠ -1074 then 1 / 4 else 1 / 2) * 2 ^ q ≤ v
  high : v ≤ (m + 1 / 2) * 2 ^ q
  strict : m % 2 = 1 → ((m : ℚ) - 1 / 2) * 2 ^ q < v ∧ v < (m + 1 / 2) * 2 ^ q

variable {q e : ℤ} {a : ℕ} {acc : Accuracy} {s : Sign}

lemma Canonical.targetExponent (h : Canonical m q) :
    Format.binary64.targetExponent (totalExponent m q) = q := by
  have hlt : m.log2 < 53 := (Nat.log2_lt h.pos.ne').mpr h.mantissa
  have hle : 52 ≤ m.log2 ∨ q = -1074 :=
    h.smallest.imp_left fun hm => (Nat.le_log2 h.pos.ne').mpr hm
  have hq := h.exponent
  simp only [Format.targetExponent, totalExponent, Format.mantissaBits, Format.minExponent]
  omega

lemma shiftToTargetExponent_eq (τ : ℤ) (hτ : Format.binary64.targetExponent (totalExponent a e) = τ)
    (he : e ≤ τ) : shiftToTargetExponent .binary64 a e acc =
      (ExtendedMantissa.ofMantissaAndAccuracy a acc >>> (τ - e).toNat, τ) := by
  have hback : e + ((τ - e).toNat : ℤ) = τ := by omega
  rw [shiftToTargetExponent, shiftToExponent, hτ, hback]

/-- After one shift the mantissa is the right one, or it has grown by a digit, which takes one more
shift. -/
lemma roundWithAccuracy_of_shift (hc : Canonical m q) {em : ExtendedMantissa} {τ : ℤ}
    (hshift : shiftToTargetExponent .binary64 a e acc = (em, τ))
    (h : τ = q ∧ em.roundedMantissa = m ∨
      m = 2 ^ 52 ∧ τ = q - 1 ∧ em.roundedMantissa = 2 ^ 53) :
    roundWithAccuracy .binary64 s a e acc = .finite s m q hc.pos := by
  rw [roundWithAccuracy, hshift]
  obtain ⟨rfl, hem⟩ | ⟨rfl, rfl, hem⟩ := h
  · have hstay : shiftToTargetExponent .binary64 m τ .exact = _ :=
      shiftToTargetExponent_eq τ hc.targetExponent le_rfl
    rw [Int.sub_self, Int.toNat_zero] at hstay
    simp only [hem, hstay]
    exact dif_neg hc.pos.ne'
  · have htarget : Format.binary64.targetExponent (totalExponent (2 ^ 53) (q - 1)) = q := by
      have hq := hc.exponent
      simp only [Format.targetExponent, totalExponent, Format.mantissaBits, Format.minExponent,
        Nat.log2_two_pow]
      omega
    have hmove : shiftToTargetExponent .binary64 (2 ^ 53) (q - 1) .exact = _ :=
      shiftToTargetExponent_eq q htarget (by omega)
    have hone : (q - (q - 1)).toNat = 1 := by omega
    rw [hone] at hmove
    simp only [hem, hmove]
    exact dif_neg hc.pos.ne'

section Magnitudes

variable (h : Describes (.ofMantissaAndAccuracy a acc) t) {k : ℤ}
include h

lemma mantissa_bounds : (a : ℚ) ≤ t ∧ t < a + 1 := by
  have hle := h.mantissa_le
  have hlt := h.lt_succ
  cases acc with
  | exact => exact ⟨hle, hlt⟩
  | inexact o => cases o <;> exact ⟨hle, hlt⟩

lemma lt_totalExponent (hk : (2 : ℚ) ^ k ≤ t * 2 ^ e) : k < totalExponent a e := by
  have ha : (a : ℚ) + 1 ≤ 2 ^ (a.log2 + 1) := by exact_mod_cast Nat.lt_log2_self
  have hsplit : (2 : ℚ) ^ totalExponent a e = 2 ^ (a.log2 + 1) * 2 ^ e := by
    rw [totalExponent, zpow_add₀ two_ne_zero]
    norm_cast
  refine (zpow_lt_zpow_iff_right₀ one_lt_two).mp (hk.trans_lt ?_)
  rw [hsplit]
  exact mul_lt_mul_of_pos_right ((mantissa_bounds h).2.trans_le ha) (by positivity)

/-- What is below a power of two has no more digits, unless it is too small to have any. -/
lemma totalExponent_le (he : e ≤ Format.binary64.targetExponent (totalExponent a e))
    (hk : t * 2 ^ e < 2 ^ k) : totalExponent a e ≤ max k (-1073) := by
  by_cases ha : a = 0
  · have hzero : totalExponent a e = 1 + e := by simp [totalExponent, ha]
    simp only [Format.targetExponent, Format.mantissaBits, Format.minExponent] at he
    omega
  have hlog : ((2 ^ a.log2 : ℕ) : ℚ) ≤ a := by exact_mod_cast Nat.log2_self_le ha
  have hsplit : (2 : ℚ) ^ (totalExponent a e - 1) = (2 ^ a.log2 : ℕ) * 2 ^ e := by
    have hsum : totalExponent a e - 1 = (a.log2 : ℤ) + e := by
      rw [totalExponent]
      ring
    rw [hsum, zpow_add₀ two_ne_zero]
    norm_cast
  have hle : (2 : ℚ) ^ (totalExponent a e - 1) ≤ t * 2 ^ e := by
    rw [hsplit]
    exact mul_le_mul_of_nonneg_right (hlog.trans (mantissa_bounds h).1) (by positivity)
  have hlt := (zpow_lt_zpow_iff_right₀ one_lt_two).mp (hle.trans_lt hk)
  omega

/-- The first shift goes to the exponent of the double, or, for a number just below a power of two,
to the one below. -/
lemma targetExponent_cases (hc : Canonical m q)
    (he : e ≤ Format.binary64.targetExponent (totalExponent a e)) (hv : Encloses m q (t * 2 ^ e)) :
    Format.binary64.targetExponent (totalExponent a e) = q ∨
      (m = 2 ^ 52 ∧ q ≠ -1074) ∧ t * 2 ^ e < m * 2 ^ q ∧
        Format.binary64.targetExponent (totalExponent a e) = q - 1 := by
  have hpow : (0 : ℚ) < 2 ^ q := by positivity
  have hsplit : ∀ k : ℤ, (2 : ℚ) ^ (k + q) = 2 ^ k * 2 ^ q := fun k => zpow_add₀ two_ne_zero k q
  have hmin := hc.exponent
  have hceil : t * 2 ^ e < 2 ^ (53 + q) := by
    have hm : (m : ℚ) + 1 ≤ 2 ^ (53 : ℤ) := by exact_mod_cast hc.mantissa
    rw [hsplit]
    exact hv.high.trans_lt (mul_lt_mul_of_pos_right (by linarith) hpow)
  have hmost := totalExponent_le h he hceil
  simp only [Format.targetExponent, Format.mantissaBits, Format.minExponent]
  by_cases hsub : q = -1074
  · exact .inl (by omega)
  have hnormal : 2 ^ 52 ≤ m := hc.smallest.resolve_right hsub
  by_cases hpower : m = 2 ^ 52 ∧ t * 2 ^ e < m * 2 ^ q
  · obtain ⟨rfl, hlt⟩ := hpower
    have hfloor : (2 : ℚ) ^ (51 + q) ≤ t * 2 ^ e := by
      refine le_trans ?_ hv.low
      rw [if_pos ⟨rfl, hsub⟩, hsplit]
      exact mul_le_mul_of_nonneg_right (by norm_num) hpow.le
    have hceil' : t * 2 ^ e < 2 ^ (52 + q) := by
      rw [hsplit]
      exact_mod_cast hlt
    have hleast := lt_totalExponent h hfloor
    have hmost' := totalExponent_le h he hceil'
    exact .inr ⟨⟨rfl, hsub⟩, hlt, by omega⟩
  · have hfloor : (2 : ℚ) ^ (52 + q) ≤ t * 2 ^ e := by
      rw [hsplit]
      rcases hnormal.eq_or_lt with rfl | hlt
      · have hle : ((2 ^ 52 : ℕ) : ℚ) * 2 ^ q ≤ t * 2 ^ e := not_lt.mp fun hlt => hpower ⟨rfl, hlt⟩
        exact_mod_cast hle
      · refine le_trans ?_ hv.low
        have hm : (2 : ℚ) ^ (52 : ℤ) + 1 ≤ m := by exact_mod_cast hlt
        rw [if_neg fun hpower => hlt.ne' hpower.1]
        exact mul_le_mul_of_nonneg_right (by linarith) hpow.le
    have hleast := lt_totalExponent h hfloor
    exact .inl (by omega)

end Magnitudes

/-- **Rounding finds the double** that encloses the number. -/
theorem roundWithAccuracy_eq (hc : Canonical m q) (h : Describes (.ofMantissaAndAccuracy a acc) t)
    (he : e ≤ Format.binary64.targetExponent (totalExponent a e)) (hv : Encloses m q (t * 2 ^ e)) :
    roundWithAccuracy .binary64 s a e acc = .finite s m q hc.pos := by
  obtain ⟨τ, hτ⟩ : ∃ τ, Format.binary64.targetExponent (totalExponent a e) = τ := ⟨_, rfl⟩
  have hshift : shiftToTargetExponent .binary64 a e acc = _ :=
    shiftToTargetExponent_eq τ hτ (hτ ▸ he)
  refine roundWithAccuracy_of_shift hc hshift ?_
  have hscaled : t / 2 ^ (τ - e).toNat = t * 2 ^ e / 2 ^ τ := by
    have hpow : (2 : ℚ) ^ τ = 2 ^ (τ - e).toNat * 2 ^ e := by
      rw [← zpow_natCast, ← zpow_add₀ two_ne_zero]
      congr 1
      omega
    rw [hpow, mul_div_mul_right _ _ (by positivity)]
  have hdescribes := h.shiftRight (τ - e).toNat
  rw [hscaled] at hdescribes
  have hpow : (0 : ℚ) < 2 ^ q := by positivity
  rcases targetExponent_cases h hc he hv with hq | ⟨hnarrow, hlt, hq⟩
  · obtain rfl : τ = q := hτ.symm.trans hq
    refine .inl ⟨rfl, hdescribes.roundedMantissa ⟨?_, ?_, fun hodd => ?_⟩⟩
    · refine le_trans ?_ ((le_div_iff₀ hpow).mpr hv.low)
      split_ifs <;> linarith
    · exact (div_le_iff₀ hpow).mpr hv.high
    · exact ⟨(lt_div_iff₀ hpow).mpr (hv.strict hodd).1, (div_lt_iff₀ hpow).mpr (hv.strict hodd).2⟩
  · obtain rfl : τ = q - 1 := hτ.symm.trans hq
    have hhalf : t * 2 ^ e / 2 ^ (q - 1) = 2 * (t * 2 ^ e / 2 ^ q) := by
      rw [zpow_sub_one₀ two_ne_zero]
      field_simp
    have hlow := hv.low
    rw [if_pos hnarrow, ← le_div_iff₀ hpow] at hlow
    rw [← div_lt_iff₀ hpow] at hlt
    rw [hhalf] at hdescribes
    obtain ⟨rfl, -⟩ := hnarrow
    push_cast at hlow hlt
    refine .inr ⟨rfl, rfl, hdescribes.roundedMantissa ⟨?_, ?_, fun hodd => absurd hodd (by decide)⟩⟩
    · push_cast
      linarith
    · push_cast
      linarith

/-! ### Arithmetic -/

section Arithmetic

variable {m₁ m₂ : ℕ} {e₁ e₂ : ℤ} {s₁ s₂ : Sign}

lemma mul_eq (hc : Canonical m q) (h₁ : 0 < m₁) (h₂ : 0 < m₂) (henough : 2 ^ 52 ≤ m₁ * m₂)
    (hv : Encloses m q (m₁ * 2 ^ e₁ * (m₂ * 2 ^ e₂))) :
    mul .binary64 (.finite s₁ m₁ e₁ h₁) (.finite s₂ m₂ e₂ h₂) = .finite (s₁ * s₂) m q hc.pos := by
  have hlog : 52 ≤ (m₁ * m₂).log2 := (Nat.le_log2 (Nat.mul_pos h₁ h₂).ne').mpr henough
  have hvalue : (m₁ : ℚ) * 2 ^ e₁ * (m₂ * 2 ^ e₂) = (m₁ * m₂ : ℕ) * 2 ^ (e₁ + e₂) := by
    rw [zpow_add₀ two_ne_zero]
    push_cast
    ring
  rw [hvalue] at hv
  refine roundWithAccuracy_eq hc (describes_exact (m₁ * m₂)) ?_ hv
  simp only [Format.targetExponent, totalExponent, Format.mantissaBits, Format.minExponent]
  omega

lemma divCore_spec (h₁ : 0 < m₁) (h₂ : 0 < m₂) : ∃ a e acc t,
    divCore .binary64 m₁ e₁ m₂ e₂ = (a, e, acc) ∧ Describes (.ofMantissaAndAccuracy a acc) t ∧
      e ≤ Format.binary64.targetExponent (totalExponent a e) ∧
      t * 2 ^ e = m₁ * 2 ^ e₁ / (m₂ * 2 ^ e₂) := by
  obtain ⟨τ, hτ⟩ : ∃ τ, τ = min (e₁ - e₂) (Format.binary64.targetExponent
    (totalExponent m₁ e₁ - totalExponent m₂ e₂)) := ⟨_, rfl⟩
  obtain ⟨k, hk⟩ : ∃ k : ℕ, k = (e₁ - e₂ - τ).toNat := ⟨_, rfl⟩
  have hshift : (k : ℤ) + τ = e₁ - e₂ := by omega
  have hcore : divCore .binary64 m₁ e₁ m₂ e₂ =
      ((m₁ <<< k) / m₂, τ, accuracyOfFraction ((m₁ <<< k) % m₂) m₂) := by
    rw [divCore, ← hτ, ← hk]
  refine ⟨_, _, _, _, hcore, describes_fraction _ (Nat.mod_lt _ h₂), ?_, ?_⟩
  · simp only [Format.targetExponent, totalExponent, Format.mantissaBits, Format.minExponent]
      at hτ ⊢
    by_cases hsub : τ ≤ -1074
    · omega
    have hdigits : 53 + m₂.log2 ≤ m₁.log2 + k := by omega
    have hquotient : 2 ^ 52 ≤ m₁ <<< k / m₂ := by
      rw [Nat.le_div_iff_mul_le h₂, Nat.shiftLeft_eq]
      calc 2 ^ 52 * m₂ ≤ 2 ^ 52 * 2 ^ (m₂.log2 + 1) := Nat.mul_le_mul_left _ Nat.lt_log2_self.le
        _ = 2 ^ (53 + m₂.log2) := by ring
        _ ≤ 2 ^ (m₁.log2 + k) := Nat.pow_le_pow_right two_pos hdigits
        _ = 2 ^ m₁.log2 * 2 ^ k := pow_add _ _ _
        _ ≤ m₁ * 2 ^ k := Nat.mul_le_mul_right _ (Nat.log2_self_le h₁.ne')
    have hlog := (Nat.le_log2 (by omega)).mpr hquotient
    omega
  · have hm₂ : (m₂ : ℚ) ≠ 0 := by exact_mod_cast h₂.ne'
    have hdiv : ((m₁ <<< k : ℕ) : ℚ) = m₂ * (m₁ <<< k / m₂ : ℕ) + (m₁ <<< k % m₂ : ℕ) := by
      exact_mod_cast (Nat.div_add_mod (m₁ <<< k) m₂).symm
    have hquotient : ((m₁ <<< k / m₂ : ℕ) : ℚ) + (m₁ <<< k % m₂ : ℕ) / m₂ = m₁ * 2 ^ k / m₂ := by
      rw [eq_div_iff hm₂, add_mul, div_mul_cancel₀ _ hm₂, mul_comm _ (m₂ : ℚ), ← hdiv,
        Nat.shiftLeft_eq]
      push_cast
      rfl
    have hpow : (2 : ℚ) ^ e₁ = 2 ^ k * 2 ^ τ * 2 ^ e₂ := by
      rw [← zpow_natCast, ← zpow_add₀ two_ne_zero, hshift, ← zpow_add₀ two_ne_zero, sub_add_cancel]
    rw [hquotient, hpow]
    field_simp

lemma div_eq (hc : Canonical m q) (h₁ : 0 < m₁) (h₂ : 0 < m₂)
    (hv : Encloses m q (m₁ * 2 ^ e₁ / (m₂ * 2 ^ e₂))) :
    div .binary64 (.finite s₁ m₁ e₁ h₁) (.finite s₂ m₂ e₂ h₂) = .finite (s₁ / s₂) m q hc.pos := by
  obtain ⟨a, e, acc, t, hcore, hdescribes, he, hvalue⟩ := divCore_spec h₁ h₂
  rw [← hvalue] at hv
  simp only [UnpackedFloat.div, hcore]
  exact roundWithAccuracy_eq hc hdescribes he hv

end Arithmetic

section Decimals

variable {v : ℚ}

lemma Encloses.lt_two_zpow (hv : Encloses m q v) (hc : Canonical m q) (hq : q ≤ 971) :
    v < (2 : ℚ) ^ (1024 : ℤ) := by
  have hm : (m : ℚ) + 1 ≤ 2 ^ (53 : ℤ) := by exact_mod_cast hc.mantissa
  calc v ≤ (m + 1 / 2) * 2 ^ q := hv.high
    _ < 2 ^ (53 : ℤ) * 2 ^ q := mul_lt_mul_of_pos_right (by linarith) (by positivity)
    _ = 2 ^ (53 + q) := (zpow_add₀ two_ne_zero _ _).symm
    _ ≤ 2 ^ (1024 : ℤ) := zpow_le_zpow_right₀ one_le_two (by omega)

lemma Encloses.two_zpow_le (hv : Encloses m q v) (hc : Canonical m q) :
    (2 : ℚ) ^ (-1075 : ℤ) ≤ v := by
  have hm : (1 : ℚ) ≤ m := by exact_mod_cast hc.pos
  have hgap : (2 : ℚ) ^ (-1 : ℤ) ≤ m - if m = 2 ^ 52 ∧ q ≠ -1074 then 1 / 4 else 1 / 2 := by
    rw [zpow_neg_one]
    split_ifs <;> linarith
  have hmin := hc.exponent
  calc (2 : ℚ) ^ (-1075 : ℤ) ≤ 2 ^ (-1 + q) := zpow_le_zpow_right₀ one_le_two (by omega)
    _ = 2 ^ (-1 : ℤ) * 2 ^ q := zpow_add₀ two_ne_zero _ _
    _ ≤ _ := mul_le_mul_of_nonneg_right hgap (by positivity)
    _ ≤ v := hv.low

lemma Encloses.pos (hv : Encloses m q v) (hc : Canonical m q) : 0 < v :=
  lt_of_lt_of_le (by positivity) (hv.two_zpow_le hc)

lemma two_zpow_le_ten_zpow {x : ℤ} (hx : 0 ≤ x) : (2 : ℚ) ^ (3 * x) ≤ 10 ^ x := by
  rw [zpow_mul]
  exact zpow_le_zpow_left₀ hx (by positivity) (by norm_num)

lemma ten_zpow_le_two_zpow {x : ℤ} (hx : x ≤ 0) : (10 : ℚ) ^ x ≤ 2 ^ (3 * x) := by
  have h := two_zpow_le_ten_zpow (Int.neg_nonneg_of_nonpos hx)
  rw [mul_neg, zpow_neg, zpow_neg] at h
  exact (inv_le_inv₀ (by positivity) (by positivity)).mp h

lemma Encloses.digits_pos {d : ℕ} {x : ℚ} (hv : Encloses m q (d * x)) (hc : Canonical m q) :
    0 < d := by
  rw [Nat.pos_iff_ne_zero]
  rintro rfl
  rw [Nat.cast_zero, zero_mul] at hv
  exact lt_irrefl _ (hv.pos hc)

/-- A decimal that some double encloses is not out of all proportion. -/
lemma Encloses.exponent_range {d : ℕ} {x : ℤ} (hv : Encloses m q (d * 10 ^ x)) (hc : Canonical m q)
    (hq : q ≤ 971) : x ≤ 2 ^ 11 ∧ -((2 : ℤ) ^ 11 + d.log2) ≤ x := by
  have hone : (1 : ℚ) ≤ d := by exact_mod_cast hv.digits_pos hc
  constructor
  · by_contra! hx
    have hten : (2 : ℚ) ^ (1024 : ℤ) ≤ d * 10 ^ x :=
      calc (2 : ℚ) ^ (1024 : ℤ) ≤ 2 ^ (3 * x) := zpow_le_zpow_right₀ one_le_two (by omega)
        _ ≤ 10 ^ x := two_zpow_le_ten_zpow (by omega)
        _ ≤ d * 10 ^ x := le_mul_of_one_le_left (by positivity) hone
    exact absurd (hv.lt_two_zpow hc hq) (not_lt.mpr hten)
  · by_contra! hx
    have hlog : (d : ℚ) ≤ 2 ^ ((d.log2 : ℤ) + 1) := by exact_mod_cast Nat.lt_log2_self.le
    have hten : d * (10 : ℚ) ^ x < 2 ^ (-1075 : ℤ) :=
      calc d * (10 : ℚ) ^ x ≤ 2 ^ ((d.log2 : ℤ) + 1) * 2 ^ (3 * x) :=
            mul_le_mul hlog (ten_zpow_le_two_zpow (by omega)) (by positivity) (by positivity)
        _ = 2 ^ ((d.log2 : ℤ) + 1 + 3 * x) := (zpow_add₀ two_ne_zero _ _).symm
        _ < 2 ^ (-1075 : ℤ) := zpow_lt_zpow_right₀ one_lt_two (by omega)
    exact absurd (hv.two_zpow_le hc) (not_le.mpr hten)

/-- **A decimal is read as the double that encloses it.** -/
theorem ofScientific_eq (hc : Canonical m q) (hq : q ≤ 971) {d : ℕ} {x : ℤ}
    (hv : Encloses m q (d * 10 ^ x)) :
    UnpackedFloat.ofScientific .binary64 d x = .finite .positive m q hc.pos := by
  have hd := hv.digits_pos hc
  obtain ⟨hhigh, hlow⟩ := hv.exponent_range hc hq
  unfold UnpackedFloat.ofScientific
  rw [dif_neg hd.ne', if_neg (not_lt.mpr hhigh), if_neg (not_lt.mpr hlow)]
  split_ifs with hx
  · -- the digits are moved up before the product is formed, so there are enough of them
    have hdigits : Format.binary64.mantissaBits = 53 := rfl
    have hten : (10 : ℚ) ^ x = (10 ^ x.toNat : ℕ) := by
      rw [← Int.toNat_of_nonneg hx, zpow_natCast, Int.toNat_natCast]
      norm_cast
    have hvalue : (d : ℚ) * (10 : ℚ) ^ x =
        (d <<< 53 : ℕ) * 2 ^ (-(53 : ℤ)) * ((10 ^ x.toNat : ℕ) * 2 ^ (0 : ℤ)) := by
      rw [hten, Nat.shiftLeft_eq, zpow_zero, mul_one]
      push_cast
      field_simp
      norm_num
    simp only [hdigits]
    refine mul_eq hc _ _ ?_ (hvalue ▸ hv)
    have hpow : 0 < 10 ^ x.toNat := by positivity
    rw [Nat.shiftLeft_eq]
    nlinarith [Nat.mul_pos hd hpow]
  · have hten : (10 : ℚ) ^ x = (((10 ^ (-x).toNat : ℕ) : ℚ))⁻¹ := by
      rw [Nat.cast_pow, ← zpow_natCast, Int.toNat_of_nonneg (by omega), ← zpow_neg, neg_neg]
      rfl
    have hvalue : (d : ℚ) * (10 : ℚ) ^ x =
        d * 2 ^ (0 : ℤ) / ((10 ^ (-x).toNat : ℕ) * 2 ^ (0 : ℤ)) := by
      rw [hten, zpow_zero, mul_one, mul_one, div_eq_mul_inv]
    exact div_eq hc _ _ (hvalue ▸ hv)

end Decimals

end Dossier.Double
