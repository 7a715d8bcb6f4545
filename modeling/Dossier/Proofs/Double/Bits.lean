import Mathlib
import Dossier.Decimal.Shortest
import Dossier.Proofs.Double.Rounding

/-!
Doubles by their bits. A sign, an exponent field and a fraction field make up a double; those of a
finite double that is not zero stand for a mantissa and an exponent.
-/

namespace Dossier.Double

open Float.Model Float.Model.UnpackedFloat

/-! ### Bits that are put together -/

lemma ofBitVec_toBitVec (s : Sign) : Sign.ofBitVec s.toBitVec = s := by cases s <;> rfl

lemma toBitVec_ofBitVec (b : BitVec 1) : (Sign.ofBitVec b).toBitVec = b := by
  rcases BitVec.eq_zero_or_eq_one b with rfl | rfl <;> rfl

lemma unpackSign_packComponents (s : Sign) (x : BitVec 11) (y : BitVec 52) :
    unpackSign (packComponents .binary64 s x y) = s.toBitVec := by
  simp only [unpackSign, packComponents, BitVec.extractLsb]
  rw [BitVec.extractLsb'_append_eq_of_le (by omega), BitVec.extractLsb'_append_eq_of_le (by omega)]
  cases s <;> rfl

lemma packComponents_unpack (b : BitVec 64) :
    packComponents .binary64 (Sign.ofBitVec (@unpackSign .binary64 b)) (@unpackExponent .binary64 b)
      (@unpackMantissa .binary64 b) = b := by
  rw [packComponents, toBitVec_ofBitVec]
  simp only [unpackSign, unpackExponent, unpackMantissa, BitVec.extractLsb]
  ext i hi
  grind

/-- The mantissa and the exponent that the two fields stand for. -/
inductive Fields : (e f : ℕ) → (m : ℕ) → (q : ℤ) → Prop
  | subnormal {f : ℕ} (hf : f < 2 ^ 52) (hpos : 0 < f) : Fields 0 f f (-1074)
  | normal {e f : ℕ} (hzero : e ≠ 0) (he : e < 2047) (hf : f < 2 ^ 52) :
    Fields e f (2 ^ 52 + f) (e - 1075)

variable {e f m : ℕ} {q : ℤ} {s : Sign}

namespace Fields

lemma canonical (h : Fields e f m q) : Canonical m q := by
  cases h with
  | subnormal hf hpos => exact ⟨hpos, by omega, le_rfl, .inr rfl⟩
  | normal hzero he hf => exact ⟨by omega, by omega, by omega, .inl (by omega)⟩

lemma exponent_le (h : Fields e f m q) : q ≤ 971 := by
  cases h with
  | subnormal hf hpos => decide
  | normal hzero he hf => omega

lemma of_canonical (hc : Canonical m q) (hq : q ≤ 971) : ∃ e f, Fields e f m q := by
  obtain ⟨hpos, hm, hmin, hsmallest⟩ := hc
  by_cases hnormal : 2 ^ 52 ≤ m
  · obtain ⟨f, rfl⟩ := Nat.exists_eq_add_of_le hnormal
    have he : (((q + 1075).toNat : ℕ) : ℤ) - 1075 = q := by omega
    refine ⟨(q + 1075).toNat, f, ?_⟩
    have h := Fields.normal (e := (q + 1075).toNat) (f := f) (by omega) (by omega) (by omega)
    rwa [he] at h
  · obtain rfl := hsmallest.resolve_left hnormal
    exact ⟨0, m, .subnormal (by omega) hpos⟩

lemma pack (h : Fields e f m q) (s : Sign) :
    UnpackedFloat.pack .binary64 (.finite s m q h.canonical.pos) =
      packComponents .binary64 s (BitVec.ofNat 11 e) (BitVec.ofNat 52 f) := by
  cases h with
  | subnormal hf hpos =>
    have hlog : f.log2 < 52 := (Nat.log2_lt hpos.ne').mpr hf
    have hsmall : ¬ 2 ^ Format.binary64.exponentBits ≤
        ((-1074 : ℤ) + Format.binary64.exponentBias +
          Format.binary64.mantissaBitsWithoutImplicit).toNat + 1 := by decide
    have hdigits : ¬ f.log2 + 1 = Format.binary64.mantissaBits := by
      show ¬ f.log2 + 1 = 53
      omega
    simp only [UnpackedFloat.pack]
    rw [if_neg hsmall, if_neg hdigits]
  | normal hzero he hf =>
    have hbias : ((e : ℤ) - 1075 + Format.binary64.exponentBias +
        Format.binary64.mantissaBitsWithoutImplicit).toNat = e := by
      show ((e : ℤ) - 1075 + (1023 : ℕ) + (52 : ℕ)).toNat = e
      omega
    have hsmall : ¬ 2 ^ Format.binary64.exponentBits ≤ e + 1 := by
      show ¬ 2 ^ 11 ≤ e + 1
      omega
    have hdigits : (2 ^ 52 + f).log2 + 1 = Format.binary64.mantissaBits := by
      have hlog : (2 ^ 52 + f).log2 = 52 := (Nat.log2_eq_iff (by omega)).mpr ⟨by omega, by omega⟩
      rw [hlog]
      rfl
    have hfraction : BitVec.ofNat 52 (2 ^ 52 + f) = BitVec.ofNat 52 f := by
      apply BitVec.eq_of_toNat_eq
      simp
    simp only [UnpackedFloat.pack]
    rw [hbias, if_neg hsmall, if_pos hdigits]
    exact congrArg _ hfraction

lemma unpack (h : Fields e f m q) (s : Sign) :
    UnpackedFloat.unpack .binary64
        (packComponents .binary64 s (BitVec.ofNat 11 e) (BitVec.ofNat 52 f)) =
      .finite s m q h.canonical.pos := by
  cases h with
  | subnormal hf hpos =>
    have hvalue : (BitVec.ofNat 52 f).toNat = f := by
      rw [BitVec.toNat_ofNat, Nat.mod_eq_of_lt hf]
    have hne : BitVec.ofNat 52 f ≠ 0#52 := by
      intro hzero
      have hnat := congrArg BitVec.toNat hzero
      rw [hvalue] at hnat
      exact hpos.ne' hnat
    simp only [UnpackedFloat.unpack, unpackMantissa_packComponents, unpackExponent_packComponents,
      unpackSign_packComponents, ofBitVec_toBitVec]
    rw [if_neg (by decide), if_pos trivial, dif_neg hne, UnpackedFloat.finite.injEq]
    exact ⟨rfl, hvalue, rfl⟩
  | normal hzero he hf =>
    have hvalue : (BitVec.ofNat 11 e).toNat = e := by
      rw [BitVec.toNat_ofNat, Nat.mod_eq_of_lt (by omega)]
    have hfraction : (1#1 ++ BitVec.ofNat 52 f).toNat = 2 ^ 52 + f := by
      rw [BitVec.toNat_append, ← Nat.shiftLeft_add_eq_or_of_lt (BitVec.isLt _), BitVec.toNat_ofNat,
        BitVec.toNat_ofNat, Nat.mod_eq_of_lt hf]
      rfl
    have hall : BitVec.ofNat 11 e ≠ -1#11 := by
      intro hone
      have hnat := congrArg BitVec.toNat hone
      rw [hvalue] at hnat
      exact he.ne hnat
    have hnone : BitVec.ofNat 11 e ≠ 0#11 := by
      intro hnull
      have hnat := congrArg BitVec.toNat hnull
      rw [hvalue] at hnat
      exact hzero hnat
    simp only [UnpackedFloat.unpack, unpackMantissa_packComponents, unpackExponent_packComponents,
      unpackSign_packComponents, ofBitVec_toBitVec]
    rw [if_neg hall, if_neg hnone, UnpackedFloat.finite.injEq]
    exact ⟨rfl, hfraction, by rw [hvalue]; rfl⟩

end Fields

/-! ### The bits of a double -/

def exponentField (b : UInt64) : ℕ := ((b >>> 52) &&& 0x7FF).toNat

def fractionField (b : UInt64) : ℕ := (b &&& 0xFFFFFFFFFFFFF).toNat

def signOf (negative : Bool) : Sign := if negative then .negative else .positive

lemma exponentField_eq (b : UInt64) : exponentField b = b.toNat / 2 ^ 52 % 2 ^ 11 := by
  have hmask : (0x7FF : UInt64).toNat = 2 ^ 11 - 1 := rfl
  rw [exponentField, UInt64.toNat_and, hmask, Nat.and_two_pow_sub_one_eq_mod,
    UInt64.toNat_shiftRight, Nat.shiftRight_eq_div_pow]
  rfl

lemma fractionField_eq (b : UInt64) : fractionField b = b.toNat % 2 ^ 52 := by
  have hmask : (0xFFFFFFFFFFFFF : UInt64).toNat = 2 ^ 52 - 1 := rfl
  rw [fractionField, UInt64.toNat_and, hmask, Nat.and_two_pow_sub_one_eq_mod]

lemma signOf_eq (b : UInt64) :
    Sign.ofBitVec (@unpackSign .binary64 b.toBitVec) = signOf (b >>> 63 == 1) := by
  have hbit : (@unpackSign .binary64 b.toBitVec).toNat = b.toNat / 2 ^ 63 := by
    have hlt := b.toNat_lt
    simp [unpackSign, BitVec.extractLsb_toNat, Nat.shiftRight_eq_div_pow]
    omega
  have hshift : (b >>> 63).toNat = b.toNat / 2 ^ 63 := by
    rw [UInt64.toNat_shiftRight, Nat.shiftRight_eq_div_pow]
    rfl
  have hnegative : (b >>> 63 == 1) = decide (b.toNat / 2 ^ 63 = 1) := by
    rw [Bool.eq_iff_iff, beq_iff_eq, decide_eq_true_iff, ← hshift, ← UInt64.toNat_inj]
    rfl
  rw [hnegative, ← hbit]
  rcases BitVec.eq_zero_or_eq_one (@unpackSign .binary64 b.toBitVec) with h | h <;> rw [h] <;> rfl

lemma toBitVec_eq (b : UInt64) : b.toBitVec =
    packComponents .binary64 (signOf (b >>> 63 == 1)) (BitVec.ofNat 11 (exponentField b))
      (BitVec.ofNat 52 (fractionField b)) := by
  have hexponent : @unpackExponent .binary64 b.toBitVec = BitVec.ofNat 11 (exponentField b) := by
    apply BitVec.eq_of_toNat_eq
    rw [exponentField_eq]
    simp [unpackExponent, BitVec.extractLsb_toNat, Nat.shiftRight_eq_div_pow]
  have hfraction : @unpackMantissa .binary64 b.toBitVec = BitVec.ofNat 52 (fractionField b) := by
    apply BitVec.eq_of_toNat_eq
    rw [fractionField_eq]
    simp [unpackMantissa, BitVec.extractLsb_toNat]
  have h := packComponents_unpack b.toBitVec
  rw [signOf_eq, hexponent, hfraction] at h
  exact h.symm

lemma exponentField_lt (b : UInt64) : exponentField b < 2 ^ 11 := by
  rw [exponentField_eq]
  exact Nat.mod_lt _ (by decide)

lemma fractionField_lt (b : UInt64) : fractionField b < 2 ^ 52 := by
  rw [fractionField_eq]
  exact Nat.mod_lt _ (by decide)

lemma ofBits_eq (b : UInt64) : Decimal.Binary.ofBits b = if exponentField b = 0 then
    ⟨fractionField b, -1074, false⟩ else ⟨2 ^ 52 + fractionField b, (exponentField b : ℤ) - 1075,
      fractionField b == 0 && exponentField b > 1⟩ := by
  simp only [Decimal.Binary.ofBits, beq_iff_eq]
  rfl

lemma fields_ofBits {b : UInt64} (he : exponentField b ≠ 2047)
    (hm : (Decimal.Binary.ofBits b).m ≠ 0) :
    Fields (exponentField b) (fractionField b) (Decimal.Binary.ofBits b).m
      (Decimal.Binary.ofBits b).q := by
  have hexponent := exponentField_lt b
  have hfraction := fractionField_lt b
  rw [ofBits_eq] at hm ⊢
  split_ifs at hm ⊢ with hzero
  · rw [hzero]
    exact .subnormal hfraction (Nat.pos_of_ne_zero hm)
  · exact .normal hzero (by omega) hfraction

lemma float_ext {x y : Float} (h : x.toBits.toBitVec = y.toBits.toBitVec) : x = y := by
  obtain ⟨⟨b, hb⟩⟩ := x
  obtain ⟨⟨c, hc⟩⟩ := y
  obtain rfl : b = c := UInt64.eq_of_toBitVec_eq h
  rfl

end Dossier.Double
