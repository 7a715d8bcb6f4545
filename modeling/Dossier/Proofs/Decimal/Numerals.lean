import Mathlib
import Dossier.Decimal.Layout
import Dossier.Proofs.Decimal.Digits

/-!
The numerals of doubles in written data. Whichever layout is chosen, the text of a finite double is
the numeral of its shortest decimal, up to zeros that go from the exponent into the digits; what is
no finite double is written as null.
-/

namespace Dossier.Decimal

/-- The number is the same, but some powers of ten may be digits. -/
def Digits.Spreads (d : Digits) (n : Numeral) : Prop :=
  ∃ k : ℕ, n.digits = d.digits * 10 ^ k ∧ n.exponent = d.exponent - k

lemma Digits.spreads_of_eq {d : Digits} {n : Numeral} (h : n.digits = d.digits)
    (h' : n.exponent = d.exponent) : d.Spreads n :=
  ⟨0, by simp [h], by simp [h']⟩

/-! ### The shortest decimal of a positive double is positive -/

lemma digits_pos_of_readsBack {x : Binary} {d : Digits} (hx : 0 < x.m) (h : x.readsBack d = true) :
    0 < d.digits := by
  rw [Nat.pos_iff_ne_zero]
  intro hzero
  have hlow : 0 < if x.narrowBelow then 4 * x.m - 1 else 4 * x.m - 2 := by split <;> omega
  have hbelow : compareScaled 0 d.exponent
      (if x.narrowBelow then 4 * x.m - 1 else 4 * x.m - 2) (x.q - 2) = .lt := by
    rw [compareScaled, Nat.compare_eq_lt, zero_mul, zero_mul]
    have htwo : 0 < twoPow (x.q - 2).toNat := Nat.pow_pos (by decide)
    have hten : 0 < tenPow (-d.exponent).toNat := Nat.pow_pos (by decide)
    positivity
  simp [Binary.readsBack, hzero, hbelow] at h

lemma readsBack_of_pick {x : Binary} {tie : Tie} {g : ℤ} {d : Digits} (h : x.pick tie g = some d) :
    x.readsBack d = true := by
  simp only [Binary.pick] at h
  split at h
  next => cases h
  next hlow _ => cases h; exact hlow
  next _ hhigh => cases h; exact hhigh
  next hlow hhigh =>
    split at h
    · cases h; exact hlow
    · cases h; exact hhigh
    · split at h
      · cases h; exact hlow
      · cases h; exact hhigh

lemma strip_pos {d : Digits} (h : 0 < d.digits) (fuel : ℕ) : 0 < (d.strip fuel).digits := by
  induction fuel generalizing d with
  | zero => exact h
  | succ fuel ih =>
    rw [Digits.strip]
    split
    next hzero =>
      simp only [Bool.and_eq_true, beq_iff_eq] at hzero
      exact ih (show 0 < d.digits / 10 by omega)
    next => exact h

lemma exact_pos {x : Binary} (hx : 0 < x.m) : 0 < x.exact.digits := by
  rw [Binary.exact]
  split
  · exact Nat.mul_pos hx (Nat.pow_pos (by decide))
  · exact Nat.mul_pos hx (Nat.pow_pos (by decide))

lemma shortest_pos {x : Binary} (hx : 0 < x.m) (tie : Tie) : 0 < (x.shortest tie).digits := by
  have hne : (x.m == 0) = false := beq_eq_false_iff_ne.mpr hx.ne'
  rw [Binary.shortest, hne]
  refine strip_pos ?_ 800
  cases hfound : ((List.range 17).map fun (n : ℕ) => x.scale - 1 - (n : ℤ)).findSome? (x.pick tie)
  next => exact exact_pos hx
  next d =>
    obtain ⟨g, -, hg⟩ := List.exists_of_findSome?_eq_some hfound
    exact digits_pos_of_readsBack hx (readsBack_of_pick hg)

/-! ### Layouts -/

lemma toList_zeros (n : ℕ) : (zeros n).toList = List.replicate n '0' := String.toList_ofList

lemma number?_point {whole fraction : List Char} (hw : IsWhole whole) (hf : AreDigits fraction)
    (hne : fraction ≠ []) (negative : Bool) :
    Json.number? (signText negative ++ (whole ++ '.' :: fraction)) =
      some ⟨⟨negative, naturalOf (whole ++ fraction), -(fraction.length : ℤ)⟩, false⟩ := by
  have h := Json.number?_parts hw (fun cs hcs => Option.some.inj hcs ▸ ⟨hf, hne⟩) none negative
  simpa [fractionText, exponentText, Parts.numeral] using h

section Layouts

variable {s : String} (hs : IsWhole s.toList) (negative : Bool)

include hs

lemma number?_before {point : ℤ} (hp : point ≤ 0) :
    Json.number? (signText negative ++ (dataLayout.positional s point).toList) =
      some ⟨⟨negative, naturalOf s.toList, point - s.length⟩, false⟩ := by
  have htext : (dataLayout.positional s point).toList =
      ['0'] ++ '.' :: (List.replicate (-point).toNat '0' ++ s.toList) := by
    simp [Layout.positional, hp, toList_zeros]
  have hzero : IsWhole ['0'] := ⟨by simp [AreDigits], by simp, fun _ => rfl⟩
  have hvalue : naturalOf (['0'] ++ (List.replicate (-point).toNat '0' ++ s.toList)) =
      naturalOf s.toList := by
    have hfront : naturalOf ['0'] = 0 := rfl
    rw [naturalOf_append, naturalOf_append, naturalOf_replicate, hfront, zero_mul, zero_mul,
      zero_add, zero_add]
  have hplaces : -((List.replicate (-point).toNat '0' ++ s.toList).length : ℤ) =
      point - s.length := by
    rw [List.length_append, List.length_replicate, String.length_toList]
    omega
  rw [htext, number?_point hzero ((areDigits_replicate _).append hs.digits) (by simp [hs.ne_nil]),
    hvalue, hplaces]

lemma number?_behind {point : ℤ} (hhead : s.toList.head? ≠ some '0') (hp : 0 < point)
    (hlen : (s.length : ℤ) ≤ point) :
    Json.number? (signText negative ++ (dataLayout.positional s point).toList) =
      some ⟨⟨negative, naturalOf s.toList * 10 ^ ((point - s.length).toNat + 1), -1⟩, false⟩ := by
  have htext : (dataLayout.positional s point).toList =
      (s.toList ++ List.replicate (point - s.length).toNat '0') ++ '.' :: ['0'] := by
    simp [Layout.positional, hp.not_ge, hlen, toList_zeros, dataLayout]
  have hwhole : IsWhole (s.toList ++ List.replicate (point - s.length).toNat '0') :=
    ⟨hs.digits.append (areDigits_replicate _), by simp [hs.ne_nil],
      fun h => absurd h (by rwa [List.head?_append_of_ne_nil _ hs.ne_nil])⟩
  have hvalue : naturalOf (s.toList ++ List.replicate (point - s.length).toNat '0' ++ ['0']) =
      naturalOf s.toList * 10 ^ ((point - s.length).toNat + 1) := by
    have hrow : List.replicate (point - s.length).toNat '0' ++ ['0'] =
        List.replicate ((point - s.length).toNat + 1) '0' := List.replicate_succ'.symm
    rw [List.append_assoc, hrow, naturalOf_append, naturalOf_replicate, List.length_replicate,
      add_zero]
  have hone : AreDigits ['0'] := by simp [AreDigits]
  rw [htext, number?_point hwhole hone (by simp), hvalue]
  rfl

lemma number?_between {point : ℤ} (hhead : s.toList.head? ≠ some '0') (hp : 0 < point)
    (hlen : point < s.length) :
    Json.number? (signText negative ++ (dataLayout.positional s point).toList) =
      some ⟨⟨negative, naturalOf s.toList, point - s.length⟩, false⟩ := by
  have htext : (dataLayout.positional s point).toList =
      s.toList.take point.toNat ++ '.' :: s.toList.drop point.toNat := by
    simp [Layout.positional, hp.not_ge, hlen.not_ge]
  have hpos : point.toNat ≠ 0 := by omega
  have hwhole : IsWhole (s.toList.take point.toNat) := by
    refine ⟨fun c hc => hs.digits c (List.mem_of_mem_take hc), ?_, fun h => absurd h ?_⟩
    · simpa [hs.ne_nil] using hp
    · rwa [List.head?_take, if_neg hpos]
  have hbehind : s.toList.drop point.toNat ≠ [] := by
    rw [Ne, List.drop_eq_nil_iff, String.length_toList]
    omega
  have hplaces : -((s.toList.drop point.toNat).length : ℤ) = point - s.length := by
    rw [List.length_drop, String.length_toList]
    omega
  rw [htext, number?_point hwhole (fun c hc => hs.digits c (List.mem_of_mem_drop hc)) hbehind,
    List.take_append_drop, hplaces]

lemma number?_scientific (point : ℤ) :
    Json.number? (signText negative ++ (dataLayout.scientific s point).toList) =
      some ⟨⟨negative, naturalOf s.toList, point - s.length⟩, false⟩ := by
  obtain ⟨c, cs, hcs⟩ := List.exists_cons_of_ne_nil hs.ne_nil
  have hfirst : IsWhole [c] := by
    refine ⟨fun d hd => hs.digits d ?_, by simp, fun h => by simpa using h⟩
    rw [hcs]
    exact List.mem_cons.mpr (.inl (List.mem_singleton.mp hd))
  have hrest : AreDigits cs := fun d hd => hs.digits d (hcs ▸ List.mem_cons_of_mem c hd)
  have hlen : (s.length : ℤ) = cs.length + 1 := by
    rw [← String.length_toList, hcs, List.length_cons, Nat.cast_succ]
  have htext : (dataLayout.scientific s point).toList = [c] ++
      (fractionText (if cs = [] then none else some cs) ++ exponentText (some (point - 1))) := by
    by_cases hnil : cs = [] <;> by_cases he : point - 1 < 0 <;>
      simp [Layout.scientific, dataLayout, exponentText, fractionText, hcs, hnil, he]
  have hfraction : ∀ ds ∈ (if cs = [] then none else some cs), AreDigits ds ∧ ds ≠ [] := by
    intro ds hds
    by_cases hnil : cs = []
    · simp [hnil] at hds
    · obtain rfl : cs = ds := by simpa [hnil] using hds
      exact ⟨hrest, hnil⟩
  have hparts := Json.number?_parts hfirst hfraction (some (point - 1)) negative
  rw [htext, hparts]
  by_cases hnil : cs = []
  · simp [Parts.numeral, hcs, hnil, hlen]
  · simp [Parts.numeral, hcs, hnil, hlen]
    omega

end Layouts

/-! ### Doubles -/

lemma dataText_of_not_finite {x : Float} (h : isFinite x = false) : dataText x = "null" := by
  unfold dataText Layout.text
  split_ifs <;> first | rfl | simp_all [dataLayout]

lemma number?_magnitude (x : Binary) (negative : Bool) :
    ∃ n : Numeral, Json.number? (signText negative ++ (dataLayout.magnitude x).toList) =
        some ⟨n, false⟩ ∧ n.negative = negative ∧ (x.shortest .toEven).Spreads n := by
  by_cases hzero : x.m = 0
  · have htext : (dataLayout.magnitude x).toList = ['0'] ++ '.' :: ['0'] := by
      simp [Layout.magnitude, hzero, dataLayout]
    have hdigit : IsWhole ['0'] := ⟨by simp [AreDigits], by simp, fun _ => rfl⟩
    refine ⟨⟨negative, 0, -1⟩, ?_, rfl, 1, ?_⟩
    · rw [htext, number?_point hdigit hdigit.digits hdigit.ne_nil]
      rfl
    · simp [Binary.shortest, hzero]
  have hne : (x.m == 0) = false := beq_eq_false_iff_ne.mpr hzero
  set d := x.shortest .toEven with hd
  have hpos : 0 < d.digits := shortest_pos (Nat.pos_of_ne_zero hzero) .toEven
  have hs := isWhole_toString d.digits
  have hvalue := naturalOf_toString d.digits
  have hhead : (toString d.digits).toList.head? ≠ some '0' := by
    rw [toList_toString]
    exact head?_toDigits hpos
  obtain ⟨point, hpoint⟩ : ∃ point, point = d.exponent + ((toString d.digits).length : ℤ) :=
    ⟨_, rfl⟩
  have hplaces : point - (toString d.digits).length = d.exponent := by omega
  have hmagnitude : dataLayout.magnitude x =
      if -4 ≤ point ∧ point ≤ 16 then dataLayout.positional (toString d.digits) point
      else dataLayout.scientific (toString d.digits) point := by
    simp [Layout.magnitude, hne, dataLayout, hpoint, hd]
  rw [hmagnitude]
  by_cases hplain : -4 ≤ point ∧ point ≤ 16
  · rw [if_pos hplain]
    rcases le_or_gt point 0 with hfront | hpositive
    · exact ⟨_, number?_before hs negative hfront, rfl, Digits.spreads_of_eq hvalue hplaces⟩
    rcases le_or_gt ((toString d.digits).length : ℤ) point with hlen | hlen
    · refine ⟨_, number?_behind hs negative hhead hpositive hlen, rfl, d.exponent.toNat + 1, ?_⟩
      have hexponent : -1 = d.exponent - ((d.exponent.toNat + 1 : ℕ) : ℤ) := by omega
      exact ⟨by rw [hvalue, hplaces], hexponent⟩
    · exact ⟨_, number?_between hs negative hhead hpositive hlen, rfl,
        Digits.spreads_of_eq hvalue hplaces⟩
  · rw [if_neg hplain]
    exact ⟨_, number?_scientific hs negative point, rfl, Digits.spreads_of_eq hvalue hplaces⟩

/-- **The text of a finite double** is a numeral of its shortest decimal. -/
theorem number?_dataText {x : Float} (h : isFinite x = true) :
    ∃ n : Numeral, Json.number? (dataText x).toList = some ⟨n, false⟩ ∧
      n.negative = isNegative x ∧ ((Binary.ofBits x.toBits).shortest .toEven).Spreads n := by
  have htext : (dataText x).toList =
      signText (isNegative x) ++ (dataLayout.magnitude (Binary.ofBits x.toBits)).toList := by
    have hnan : isNaN x = false := by simp [isNaN, h]
    by_cases hneg : isNegative x = true <;>
      simp [dataText, Layout.text, hnan, h, hneg, signText]
  rw [htext]
  exact number?_magnitude _ _

end Dossier.Decimal
