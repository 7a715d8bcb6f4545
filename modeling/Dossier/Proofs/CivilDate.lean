import Mathlib
import Dossier.CivilDate
import Dossier.Proofs.Decimal.Digits
import Dossier.Proofs.Namespace

/-!
Written days. Whatever the year, before the year zero or behind the year 9999 too, the text of a day
is read back as that day.
-/

namespace Dossier.CivilDate

open Decimal (AreDigits IsWhole naturalOf)

lemma trimStart_of_not_blank {c : Char} (h : Text.isBlank c = false) (cs : List Char) :
    Text.trimStart (c :: cs) = c :: cs := by
  simp [Text.trimStart, h]

lemma isBlank_of_isDigit {c : Char} (h : c.isDigit = true) : Text.isBlank c = false :=
  isBlank_of_isWordChar (by simp [Text.isWordChar, Char.isAlphanum, h])

/-! ### Padded numbers -/

lemma toList_padded (width n : ℕ) : (padded width n).toList =
    List.replicate (width - (toString n).toList.length) '0' ++ (toString n).toList :=
  String.toList_ofList

lemma areDigits_padded (width n : ℕ) : AreDigits (padded width n).toList := by
  rw [toList_padded]
  exact (Decimal.areDigits_replicate _).append (Decimal.isWhole_toString n).digits

lemma padded_ne_nil (width n : ℕ) : (padded width n).toList ≠ [] := by
  rw [toList_padded]
  exact List.append_ne_nil_of_right_ne_nil _ (Decimal.isWhole_toString n).ne_nil

lemma naturalOf_padded (width n : ℕ) : naturalOf (padded width n).toList = n := by
  rw [toList_padded, Decimal.naturalOf_append, Decimal.naturalOf_replicate, zero_mul, zero_add,
    Decimal.naturalOf_toString]

lemma length_padded {width n : ℕ} (hw : 0 < width) (h : n < 10 ^ width) :
    (padded width n).toList.length = width := by
  have hlen : (toString n).toList.length ≤ width := by
    rw [Decimal.toList_toString]
    exact (Nat.length_toDigits_le_iff (by decide) hw).mpr h
  rw [toList_padded, List.length_append, List.length_replicate]
  omega

/-! ### The parts of a day -/

lemma number?_digits {cs : List Char} (hd : AreDigits cs) (hne : cs ≠ []) {width : Option ℕ}
    (hw : ∀ w ∈ width, cs.length ≤ w) {rest : List Char}
    (hr : ∀ c ∈ rest.head?, c.isDigit = false) :
    number? width (cs ++ rest) = some (naturalOf cs, rest) := by
  obtain ⟨htake, hdrop⟩ := Decimal.takeWhile_digits hd rest hr
  obtain ⟨c, cs, rfl⟩ := List.exists_cons_of_ne_nil hne
  have htrim : Text.trimStart (c :: cs ++ rest) = c :: cs ++ rest :=
    trimStart_of_not_blank (isBlank_of_isDigit (hd c List.mem_cons_self)) _
  cases width with
  | none =>
    simp only [number?, htrim, htake]
    simp
  | some w =>
    have hcut : (c :: cs).take w = c :: cs := List.take_of_length_le (hw w rfl)
    simp only [number?, htrim, htake, hcut]
    simp

lemma number?_padded {width n : ℕ} (hw : 0 < width) (h : n < 10 ^ width) {rest : List Char}
    (hr : ∀ c ∈ rest.head?, c.isDigit = false) :
    number? (some width) ((padded width n).toList ++ rest) = some (n, rest) := by
  have hwidth : ∀ w ∈ some width, (padded width n).toList.length ≤ w := by
    rintro w hw'
    rw [length_padded hw h, Option.some.inj hw']
  rw [number?_digits (areDigits_padded width n) (padded_ne_nil width n) hwidth hr, naturalOf_padded]

lemma hyphen?_cons (rest : List Char) : hyphen? ('-' :: rest) = some rest := by
  rw [hyphen?, trimStart_of_not_blank (by decide)]
  rfl

lemma year?_yearText (y : ℤ) {rest : List Char} (hr : ∀ c ∈ rest.head?, c.isDigit = false) :
    year? ((yearText y).toList ++ rest) = some (y, rest) := by
  have hdigits := areDigits_padded 4 y.natAbs
  have hne := padded_ne_nil 4 y.natAbs
  have hvalue := naturalOf_padded 4 y.natAbs
  have hsigned : number? none ((padded 4 y.natAbs).toList ++ rest) = some (y.natAbs, rest) := by
    rw [number?_digits hdigits hne (by simp) hr, hvalue]
  obtain ⟨c, cs, hcs⟩ := List.exists_cons_of_ne_nil hne
  have hc : c.isDigit = true := hdigits c (hcs ▸ List.mem_cons_self)
  rw [hcs, List.cons_append] at hsigned
  by_cases hneg : y < 0
  · have htext : (yearText y).toList ++ rest = '-' :: (c :: (cs ++ rest)) := by
      simp [yearText, hneg, hcs]
    have hyear : -(y.natAbs : ℤ) = y := by omega
    rw [htext, year?, trimStart_of_not_blank (by decide)]
    simp only [List.head?_cons, Option.map_some, hc, Option.getD_some, if_true, hsigned, hyear]
  by_cases hlate : 9999 < y
  · have htext : (yearText y).toList ++ rest = '+' :: (c :: (cs ++ rest)) := by
      simp [yearText, hneg, hlate, hcs]
    have hyear : (y.natAbs : ℤ) = y := by omega
    rw [htext, year?, trimStart_of_not_blank (by decide)]
    simp only [List.head?_cons, Option.map_some, hc, Option.getD_some, if_true, hsigned, hyear]
  · have htext : (yearText y).toList ++ rest = c :: (cs ++ rest) := by
      simp [yearText, hneg, hlate, hcs]
    have hyear : (y.natAbs : ℤ) = y := by omega
    have hfour : number? (some 4) ((padded 4 y.natAbs).toList ++ rest) = some (y.natAbs, rest) :=
      number?_padded (by decide) (by omega) hr
    rw [hcs, List.cons_append] at hfour
    have hsign : c ≠ '-' ∧ c ≠ '+' := by
      constructor <;> (rintro rfl; exact absurd hc (by decide))
    rw [htext, year?, trimStart_of_not_blank (isBlank_of_isDigit hc)]
    simp [hsign, hfour, hyear]

/-- **A day is read back** from its text. -/
theorem ofText?_text (d : CivilDate) : ofText? d.text = some d := by
  obtain ⟨y, m, day, hcalendar⟩ := d
  obtain ⟨hmonth, hday⟩ : m < 10 ^ 2 ∧ day < 10 ^ 2 := by
    simp only [isCivilDate, Bool.and_eq_true, decide_eq_true_eq] at hcalendar
    have hlast : daysInMonth y m ≤ 31 := by
      unfold daysInMonth
      split_ifs <;> decide
    omega
  have htext : (text ⟨y, m, day, hcalendar⟩).toList =
      (yearText y).toList ++
        '-' :: ((padded 2 m).toList ++ '-' :: ((padded 2 day).toList ++ [])) := by
    simp [text]
  have hyear : year? ((yearText y).toList ++ '-' :: ((padded 2 m).toList ++
      '-' :: ((padded 2 day).toList ++ []))) = _ := year?_yearText y (by simp)
  have hmonth :
      number? (some 2) ((padded 2 m).toList ++ '-' :: ((padded 2 day).toList ++ [])) = _ :=
    number?_padded (by decide) hmonth (by simp)
  have hday : number? (some 2) ((padded 2 day).toList ++ []) = _ :=
    number?_padded (by decide) hday (by simp)
  have hdate : ofParts? y m day = some ⟨y, m, day, hcalendar⟩ := dif_pos hcalendar
  simp only [ofText?, htext, hyear, hyphen?_cons, hmonth, hday, Option.bind_eq_bind,
    Option.bind_some, hdate]
  rfl

end Dossier.CivilDate
