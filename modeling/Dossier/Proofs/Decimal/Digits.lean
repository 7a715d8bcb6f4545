import Mathlib
import Dossier.Json.Token

/-!
Numbers by their digits. A natural number is written without zeros in front, and its digits denote
it again. What is put together from a whole part, a fraction and an exponent, each made of digits,
is read as the numeral that these denote.
-/

namespace Dossier.Decimal

def AreDigits (cs : List Char) : Prop := ∀ c ∈ cs, c.isDigit = true

/-- A list of digits with at least one digit, and no zero in front of others. -/
structure IsWhole (cs : List Char) : Prop where
  digits : AreDigits cs
  ne_nil : cs ≠ []
  head : cs.head? = some '0' → cs = ['0']

lemma AreDigits.append {cs ds : List Char} (h : AreDigits cs) (h' : AreDigits ds) :
    AreDigits (cs ++ ds) := by
  intro c hc
  rcases List.mem_append.mp hc with hc | hc
  · exact h c hc
  · exact h' c hc

lemma areDigits_replicate (n : ℕ) : AreDigits (List.replicate n '0') := by
  intro c hc
  rw [List.eq_of_mem_replicate hc]
  rfl

/-! ### Natural numbers -/

lemma naturalOf_eq (cs : List Char) : naturalOf cs = Nat.ofDigitChars 10 cs 0 := rfl

lemma naturalOf_append (cs ds : List Char) :
    naturalOf (cs ++ ds) = naturalOf cs * 10 ^ ds.length + naturalOf ds := by
  rw [naturalOf_eq, Nat.ofDigitChars_append, Nat.ofDigitChars_eq_ofDigitChars_zero, mul_comm]
  rfl

lemma naturalOf_replicate (n : ℕ) : naturalOf (List.replicate n '0') = 0 := by
  rw [naturalOf_eq, Nat.ofDigitChars_replicate_zero, mul_zero]

lemma toList_toString (n : ℕ) : (toString n).toList = Nat.toDigits 10 n := Nat.toList_repr

lemma naturalOf_toString (n : ℕ) : naturalOf (toString n).toList = n := by
  rw [toList_toString, naturalOf_eq, Nat.ofDigitChars_ten_toDigits]

lemma head?_toDigits {n : ℕ} (h : 0 < n) : (Nat.toDigits 10 n).head? ≠ some '0' := by
  induction n using Nat.strong_induction_on with
  | _ n ih =>
    by_cases hlt : n < 10
    · rw [Nat.toDigits_of_lt_base hlt]
      interval_cases n <;> decide
    · rw [Nat.toDigits_of_base_le (by decide) (by omega),
        List.head?_append_of_ne_nil _ Nat.toDigits_ne_nil]
      exact ih (n / 10) (by omega) (by omega)

lemma isWhole_toString (n : ℕ) : IsWhole (toString n).toList := by
  rw [toList_toString]
  refine ⟨fun c hc => Nat.isDigit_of_mem_toDigits (by decide) (by decide) hc, Nat.toDigits_ne_nil,
    fun h => ?_⟩
  rcases Nat.eq_zero_or_pos n with rfl | hpos
  · rfl
  · exact absurd h (head?_toDigits hpos)

/-! ### Parts of a number -/

lemma takeWhile_digits {cs : List Char} (h : AreDigits cs) (rest : List Char)
    (hr : ∀ c ∈ rest.head?, c.isDigit = false) :
    (cs ++ rest).takeWhile Char.isDigit = cs ∧ (cs ++ rest).dropWhile Char.isDigit = rest := by
  rw [List.takeWhile_append_of_pos h, List.dropWhile_append_of_pos h]
  cases rest with
  | nil => simp
  | cons c rest => simp [hr c rfl]

def signText (negative : Bool) : List Char := if negative then ['-'] else []

def fractionText : Option (List Char) → List Char
  | none => []
  | some cs => '.' :: cs

def exponentText : Option ℤ → List Char
  | none => []
  | some e => 'e' :: (if e < 0 then '-' else '+') :: (toString e.natAbs).toList

lemma exponentOf_digits {cs : List Char} (h : AreDigits cs) (hne : cs ≠ []) (negative : Bool) :
    exponentOf negative cs =
      some (if negative = true then -(naturalOf cs : ℤ) else (naturalOf cs : ℤ)) := by
  have hall : cs.all Char.isDigit = true := List.all_eq_true.mpr h
  simp [exponentOf, hne, hall]

lemma signedExponent_text (e : ℤ) :
    signedExponent ((if e < 0 then '-' else '+') :: (toString e.natAbs).toList) = some e := by
  have hw := isWhole_toString e.natAbs
  have hvalue := naturalOf_toString e.natAbs
  by_cases he : e < 0
  · rw [if_pos he, signedExponent, exponentOf_digits hw.digits hw.ne_nil, hvalue, if_pos rfl]
    exact congrArg some (by omega)
  · rw [if_neg he, signedExponent, exponentOf_digits hw.digits hw.ne_nil, hvalue,
      if_neg Bool.false_ne_true]
    exact congrArg some (by omega)

lemma ofChars?_parts {whole : List Char} {fraction : Option (List Char)} (hw : AreDigits whole)
    (hf : ∀ cs ∈ fraction, AreDigits cs) (e : Option ℤ) :
    Parts.ofChars? (whole ++ (fractionText fraction ++ exponentText e)) =
      some ⟨whole, fraction, e⟩ := by
  have hexponent : ∀ c ∈ (exponentText e).head?, c.isDigit = false := by
    cases e with
    | none => simp [exponentText]
    | some e => simp [exponentText]
  have hbehind : ∀ c ∈ (fractionText fraction ++ exponentText e).head?, c.isDigit = false := by
    cases fraction with
    | none => simpa [fractionText] using hexponent
    | some cs => simp [fractionText]
  obtain ⟨htake, hdrop⟩ := takeWhile_digits hw _ hbehind
  simp only [Parts.ofChars?, htake, hdrop]
  cases fraction with
  | none =>
    cases e with
    | none => rfl
    | some e => simpa [fractionText, exponentText] using signedExponent_text e
  | some cs =>
    obtain ⟨htake, hdrop⟩ := takeWhile_digits (hf cs rfl) _ hexponent
    simp only [fractionText, List.cons_append, htake, hdrop]
    cases e with
    | none => rfl
    | some e => simpa [exponentText] using signedExponent_text e

end Dossier.Decimal

namespace Dossier.Json

open Decimal

/-- **A number in written data** is read as the numeral that its parts denote. -/
theorem number?_parts {whole : List Char} {fraction : Option (List Char)} (hw : IsWhole whole)
    (hf : ∀ cs ∈ fraction, AreDigits cs ∧ cs ≠ []) (e : Option ℤ) (negative : Bool) :
    number? (signText negative ++ (whole ++ (fractionText fraction ++ exponentText e))) =
      some ⟨(Parts.mk whole fraction e).numeral negative, fraction.isNone && e.isNone⟩ := by
  have hparts := ofChars?_parts hw.digits (fun cs hcs => (hf cs hcs).1) e
  obtain ⟨c, cs, rfl⟩ := List.exists_cons_of_ne_nil hw.ne_nil
  have hc : c ≠ '-' := by
    rintro rfl
    exact absurd (hw.digits '-' List.mem_cons_self) (by decide)
  -- the three things that are looked at: the sign, the first digit, and whether there is a fraction
  by_cases hzero : c = '0'
  · obtain ⟨rfl, rfl⟩ : c = '0' ∧ cs = [] := by simpa [hzero] using hw.head
    cases negative <;> rcases fraction with _ | ⟨_ | ⟨d, ds⟩⟩ <;> simp_all [number?, signText]
  · cases negative <;> rcases fraction with _ | ⟨_ | ⟨d, ds⟩⟩ <;> simp_all [number?, signText]

end Dossier.Json
