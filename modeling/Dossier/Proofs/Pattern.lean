import Dossier.Text.Pattern
import Mathlib.Computability.Language

/-!
The languages of patterns. A pattern stands for a set of texts, put together as its parts are put
together; matching by partial derivatives finds exactly the texts of that set. For the shapes that
patterns are mostly made of, runs of characters of one class, the set is said directly.
-/

namespace Dossier.Text.Pattern

/-- The texts that a pattern stands for. -/
def language : Pattern → Language Char
  | empty => 1
  | one k => {cs | ∃ c, k.contains c = true ∧ cs = [c]}
  | seq p q => p.language * q.language
  | alt p q => p.language + q.language
  | star p => KStar.kstar p.language

variable {p q r : Pattern} {k : CharClass} {c : Char} {cs : List Char}

lemma mem_one : cs ∈ (one k).language ↔ ∃ c, k.contains c = true ∧ cs = [c] := Iff.rfl

lemma mem_seq : cs ∈ (seq p q).language ↔ ∃ a ∈ p.language, ∃ b ∈ q.language, a ++ b = cs :=
  Language.mem_mul

lemma mem_alt : cs ∈ (alt p q).language ↔ cs ∈ p.language ∨ cs ∈ q.language := Iff.rfl

lemma nullable_iff (p : Pattern) : p.nullable = true ↔ [] ∈ p.language := by
  induction p with
  | empty => simp [nullable, language]
  | one k => simp [nullable, mem_one]
  | seq p q ihp ihq => simp [nullable, mem_seq, ihp, ihq]
  | alt p q ihp ihq => simp [nullable, mem_alt, ihp, ihq]
  | star p => simp [nullable, language, Language.nil_mem_kstar]

/-! ### Partial derivatives -/

lemma cons_mem_seq : c :: cs ∈ (seq p q).language ↔
    (∃ a b, c :: a ∈ p.language ∧ b ∈ q.language ∧ a ++ b = cs) ∨
      [] ∈ p.language ∧ c :: cs ∈ q.language := by
  rw [mem_seq]
  constructor
  · rintro ⟨a, ha, b, hb, hab⟩
    cases a with
    | nil =>
      obtain rfl : b = c :: cs := hab
      exact .inr ⟨ha, hb⟩
    | cons d a =>
      obtain ⟨rfl, rfl⟩ := List.cons.inj hab
      exact .inl ⟨a, b, ha, hb, rfl⟩
  · rintro (⟨a, b, ha, hb, rfl⟩ | ⟨ha, hb⟩)
    · exact ⟨c :: a, ha, b, hb, rfl⟩
    · exact ⟨[], ha, c :: cs, hb, rfl⟩

/-- A repetition that is not empty starts with a text of what is repeated that is not empty. -/
lemma cons_mem_star : c :: cs ∈ (star p).language ↔
    ∃ a b, c :: a ∈ p.language ∧ b ∈ (star p).language ∧ a ++ b = cs := by
  constructor
  · intro h
    obtain ⟨S, hS, hall⟩ := Language.mem_kstar_iff_exists_nonempty.mp h
    cases S with
    | nil => cases hS
    | cons a S =>
      obtain ⟨⟨ha, hne⟩, hrest⟩ := List.forall_mem_cons.mp hall
      obtain ⟨d, a, rfl⟩ := List.exists_cons_of_ne_nil hne
      obtain ⟨rfl, rfl⟩ := List.cons.inj hS
      exact ⟨a, S.flatten, ha, Language.join_mem_kstar fun y hy => (hrest y hy).1, rfl⟩
  · rintro ⟨a, b, ha, ⟨S, rfl, hS⟩, rfl⟩
    exact ⟨(c :: a) :: S, rfl, List.forall_mem_cons.mpr ⟨ha, hS⟩⟩

lemma exists_map_seq_iff
    (h : ∀ cs, (∃ p' ∈ p.partials c, cs ∈ p'.language) ↔ c :: cs ∈ p.language) :
    (∃ r ∈ (p.partials c).map (seq · q), cs ∈ r.language) ↔
      ∃ a b, c :: a ∈ p.language ∧ b ∈ q.language ∧ a ++ b = cs := by
  simp only [List.mem_map, ← h]
  constructor
  · rintro ⟨_, ⟨p', hp', rfl⟩, hcs⟩
    obtain ⟨a, ha, b, hb, rfl⟩ := mem_seq.mp hcs
    exact ⟨a, b, ⟨p', hp', ha⟩, hb, rfl⟩
  · rintro ⟨a, b, ⟨p', hp', ha⟩, hb, rfl⟩
    exact ⟨_, ⟨p', hp', rfl⟩, mem_seq.mpr ⟨a, ha, b, hb, rfl⟩⟩

/-- **The partial derivatives** stand for what may follow a character, all together. -/
lemma exists_partials_iff (p : Pattern) (c : Char) (cs : List Char) :
    (∃ p' ∈ p.partials c, cs ∈ p'.language) ↔ c :: cs ∈ p.language := by
  induction p generalizing cs with
  | empty => simp [partials, language]
  | one k =>
    have hself : c :: cs ∈ (one k).language ↔ k.contains c = true ∧ cs = [] := by
      simp [mem_one]
    rw [hself, partials]
    split <;> simp_all [language]
  | seq p q ihp ihq =>
    rw [cons_mem_seq, ← exists_map_seq_iff ihp, ← nullable_iff, ← ihq]
    simp only [partials, List.mem_append, or_and_right, exists_or]
    refine or_congr_right ?_
    split <;> simp_all
  | alt p q ihp ihq =>
    simp only [mem_alt, ← ihp, ← ihq, partials, List.mem_append, or_and_right, exists_or]
  | star p ih => rw [cons_mem_star, ← exists_map_seq_iff ih, partials]

/-! ### Matching -/

lemma exists_step_iff (ps : List Pattern) (c : Char) (cs : List Char) :
    (∃ q ∈ step ps c, cs ∈ q.language) ↔ ∃ p ∈ ps, c :: cs ∈ p.language := by
  simp only [step, List.mem_eraseDups, List.mem_flatMap, ← exists_partials_iff]
  constructor
  · rintro ⟨q, ⟨p, hp, hq⟩, hcs⟩
    exact ⟨p, hp, q, hq, hcs⟩
  · rintro ⟨p, hp, q, hq, hcs⟩
    exact ⟨q, ⟨p, hp, hq⟩, hcs⟩

lemma foldl_step_iff (ps : List Pattern) (cs : List Char) :
    (cs.foldl step ps).any nullable = true ↔ ∃ p ∈ ps, cs ∈ p.language := by
  induction cs generalizing ps with
  | nil => simp [nullable_iff]
  | cons c cs ih => rw [List.foldl_cons, ih, exists_step_iff]

/-- **A text matches a pattern** if and only if it is in its language. -/
theorem matchesAll_iff (p : Pattern) (cs : List Char) :
    p.matchesAll cs = true ↔ cs ∈ p.language := by
  rw [matchesAll, foldl_step_iff]
  simp

/-! ### Runs of characters -/

lemma mem_char {a : Char} : cs ∈ (char a).language ↔ cs = [a] := by
  simp [char, mem_one, CharClass.contains]

lemma mem_optional : cs ∈ (optional p).language ↔ cs ∈ p.language ∨ cs = [] := Iff.rfl

lemma mem_star_one : cs ∈ (star (one k)).language ↔ ∀ c ∈ cs, k.contains c = true := by
  induction cs with
  | nil => exact ⟨fun _ => by simp, fun _ => Language.nil_mem_kstar _⟩
  | cons c cs ih =>
    rw [cons_mem_star, List.forall_mem_cons, ← ih]
    simp [mem_one]

lemma mem_seq_one : cs ∈ (seq (one k) q).language ↔
    ∃ c rest, cs = c :: rest ∧ k.contains c = true ∧ rest ∈ q.language := by
  simp only [mem_seq, mem_one]
  constructor
  · rintro ⟨_, ⟨c, hc, rfl⟩, rest, hrest, rfl⟩
    exact ⟨c, rest, rfl, hc, hrest⟩
  · rintro ⟨c, rest, rfl, hc, hrest⟩
    exact ⟨[c], ⟨c, hc, rfl⟩, rest, hrest, rfl⟩

lemma mem_plus_one : cs ∈ (plus (one k)).language ↔ cs ≠ [] ∧ ∀ c ∈ cs, k.contains c = true := by
  rw [plus, mem_seq_one]
  cases cs with
  | nil => simp
  | cons c cs => simp [mem_star_one]

lemma mem_atLeast_one (n : ℕ) :
    cs ∈ (atLeast n (one k)).language ↔ n ≤ cs.length ∧ ∀ c ∈ cs, k.contains c = true := by
  induction n generalizing cs with
  | zero => simp [atLeast, mem_star_one]
  | succ n ih =>
    rw [atLeast, mem_seq_one]
    cases cs with
    | nil => simp
    | cons c cs => simp [ih, and_left_comm]

end Dossier.Text.Pattern
