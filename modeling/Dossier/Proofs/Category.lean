import Mathlib
import Dossier.Category

/-!
The catalog lists every category once, so what has a category each can be sorted by it. Acceptance
and the passing of days: only a birth date is compared with the current day, and the day never goes
back; what was accepted once is accepted on every later day.
-/

namespace Dossier

namespace CivilDate

lemma notAfter_iff {a b : CivilDate} : a.notAfter b = true ↔
    a.year < b.year ∨ a.year = b.year ∧
      (a.month < b.month ∨ a.month = b.month ∧ a.day ≤ b.day) := by
  simp [notAfter]

lemma notAfter_refl (a : CivilDate) : a.notAfter a = true := by
  rw [notAfter_iff]
  omega

lemma notAfter_trans {a b c : CivilDate} (h : a.notAfter b = true) (h' : b.notAfter c = true) :
    a.notAfter c = true := by
  rw [notAfter_iff] at h h' ⊢
  omega

end CivilDate

namespace Category

lemma mem_all (c : Category) : c ∈ all := by cases c <;> decide

lemma nodup_all : all.Nodup := by decide

lemma named?_eq_some_iff {s : String} {c : Category} : named? s = some c ↔ s = c.name := by
  constructor
  · intro h
    rw [named?] at h
    have hname := List.find?_some h
    exact (beq_iff_eq.mp hname).symm
  · rintro rfl
    cases c <;> rfl

lemma parse_eq_ok_iff {s : String} {c : Category} :
    parse s = .ok c ↔ Text.lower (Text.trim s) = c.name := by
  rw [parse, ← named?_eq_some_iff]
  cases named? (Text.lower (Text.trim s)) <;> simp

lemma flatMap_filter_perm {α : Type} (f : α → Option Category) {l : List α}
    (h : ∀ a ∈ l, ∃ c, f a = some c) :
    (all.flatMap fun c => l.filter fun a => f a == some c).Perm l := by
  induction l with
  | nil => simp
  | cons a l ih =>
    obtain ⟨c₀, hc₀⟩ := h a List.mem_cons_self
    have hsplit : (fun c => (a :: l).filter fun a => f a == some c) = fun c =>
        (if c₀ = c then [a] else []) ++ l.filter fun a => f a == some c := by
      funext c
      by_cases hc : c₀ = c <;> simp [hc₀, hc]
    have hself : (all.flatMap fun c => if c₀ = c then [a] else []) = [a] := by cases c₀ <;> rfl
    rw [hsplit]
    refine (List.flatMap_append_perm _ _ _).symm.trans ?_
    rw [hself]
    exact (ih fun b hb => h b (List.mem_cons_of_mem a hb)).cons a

end Category

/-- **Acceptance lasts.** -/
theorem Category.accepts_later {c : Category} {v : Value} {today later : CivilDate}
    (h : c.accepts today v = true) (hd : today.notAfter later = true) :
    c.accepts later v = true := by
  cases c <;> cases v <;> first | exact h | exact CivilDate.notAfter_trans h hd

end Dossier
