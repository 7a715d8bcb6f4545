import Mathlib.Tactic.Lemma

/-!
Histories of calls. A history pairs each call with its answer; what holds before the first call and
is kept by every call, whatever it is answered, holds with the whole history.
-/

namespace Dossier

variable {σ α β : Type}

/-- Calls one after the other: the state after them, and each call with its answer. -/
def history (step : σ → α → σ × β) (s : σ) : List α → σ × List (α × β)
  | [] => (s, [])
  | a :: as =>
    let (s, b) := step s a
    let (s, log) := history step s as
    (s, (a, b) :: log)

lemma history_cons (step : σ → α → σ × β) (s : σ) (a : α) (as : List α) :
    history step s (a :: as) =
      ((history step (step s a).1 as).1, (a, (step s a).2) :: (history step (step s a).1 as).2) :=
  rfl

lemma history_append (step : σ → α → σ × β) (s : σ) (as bs : List α) :
    history step s (as ++ bs) =
      ((history step (history step s as).1 bs).1,
        (history step s as).2 ++ (history step (history step s as).1 bs).2) := by
  induction as generalizing s with
  | nil => rfl
  | cons a as ih => simp [history_cons, ih]

lemma map_fst_history (step : σ → α → σ × β) (s : σ) (as : List α) :
    (history step s as).2.map (·.1) = as := by
  induction as generalizing s with
  | nil => rfl
  | cons a as ih => rw [history_cons, List.map_cons, ih]

/-- **Invariants of histories**: kept by every call, they hold of every run. -/
theorem history_inv {step : σ → α → σ × β} {s : σ} (I : σ → List (α × β) → Prop) (h₀ : I s [])
    (hstep : ∀ s log a, I s log → I (step s a).1 (log ++ [(a, (step s a).2)])) (as : List α) :
    I (history step s as).1 (history step s as).2 := by
  have key : ∀ s log, I s log → I (history step s as).1 (log ++ (history step s as).2) := by
    induction as with
    | nil => intro s log h; simpa [history] using h
    | cons a as ih =>
      intro s log h
      have h' := ih _ _ (hstep s log a h)
      simpa [history_cons] using h'
  simpa using key s [] h₀

/-- **Simulation of histories**: systems that answer every call alike and stay related have the same
history. -/
theorem history_same {τ : Type} {step : σ → α → σ × β} {step' : τ → α → τ × β} {R : σ → τ → Prop}
    (hstep : ∀ s t a, R s t → (step s a).2 = (step' t a).2 ∧ R (step s a).1 (step' t a).1) {s : σ}
    {t : τ} (h : R s t) (as : List α) :
    (history step s as).2 = (history step' t as).2 ∧
      R (history step s as).1 (history step' t as).1 := by
  induction as generalizing s t with
  | nil => exact ⟨rfl, h⟩
  | cons a as ih =>
    obtain ⟨hanswer, hfirst⟩ := hstep s t a h
    obtain ⟨hlog, hlast⟩ := ih hfirst
    rw [history_cons, history_cons, hanswer, hlog]
    exact ⟨rfl, hlast⟩

lemma filterMap_concat (f : α → Option β) (as : List α) (a : α) :
    (as ++ [a]).filterMap f = as.filterMap f ++ (f a).toList := by
  rw [List.filterMap_append]
  cases h : f a <;> simp [h]

/-- The calls that were not answered by an error, and what they returned. -/
def accepted {ε ρ : Type} (log : List (α × Except ε ρ)) : List (α × ρ) :=
  log.filterMap fun e => e.2.toOption.map fun r => (e.1, r)

lemma accepted_append {ε ρ : Type} (log log' : List (α × Except ε ρ)) :
    accepted (log ++ log') = accepted log ++ accepted log' := by
  simp [accepted]

@[simp] lemma accepted_ok {ε ρ : Type} (a : α) (r : ρ) :
    accepted [((a, .ok r) : α × Except ε ρ)] = [(a, r)] := rfl

@[simp] lemma accepted_error {ε ρ : Type} (a : α) (e : ε) :
    accepted [((a, .error e) : α × Except ε ρ)] = [] := rfl

end Dossier
