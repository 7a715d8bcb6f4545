import Mathlib
import Dossier.Metrics

/-!
What a recorder holds of one series. Of all that was measured only the events on that series matter,
in their order: a counter holds their sum, a gauge the last of them, a histogram each of them. A
series without an event is not there.
-/

namespace Dossier

/-- A list, unless there is nothing in it. -/
def nonempty? {α : Type} (xs : List α) : Option (List α) := if xs.isEmpty then none else some xs

lemma nonempty?_map {α β : Type} (f : α → β) (xs : List α) :
    nonempty? (xs.map f) = (nonempty? xs).map (List.map f) := by
  cases xs <;> rfl

namespace Measurement

def series : Measurement → Series
  | add s _ => s
  | set s _ => s
  | sample s _ => s

/-- What is added to the counter `s`. -/
def added? (s : Series) : Measurement → Option ℕ
  | add t amount => if t = s then some amount else none
  | _ => none

/-- The value to which the gauge `s` is set. -/
def assigned? (s : Series) : Measurement → Option Float
  | set t value => if t = s then some value else none
  | _ => none

/-- The value that the histogram `s` is given. -/
def sampled? (s : Series) : Measurement → Option Float
  | sample t value => if t = s then some value else none
  | _ => none

variable {s : Series} {m : Measurement}

lemma added?_of_ne (h : m.series ≠ s) : m.added? s = none := by
  cases m with
  | add t amount => exact if_neg h
  | set | sample => rfl

lemma assigned?_of_ne (h : m.series ≠ s) : m.assigned? s = none := by
  cases m with
  | set t value => exact if_neg h
  | add | sample => rfl

lemma sampled?_of_ne (h : m.series ≠ s) : m.sampled? s = none := by
  cases m with
  | sample t value => exact if_neg h
  | add | set => rfl

end Measurement

namespace Recorder

def counter? (r : Recorder) (s : Series) : Option ℕ := r.counters.lookup s

def gauge? (r : Recorder) (s : Series) : Option Float := r.gauges.lookup s

def samples? (r : Recorder) (s : Series) : Option (List Float) := r.histograms.lookup s

structure Lacks (r : Recorder) (s : Series) : Prop where
  counter : r.counter? s = none
  gauge : r.gauge? s = none
  samples : r.samples? s = none

lemma lookup_cons {α : Type} (t u : Series) (a : α) (l : List (Series × α)) :
    ((u, a) :: l).lookup t = if t = u then some a else l.lookup t := by
  by_cases h : t = u
  · simp [h]
  · simp [List.lookup_cons, beq_false_of_ne h, h]

lemma lookup_change {α : Type} (s t : Series) (initial : α) (f : α → α) (l : List (Series × α)) :
    (change s initial f l).lookup t =
      if s = t then some (f ((l.lookup t).getD initial)) else l.lookup t := by
  induction l with
  | nil => simp [change, lookup_cons, eq_comm]
  | cons p l ih =>
    obtain ⟨u, a⟩ := p
    by_cases hu : u = s
    · by_cases ht : s = t
      · simp [change, hu, ht]
      · simp [change, lookup_cons, hu, ht, Ne.symm ht]
    · by_cases ht : t = u
      · simp [change, hu, ht, Ne.symm hu]
      · simp [change, lookup_cons, hu, ht, ih]

/-- The events on a series come one after the other, whatever is recorded between them. -/
lemma lookup_foldl {α β : Type} (table : Recorder → List (Series × α))
    (event? : Measurement → Option β) (next : Option α → β → α) {s : Series}
    (hstep : ∀ r m, (table (r.record m)).lookup s =
      (event? m).elim ((table r).lookup s) fun b => some (next ((table r).lookup s) b))
    (ms : List Measurement) (r : Recorder) :
    (table (ms.foldl record r)).lookup s =
      (ms.filterMap event?).foldl (fun o b => some (next o b)) ((table r).lookup s) := by
  induction ms generalizing r with
  | nil => rfl
  | cons m ms ih =>
    rw [List.foldl_cons, ih, hstep]
    cases hm : event? m <;> simp [hm]

lemma foldl_sum (ns : List ℕ) (n : ℕ) :
    ns.foldl (fun o m => some (o.getD 0 + m)) (some n) = some (n + ns.sum) := by
  induction ns generalizing n with
  | nil => rfl
  | cons m ns ih => rw [List.foldl_cons, Option.getD_some, ih, List.sum_cons, add_assoc]

lemma foldl_last (xs : List Float) (o : Option Float) :
    xs.foldl (fun _ x => some x) o = xs.getLast?.or o := by
  induction xs generalizing o with
  | nil => rfl
  | cons x xs ih =>
    rw [List.foldl_cons, ih, List.getLast?_cons]
    cases xs.getLast? <;> rfl

lemma foldl_snoc (xs ys : List Float) :
    xs.foldl (fun o x => some (o.getD [] ++ [x])) (some ys) = some (ys ++ xs) := by
  induction xs generalizing ys with
  | nil => simp
  | cons x xs ih => rw [List.foldl_cons, Option.getD_some, ih, List.append_assoc]; rfl

variable (ms : List Measurement) (s : Series)

/-- **A counter holds the sum** of what was added to it. -/
theorem counter?_ofList :
    (ofList ms).counter? s = (nonempty? (ms.filterMap (·.added? s))).map List.sum := by
  have hfold := lookup_foldl (s := s) counters (·.added? s) (fun o n => o.getD 0 + n) (fun r m => by
    cases m with
    | set | sample => rfl
    | add t amount =>
      rw [record, lookup_change]
      by_cases h : t = s <;> simp [Measurement.added?, h]) ms empty
  refine hfold.trans ?_
  cases ms.filterMap (·.added? s) with
  | nil => rfl
  | cons n ns => exact (foldl_sum ns _).trans (by simp [empty, nonempty?])

/-- **A gauge holds the last value** to which it was set. -/
theorem gauge?_ofList : (ofList ms).gauge? s = (ms.filterMap (·.assigned? s)).getLast? := by
  have hfold := lookup_foldl (s := s) gauges (·.assigned? s) (fun _ x => x) (fun r m => by
    cases m with
    | add | sample => rfl
    | set t value =>
      rw [record, lookup_change]
      by_cases h : t = s <;> simp [Measurement.assigned?, h]) ms empty
  refine hfold.trans ((foldl_last _ _).trans ?_)
  exact Option.or_none

/-- **A histogram holds every value** that it was given, in their order. -/
theorem samples?_ofList : (ofList ms).samples? s = nonempty? (ms.filterMap (·.sampled? s)) := by
  have hfold := lookup_foldl (s := s) histograms (·.sampled? s) (fun o x => o.getD [] ++ [x])
    (fun r m => by
      cases m with
      | add | set => rfl
      | sample t value =>
        rw [record, lookup_change]
        by_cases h : t = s <;> simp [Measurement.sampled?, h]) ms empty
  refine hfold.trans ?_
  cases ms.filterMap (·.sampled? s) with
  | nil => rfl
  | cons x xs => exact foldl_snoc xs _

structure AgreeOn (r r' : Recorder) (s : Series) : Prop where
  counter : r.counter? s = r'.counter? s
  gauge : r.gauge? s = r'.gauge? s
  samples : r.samples? s = r'.samples? s

variable {ms s} {ms' : List Measurement}

/-- Only the events on a series matter to what is held of it. -/
theorem agreeOn_of_filter (h : ms.filter (·.series = s) = ms'.filter (·.series = s)) :
    AgreeOn (ofList ms) (ofList ms') s := by
  have hsame {β : Type} {event? : Measurement → Option β}
      (hevent : ∀ m : Measurement, m.series ≠ s → event? m = none) :
      ms.filterMap event? = ms'.filterMap event? := by
    have hfilter (ms : List Measurement) :
        (ms.filter (·.series = s)).filterMap event? = ms.filterMap event? := by
      rw [List.filterMap_filter]
      refine List.filterMap_congr fun m _ => ?_
      by_cases hm : m.series = s
      · simp [hm]
      · simp [hm, hevent m hm]
    rw [← hfilter ms, h, hfilter ms']
  refine ⟨?_, ?_, ?_⟩
  · rw [counter?_ofList, counter?_ofList, hsame fun _ => Measurement.added?_of_ne]
  · rw [gauge?_ofList, gauge?_ofList, hsame fun _ => Measurement.assigned?_of_ne]
  · rw [samples?_ofList, samples?_ofList, hsame fun _ => Measurement.sampled?_of_ne]

lemma lacks_ofList (h : ∀ m ∈ ms, m.series ≠ s) : (ofList ms).Lacks s := by
  have hnone : ms.filter (·.series = s) = [].filter (·.series = s) := by simpa using h
  have hempty := agreeOn_of_filter hnone
  exact ⟨hempty.counter, hempty.gauge, hempty.samples⟩

end Recorder

end Dossier
