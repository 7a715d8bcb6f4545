import Mathlib
import Dossier.Query
import Dossier.Proofs.Category
import Dossier.Proofs.SortedMap
import Dossier.Proofs.Session.Arrivals

/-!
Requirements as lists of thresholds. Whoever asks for thresholds one after the other is refused the
first that contradicts an earlier one of the same category; if there is none, the requirements hold
the first threshold of every category. They select those who attend the event and have for every
threshold an observation that reaches it.
-/

namespace Dossier

abbrev Threshold := Category × Reliability

namespace Threshold

/-- Of several thresholds of a category the first counts. -/
def first? (ts : List Threshold) (c : Category) : Option Reliability :=
  (ts.find? (·.1 == c)).map (·.2)

/-- What is wrong with a threshold after others. -/
def conflict? (earlier : List Threshold) (t : Threshold) : Option RequirementError :=
  (first? earlier t.1).bind fun existing =>
    if existing.value == t.2.value then none else some (.conflict t.1 existing.value t.2.value)

variable {ts : List Threshold} {t : Threshold} {c : Category}

lemma first?_eq_none_iff : first? ts c = none ↔ c ∉ ts.map (·.1) := by
  simp only [first?, Option.map_eq_none_iff, List.find?_eq_none, beq_iff_eq, List.mem_map,
    not_exists, not_and]

lemma first?_append (ts : List Threshold) (t : Threshold) (c : Category) :
    first? (ts ++ [t]) c = (first? ts c).or (if t.1 = c then some t.2 else none) := by
  simp only [first?, List.find?_append, List.find?_singleton, beq_iff_eq]
  cases ts.find? (·.1 == c) with
  | some a => rfl
  | none => by_cases h : t.1 = c <;> simp [h]

end Threshold

open Threshold (first? conflict?)

namespace Requirements

variable {q : Requirements} {ts : List Threshold} {t : Threshold}

/-- The requirements hold of each category the first of the thresholds. -/
def Holds (q : Requirements) (ts : List Threshold) : Prop :=
  ∀ c, q.thresholds.get? c = first? ts c

lemma holds_forEvent (event : Option String) : (forEvent event).Holds [] := fun _ => rfl

/-- **One threshold more** is refused or held. -/
lemma require_eq (h : q.Holds ts) (t : Threshold) :
    match conflict? ts t with
    | some e => q.require t.1 t.2.value = .error e
    | none =>
      ∃ q', q.require t.1 t.2.value = .ok q' ∧ q'.event = q.event ∧ q'.Holds (ts ++ [t]) := by
  simp only [require, Reliability.ofFloat?_value, conflict?, h t.1]
  cases hfirst : first? ts t.1 with
  | none =>
    refine ⟨_, rfl, rfl, fun c => ?_⟩
    rw [SortedMap.get?_insert, h c, Threshold.first?_append]
    by_cases hc : c = t.1
    · simp [hc, hfirst]
    · simp [hc, Ne.symm hc]
  | some existing =>
    simp only [Option.bind_some]
    by_cases heq : (existing.value == t.2.value) = true
    · simp only [heq, if_true]
      refine ⟨_, rfl, rfl, fun c => ?_⟩
      rw [h c, Threshold.first?_append]
      by_cases hc : t.1 = c
      · rw [← hc, hfirst, Option.some_or]
      · rw [if_neg hc, Option.or_none]
    · simp [heq]

lemma isEmpty_eq (h : q.Holds ts) : q.isEmpty = ts.isEmpty := by
  cases ts with
  | nil =>
    have hempty : q.thresholds = ∅ := SortedMap.ext_get? h
    rw [isEmpty, hempty]
    rfl
  | cons t ts =>
    have hfirst : q.thresholds.get? t.1 = some t.2 := by simp [h t.1, first?]
    rw [isEmpty, SortedMap.isEmpty, List.isEmpty_cons, List.isEmpty_eq_false_iff]
    exact List.ne_nil_of_mem ((q.thresholds.mem_toList_iff).mpr hfirst)

lemma size_eq (h : q.Holds ts) : q.size = (ts.map (·.1)).dedup.length := by
  have hperm : q.thresholds.keys.Perm (ts.map (·.1)).dedup := by
    rw [List.perm_ext_iff_of_nodup q.thresholds.nodup_keys (List.nodup_dedup _)]
    intro c
    rw [List.mem_dedup, SortedMap.mem_keys_iff, ← Option.isSome_iff_exists, h c,
      Option.isSome_iff_ne_none, Ne, Threshold.first?_eq_none_iff, not_not]
  rw [← hperm.length_eq, SortedMap.keys, List.length_map]
  rfl

/-! ### Thresholds that are asked for -/

section Demands

variable {ε : Type} (wrong : RequirementError → ε)

/-- What is wrong with a demand after others: it is none, or it contradicts them. -/
def complaint? (d : List (Except ε Threshold) × Except ε Threshold) : Option ε :=
  match d.2 with
  | .error e => some e
  | .ok t => (conflict? (d.1.filterMap Except.toOption) t).map wrong

/-- The first thing that is wrong with demands, after the demands `before`. -/
def objection? (before ds : List (Except ε Threshold)) : Option ε :=
  ((withEarlier before ds).filterMap (complaint? wrong)).head?

/-- Adds the threshold that is asked for. -/
def demand (q : Requirements) (d : Except ε Threshold) : Except ε Requirements :=
  match d with
  | .error e => .error e
  | .ok t => (q.require t.1 t.2.value).mapError wrong

lemma objection?_cons (before : List (Except ε Threshold)) (d : Except ε Threshold)
    (ds : List (Except ε Threshold)) : objection? wrong before (d :: ds) =
      (complaint? wrong (before, d)).or (objection? wrong (before ++ [d]) ds) := by
  simp only [objection?, withEarlier, List.filterMap_cons]
  cases complaint? wrong (before, d) <;> rfl

/-- **Demands one after the other** are refused with the first objection. If there is none, the
requirements hold all of them. -/
theorem foldlM_demand (before : List (Except ε Threshold))
    (h : q.Holds (before.filterMap Except.toOption)) (ds : List (Except ε Threshold)) :
    match objection? wrong before ds with
    | some e => ds.foldlM (demand wrong) q = .error e
    | none => ∃ q', ds.foldlM (demand wrong) q = .ok q' ∧ q'.event = q.event ∧
        q'.Holds ((before ++ ds).filterMap Except.toOption) := by
  induction ds generalizing q before with
  | nil => exact ⟨q, rfl, rfl, by rwa [List.append_nil]⟩
  | cons d ds ih =>
    rw [objection?_cons, List.foldlM_cons]
    cases d with
    | error e => rfl
    | ok t =>
      have hone := require_eq h t
      simp only [complaint?, demand]
      cases hconflict : conflict? (before.filterMap Except.toOption) t with
      | some e =>
        rw [hconflict] at hone
        rw [hone]
        rfl
      | none =>
        rw [hconflict] at hone
        obtain ⟨q', hq', hevent, hholds⟩ := hone
        have hbefore :
            q'.Holds ((before ++ [(.ok t : Except ε Threshold)]).filterMap Except.toOption) := by
          rw [List.filterMap_append]
          exact hholds
        have hrest := ih _ hbefore
        rw [List.append_assoc, List.singleton_append] at hrest
        rw [hq', Option.map_none, Option.none_or]
        show match objection? wrong (before ++ [.ok t]) ds with
          | some e => ds.foldlM (demand wrong) q' = .error e
          | none => ∃ q'', ds.foldlM (demand wrong) q' = .ok q'' ∧ q''.event = q.event ∧
              q''.Holds ((before ++ .ok t :: ds).filterMap Except.toOption)
        rwa [← hevent]

end Demands

/-! ### Who is selected -/

/-- **What it takes to be selected**: to attend the event asked for, and to have for every required
category an observation that reaches the threshold, under whatever key of that category. -/
structure Qualifies (q : Requirements) (r : Registry) (i : Individual) : Prop where
  attends : ∀ event, q.event = some event → i.event = some event
  observed : ∀ c min, q.thresholds.get? c = some min → ∃ k o, i.attributes.get? k = some o ∧
    r.resolve k = some c ∧ min.value ≤ o.reliability.value

lemma exists_categoryValues_iff {i : Individual} {r : Registry} {c : Category}
    {P : Observation → Prop} : (∃ o ∈ i.categoryValues r c, P o) ↔
      ∃ k o, i.attributes.get? k = some o ∧ r.resolve k = some c ∧ P o := by
  simp only [Individual.categoryValues, List.mem_map, List.mem_filter, Prod.exists,
    SortedMap.mem_toList_iff, beq_iff_eq]
  exact ⟨fun ⟨_, ⟨k, o, ⟨ho, hc⟩, rfl⟩, hP⟩ => ⟨k, o, ho, hc, hP⟩,
    fun ⟨k, o, ho, hc, hP⟩ => ⟨o, ⟨k, o, ⟨ho, hc⟩, rfl⟩, hP⟩⟩

lemma isMetBy_iff {q : Requirements} {r : Registry} {i : Individual} :
    q.isMetBy r i = true ↔ ∀ c min, q.thresholds.get? c = some min → ∃ k o,
      i.attributes.get? k = some o ∧ r.resolve k = some c ∧ min.value ≤ o.reliability.value := by
  simp only [isMetBy, List.all_eq_true, Prod.forall, SortedMap.mem_toList_iff, List.any_eq_true,
    Reliability.reaches, decide_eq_true_eq, exists_categoryValues_iff]

lemma qualifies_iff {q : Requirements} {r : Registry} {i : Individual} :
    (i.attends q.event && q.isMetBy r i) = true ↔ q.Qualifies r i := by
  rw [Bool.and_eq_true, Person.attends_iff, isMetBy_iff]
  exact ⟨fun h => ⟨h.1, h.2⟩, fun h => ⟨h.attends, h.observed⟩⟩

section Registries

variable {r r' : Registry} (h : ∀ k, r.resolve k = r'.resolve k)
include h

lemma isMetBy_congr (q : Requirements) (i : Individual) : q.isMetBy r i = q.isMetBy r' i := by
  simp only [isMetBy, Individual.categoryValues, h]

lemma qualifies_congr (q : Requirements) (i : Individual) : q.Qualifies r i ↔ q.Qualifies r' i := by
  rw [← qualifies_iff, ← qualifies_iff, isMetBy_congr h]

end Registries

instance (q : Requirements) (r : Registry) (i : Individual) : Decidable (q.Qualifies r i) :=
  decidable_of_iff _ qualifies_iff

/-- **Who is selected**: those who qualify. It is an error if something is required and nobody
does. -/
theorem select_eq (q : Requirements) (r : Registry) (is : List Individual) : q.select r is =
    if q.isEmpty = false ∧ is.filter (fun i => decide (q.Qualifies r i)) = [] then
      .error ⟨q.size, (is.filter fun i => i.attends q.event).length⟩
    else .ok (is.filter fun i => decide (q.Qualifies r i)) := by
  have hfound : (q.candidates is).filter (q.isMetBy r) =
      is.filter fun i => decide (q.Qualifies r i) := by
    rw [candidates, List.filter_filter]
    refine List.filter_congr fun i _ => ?_
    rw [Bool.and_comm, Bool.eq_iff_iff, qualifies_iff, decide_eq_true_iff]
  simp only [select, hfound, Bool.and_eq_true, Bool.not_eq_true', List.isEmpty_iff]
  rfl

/-! ### The answer to a query -/

/-- A category is required when there is a threshold for it, be it zero. -/
def Requires (q : Requirements) (c : Category) : Prop := ∃ min, q.thresholds.get? c = some min

/-- Candidates are those who attend the event asked for. -/
def Admits (q : Requirements) (i : Individual) : Prop :=
  ∀ event, q.event = some event → i.event = some event

instance (q : Requirements) (c : Category) : Decidable (q.Requires c) :=
  decidable_of_iff _ Option.isSome_iff_exists

instance (q : Requirements) (i : Individual) : Decidable (q.Admits i) :=
  decidable_of_iff _ Person.attends_iff

lemma length_candidates (q : Requirements) (is : List Individual) :
    (is.filter fun i => i.attends q.event).length = is.countP fun i => q.Admits i := by
  rw [List.countP_eq_length_filter]
  congr 2
  funext i
  rw [Bool.eq_iff_iff, decide_eq_true_iff, Person.attends_iff, Admits]

lemma isEmpty_eq_false_iff {q : Requirements} : q.isEmpty = false ↔ ∃ c, q.Requires c := by
  rw [isEmpty, SortedMap.isEmpty, List.isEmpty_eq_false_iff_exists_mem]
  exact (Prod.exists.trans (exists₂_congr fun _ _ => q.thresholds.mem_toList_iff))

lemma size_eq_countP (q : Requirements) : q.size = Category.all.countP fun c => q.Requires c := by
  have hperm : q.thresholds.keys.Perm (Category.all.filter fun c => q.Requires c) := by
    rw [List.perm_ext_iff_of_nodup q.thresholds.nodup_keys (Category.nodup_all.filter _)]
    intro c
    rw [SortedMap.mem_keys_iff, List.mem_filter, decide_eq_true_iff, Requires]
    exact (and_iff_right (Category.mem_all c)).symm
  rw [List.countP_eq_length_filter, ← hperm.length_eq, SortedMap.keys, List.length_map]
  rfl

/-- **The answer to a query.** It is refused when a category is required and no candidate
qualifies; the refusal tells how many categories are required, and how many candidates there are.
Else those who qualify are found, as they are and in their order. -/
structure Answers (q : Requirements) (r : Registry) (is : List Individual)
    (answer : Except Unsatisfiable (List Individual)) : Prop where
  refused_iff : ∀ e, answer = .error e ↔ (∃ c, q.Requires c) ∧ (∀ i ∈ is, ¬ q.Qualifies r i) ∧
    e = ⟨Category.all.countP fun c => q.Requires c, is.countP fun i => q.Admits i⟩
  found_iff : ∀ found, answer = .ok found ↔
    ((∃ c, q.Requires c) → ∃ i ∈ is, q.Qualifies r i) ∧
      found = is.filter fun i => q.Qualifies r i
  everyone : (∀ c, ¬ q.Requires c) → answer = .ok (is.filter fun i => q.Admits i)
  observed : ∀ found, answer = .ok found → ∀ i ∈ found, ∀ c, q.Requires c →
    ∃ k o, i.attributes.get? k = some o ∧ r.resolve k = some c

/-- Every query is answered so, by whatever registry and whoever is asked about. -/
theorem select_answers (q : Requirements) (r : Registry) (is : List Individual) :
    q.Answers r is (q.select r is) := by
  have hempty : q.isEmpty = false ∧ is.filter (fun i => decide (q.Qualifies r i)) = [] ↔
      (∃ c, q.Requires c) ∧ ∀ i ∈ is, ¬ q.Qualifies r i := by
    simp only [isEmpty_eq_false_iff, List.filter_eq_nil_iff, decide_eq_true_iff]
  rw [select_eq, length_candidates, size_eq_countP]
  by_cases hrefused : (∃ c, q.Requires c) ∧ ∀ i ∈ is, ¬ q.Qualifies r i
  · rw [if_pos (hempty.mpr hrefused)]
    refine ⟨fun e => ?_, fun found => ?_, ?_, ?_⟩
    · rw [Except.error.injEq, eq_comm, ← and_assoc, and_iff_right hrefused]
    · have hno : ¬ ((∃ c, q.Requires c) → ∃ i ∈ is, q.Qualifies r i) := by
        intro h
        obtain ⟨i, hi, hq⟩ := h hrefused.1
        exact hrefused.2 i hi hq
      simp only [reduceCtorEq, hno, false_and]
    · rintro hnone
      exact absurd hrefused.1 (not_exists.mpr hnone)
    · rintro found ⟨⟩
  · rw [if_neg (mt hempty.mp hrefused)]
    refine ⟨fun e => ?_, fun found => ?_, fun hnone => ?_, ?_⟩
    · rw [← and_assoc]
      simp [hrefused]
    · have hyes : (∃ c, q.Requires c) → ∃ i ∈ is, q.Qualifies r i := by
        intro hc
        by_contra h
        exact hrefused ⟨hc, fun i hi hq => h ⟨i, hi, hq⟩⟩
      rw [Except.ok.injEq, eq_comm, and_iff_right hyes]
    · refine congrArg Except.ok (List.filter_congr fun i _ => ?_)
      rw [decide_eq_decide]
      exact ⟨fun h => h.attends, fun h => ⟨h, fun c min hc => absurd ⟨min, hc⟩ (hnone c)⟩⟩
    · rintro found ⟨⟩ i hi c ⟨min, hc⟩
      have hq : q.Qualifies r i := by simpa using (List.mem_filter.mp hi).2
      obtain ⟨k, o, hk, hkc, -⟩ := hq.observed c min hc
      exact ⟨k, o, hk, hkc⟩

end Requirements

end Dossier
