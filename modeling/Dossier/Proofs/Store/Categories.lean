import Mathlib
import Dossier.Proofs.Requirements
import Dossier.Proofs.Store.LastWrite
import Dossier.Proofs.Writer.Request

/-!
A store by categories. Whatever is called on a store, every key in it is declared; so the
categories part the observations of an individual among them, and the store and its snapshots tell
the same of each category. Whom a query finds among the individuals can be read from the store.
-/

namespace Dossier

/-- The observations of an individual in one category, with their keys. -/
def Individual.categoryEntries (i : Individual) (r : Registry) (c : Category) :
    List (Key × Observation) :=
  i.attributes.toList.filter fun e => r.resolve e.1 == some c

lemma Individual.categoryValues_eq (i : Individual) (r : Registry) (c : Category) :
    i.categoryValues r c = (i.categoryEntries r c).map (·.2) := rfl

lemma Individual.mem_categoryEntries_iff {i : Individual} {r : Registry} {c : Category} {k : Key}
    {o : Observation} :
    (k, o) ∈ i.categoryEntries r c ↔ i.attributes.get? k = some o ∧ r.resolve k = some c := by
  rw [categoryEntries, List.mem_filter, SortedMap.mem_toList_iff, beq_iff_eq]

namespace Store

variable {r : Registry} {s s' : Store} {id : Uuid} {e : Entry}

/-! ### Every key is declared -/

/-- The stores that calls lead to, each call on whatever day. Any supply of identifiers and any
writer may come with a call, in whatever state; what is refused counts as a call too. -/
inductive Built (r : Registry) : Store → Prop where
  | start : Built r (ofRegistry r)
  | add {s : Store} (h : Built r s) (ids : IdSupply) (i : Individual) :
      Built r (addStep (s, ids) i).1.1
  | put {s : Store} (h : Built r s) (w : CivilDate × Write) : Built r (putStep s w).1
  | call {s : Store} (h : Built r s) (w : Writer) (today : CivilDate) (call : WriterCall) :
      Built r (w.perform s today call).store

/-- The identifiers are distinct, and whatever is held has a category. -/
structure Filed (r : Registry) (s : Store) : Prop where
  registry : s.registry = r
  nodup : s.ids.Nodup
  declared : ∀ e ∈ s.entries, ∀ k o, e.attributes.get? k = some o → ∃ c, r.resolve k = some c

lemma filed_ofRegistry (r : Registry) : Filed r (ofRegistry r) :=
  ⟨rfl, List.nodup_nil, by simp [ofRegistry]⟩

lemma Filed.add (h : Filed r s) (ids : IdSupply) (i : Individual) :
    Filed r (addStep (s, ids) i).1.1 := by
  rw [addStep_eq]
  split
  · exact h
  · next hnew =>
    refine ⟨h.registry, nodup_ids_concat h.nodup hnew i.toPerson, fun e he k o ho => ?_⟩
    rcases List.mem_append.mp he with he | he
    · exact h.declared e he k o ho
    · obtain rfl := List.mem_singleton.mp he
      simp at ho

lemma Filed.write (h : Filed r s) {today : CivilDate} {w : Write}
    (hw : s.write today w = .ok s') : Filed r s' := by
  obtain ⟨c, hc, -, -, rfl⟩ := put_ok hw
  refine ⟨h.registry, (s.ids_update _ _).symm ▸ h.nodup, fun e' he' k o ho => ?_⟩
  obtain ⟨e, he, rfl⟩ := List.mem_map.mp he'
  by_cases hk : k = w.key
  · subst hk
    exact ⟨c, h.registry ▸ hc⟩
  · refine h.declared e he k o ?_
    split at ho
    · exact (SortedMap.get?_insert_of_ne _ hk _).symm.trans ho
    · exact ho

/-- Whatever is called on a store, every key in it is declared. -/
theorem Built.filed (h : Built r s) : Filed r s := by
  induction h with
  | start => exact filed_ofRegistry r
  | add _ ids i ih => exact ih.add ids i
  | put _ w ih =>
    unfold putStep
    split
    · exact ih
    · next hw => exact ih.write hw
  | @call s _ w today call ih =>
    rcases w.store_perform_cases s today call with hs | ⟨a, -, ha⟩
    · rw [hs]
      exact ih
    · exact ih.write ha

/-! ### Two views of an individual -/

/-- **The store and the snapshot of an individual agree** on every category: both list the
observations under the keys of the category, in the order of the keys. The lists of all categories
together hold every observation of the individual once. -/
structure Views (s : Store) (id : Uuid) (i : Individual) : Prop where
  same : ∀ c, s.categoryValues id c = i.categoryValues s.registry c
  increasing : ∀ c, Increasing (i.categoryEntries s.registry c)
  listed : ∀ c k o, (k, o) ∈ i.categoryEntries s.registry c ↔
    s.get? id k = some o ∧ s.registry.resolve k = some c
  parted : (Category.all.flatMap (i.categoryEntries s.registry)).Perm i.attributes.toList
  counted : (Category.all.map fun c => (s.categoryValues id c).length).sum = s.attributeCount id

lemma categoryValues_of_find? (h : s.find? id = some e) (c : Category) :
    s.categoryValues id c = e.individual.categoryValues s.registry c := by
  rw [categoryValues, h]
  rfl

/-- As every key has one category, the categories part what is known of an individual. -/
theorem Filed.views (h : Filed r s) (hf : s.find? id = some e) :
    Views s id e.individual := by
  have hparted : (Category.all.flatMap (e.individual.categoryEntries s.registry)).Perm
      e.individual.attributes.toList := by
    refine Category.flatMap_filter_perm (fun a : Key × Observation => s.registry.resolve a.1)
      fun ⟨k, o⟩ ha => ?_
    rw [h.registry]
    exact h.declared e (mem_of_find? hf).1 k o (e.attributes.mem_toList_iff.mp ha)
  refine ⟨categoryValues_of_find? hf, fun c => e.attributes.increasing.filter _, fun c k o => ?_,
    hparted, ?_⟩
  · rw [Individual.mem_categoryEntries_iff, get?, hf]
    rfl
  · have hlength := hparted.length_eq
    rw [List.length_flatMap] at hlength
    simp only [categoryValues_of_find? hf, Individual.categoryValues_eq, List.length_map]
    rw [hlength, attributeCount, hf]
    rfl

/-! ### Queries -/

/-- An individual of the store meets requirements when each required category has a value that is
reliable enough. -/
def Meets (s : Store) (q : Requirements) (id : Uuid) : Prop :=
  ∀ c min, q.thresholds.get? c = some min →
    ∃ o ∈ s.categoryValues id c, min.value ≤ o.reliability.value

instance (s : Store) (q : Requirements) (id : Uuid) : Decidable (s.Meets q id) :=
  decidable_of_iff (∀ t ∈ q.thresholds.toList, ∃ o ∈ s.categoryValues id t.1,
      t.2.value ≤ o.reliability.value) <| by
    simp only [Prod.forall, SortedMap.mem_toList_iff, Meets]

/-- Those of the store who meet requirements and attend the event asked for, in the order in which
they came in. -/
def chosen (s : Store) (q : Requirements) : List Individual :=
  ((s.ids.filter fun id => s.Meets q id).filterMap s.snapshot?).filter fun i => q.Admits i

/-- What a query is answered: it is an error if something is required and nobody is chosen. -/
def answer (s : Store) (q : Requirements) : Except Unsatisfiable (List Individual) :=
  if q.isEmpty = false ∧ s.chosen q = [] then
    .error ⟨q.size, s.individuals.countP fun i => q.Admits i⟩
  else .ok (s.chosen q)

lemma qualifies_iff_meets (q : Requirements) (hf : s.find? id = some e) :
    q.Qualifies s.registry e.individual ↔ q.Admits e.individual ∧ s.Meets q id := by
  simp only [Meets, categoryValues_of_find? hf, Requirements.exists_categoryValues_iff]
  exact ⟨fun h => ⟨h.attends, h.observed⟩, fun h => ⟨h.1, h.2⟩⟩

lemma Filed.filter_individuals (h : Filed r s) (q : Requirements) :
    (s.individuals.filter fun i => q.Qualifies s.registry i) = s.chosen q := by
  have hfind : ∀ e ∈ s.entries, s.find? e.id = some e := fun e he => find?_of_mem h.nodup he
  have hsnapshots : (s.ids.filter fun id => s.Meets q id).filterMap s.snapshot? =
      (s.entries.filter fun e => s.Meets q e.id).map (·.individual) := by
    rw [Store.ids, List.filter_map, List.filterMap_map, ← List.filterMap_eq_map]
    refine List.filterMap_congr fun e he => ?_
    simp [snapshot?, hfind e (List.mem_filter.mp he).1]
  rw [chosen, hsnapshots, individuals, List.filter_map, List.filter_map, List.filter_filter]
  refine congrArg _ (List.filter_congr fun e he => ?_)
  simp [qualifies_iff_meets q (hfind e he)]

/-- A query to the individuals of a store is answered by what the store shows. -/
theorem Filed.select_eq (h : Filed r s) (q : Requirements) :
    q.select s.registry s.individuals = s.answer q := by
  rw [Requirements.select_eq, h.filter_individuals, Requirements.length_candidates]
  rfl

end Store

end Dossier
