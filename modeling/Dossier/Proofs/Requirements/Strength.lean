import Mathlib
import Dossier.Proofs.Requirements.Asking

/-!
Requirements by their strength. Requirements with lower thresholds, and fewer of them, are met by
whoever meets the stronger ones, and by whoever is known better. So a stronger query finds some of
those whom a weaker one finds, and to meet two sets of requirements is to meet their union.
-/

namespace Dossier

namespace Individual

/-- What is known of one individual is known of another, and relied on no less. -/
def KnownIn (i i' : Individual) : Prop :=
  ∀ k o, i.attributes.get? k = some o →
    ∃ o', i'.attributes.get? k = some o' ∧ o.reliability.value ≤ o'.reliability.value

/-- An individual of whom something is observed, instead of what was observed before. -/
def observe (i : Individual) (k : Key) (o : Observation) : Individual :=
  { i with attributes := i.attributes.insert k o }

variable {i : Individual} {k : Key} {o : Observation}

lemma KnownIn.refl (i : Individual) : i.KnownIn i :=
  fun _ o ho => ⟨o, ho, (Reliability.Same.refl _).le⟩

lemma knownIn_observe (h : ∀ o₀, i.attributes.get? k = some o₀ →
    o₀.reliability.value ≤ o.reliability.value) : i.KnownIn (i.observe k o) := by
  intro a o₀ ho₀
  by_cases ha : a = k
  · subst ha
    exact ⟨o, by simp [observe, SortedMap.get?_insert], h o₀ ho₀⟩
  · refine ⟨o₀, ?_, (Reliability.Same.refl _).le⟩
    rw [observe, SortedMap.get?_insert_of_ne _ ha, ho₀]

end Individual

namespace Requirements

/-- Every threshold is also required by the others, at least as high. -/
def Under (q q' : Requirements) : Prop :=
  ∀ c t, q.thresholds.get? c = some t →
    ∃ t', q'.thresholds.get? c = some t' ∧ t.value ≤ t'.value

/-- The stronger requirements ask for the same event, if one is asked for, and have higher
thresholds, or more of them. -/
structure Weaker (q q' : Requirements) : Prop where
  event : ∀ e, q.event = some e → q'.event = some e
  under : q.Under q'

/-- No category is required at two different thresholds. -/
def Compatible (q₁ q₂ : Requirements) : Prop :=
  ∀ c t₁ t₂, q₁.thresholds.get? c = some t₁ → q₂.thresholds.get? c = some t₂ → t₁.Same t₂

/-- The union of requirements: what either requires, at a threshold that it is required at. -/
structure Unites (q q₁ q₂ : Requirements) : Prop where
  requires_iff : ∀ c, q.Requires c ↔ q₁.Requires c ∨ q₂.Requires c
  held : ∀ c t, q.thresholds.get? c = some t →
    q₁.thresholds.get? c = some t ∨ q₂.thresholds.get? c = some t

def requests (q : Requirements) : List (Category × Float) :=
  q.thresholds.toList.map fun t => (t.1, t.2.value)

/-- Requires a category at a threshold, whatever it was required at before. -/
def raise (q : Requirements) (c : Category) (t : Reliability) : Requirements :=
  { q with thresholds := q.thresholds.insert c t }

/-- Who is found; nobody, if the query is refused. -/
def found (q : Requirements) (r : Registry) (is : List Individual) : List Individual :=
  (q.select r is).toOption.getD []

variable {q q' q₁ q₂ : Requirements} {r : Registry} {i i' : Individual} {c : Category}
  {t : Reliability}

/-! ### Who meets requirements -/

/-- **Requirements are monotone**, in what is required and in what is known. -/
theorem isMetBy_mono (hq : q.Under q') (hi : i.KnownIn i') (h : q'.isMetBy r i = true) :
    q.isMetBy r i' = true := by
  rw [isMetBy_iff] at h ⊢
  intro c t ht
  obtain ⟨t', ht', htt⟩ := hq c t ht
  obtain ⟨k, o, ho, hk, hto⟩ := h c t' ht'
  obtain ⟨o', ho', hoo⟩ := hi k o ho
  exact ⟨k, o', ho', hk, Double.le_trans (Double.le_trans htt hto) hoo⟩

lemma Under.refl (q : Requirements) : q.Under q :=
  fun _ t ht => ⟨t, ht, (Reliability.Same.refl t).le⟩

lemma under_raise (h : ∀ t₀, q.thresholds.get? c = some t₀ → t₀.value ≤ t.value) :
    q.Under (q.raise c t) := by
  intro a t₀ ht₀
  by_cases ha : a = c
  · subst ha
    exact ⟨t, by simp [raise, SortedMap.get?_insert], h t₀ ht₀⟩
  · refine ⟨t₀, ?_, (Reliability.Same.refl t₀).le⟩
    rw [raise, SortedMap.get?_insert_of_ne _ ha, ht₀]

/-! ### Unions -/

lemma Compatible.symm (h : q₁.Compatible q₂) : q₂.Compatible q₁ :=
  fun c t₂ t₁ h₂ h₁ => (h c t₁ t₂ h₁ h₂).symm

lemma Unites.symm (h : q.Unites q₁ q₂) : q.Unites q₂ q₁ :=
  ⟨fun c => (h.requires_iff c).trans or_comm, fun c t ht => (h.held c t ht).symm⟩

/-- Where thresholds differ as doubles, they are still equal as numbers. -/
lemma Unites.under (h : q.Unites q₁ q₂) (hc : q₁.Compatible q₂) : q₁.Under q := by
  intro c t₁ ht₁
  obtain ⟨t, ht⟩ := (h.requires_iff c).mpr (.inl ⟨t₁, ht₁⟩)
  refine ⟨t, ht, ?_⟩
  rcases h.held c t ht with ht' | ht'
  · obtain rfl := Option.some.inj (ht₁.symm.trans ht')
    exact (Reliability.Same.refl _).le
  · exact (hc c t₁ t ht₁ ht').le

/-- **To meet a union** is to meet both. -/
theorem isMetBy_unites (h : q.Unites q₁ q₂) (hc : q₁.Compatible q₂) :
    q.isMetBy r i = true ↔ q₁.isMetBy r i = true ∧ q₂.isMetBy r i = true := by
  refine ⟨fun hq => ⟨?_, ?_⟩, fun ⟨h₁, h₂⟩ => ?_⟩
  · exact isMetBy_mono (h.under hc) (.refl i) hq
  · exact isMetBy_mono (h.symm.under hc.symm) (.refl i) hq
  · rw [isMetBy_iff] at h₁ h₂ ⊢
    intro c t ht
    exact (h.held c t ht).elim (h₁ c t) (h₂ c t)

lemma mem_requests_iff {a : Category × Float} :
    a ∈ q.requests ↔ ∃ t, q.thresholds.get? a.1 = some t ∧ t.value = a.2 := by
  simp only [requests, List.mem_map, Prod.exists, SortedMap.mem_toList_iff]
  constructor
  · rintro ⟨c, t, ht, rfl⟩
    exact ⟨t, ht, rfl⟩
  · rintro ⟨t, ht, hvalue⟩
    exact ⟨a.1, t, ht, Prod.ext rfl hvalue⟩

lemma lists_requests (q : Requirements) : q.Lists q.requests where
  requires_iff c := by simp [Requires, mem_requests_iff]
  held c t ht := by
    refine ⟨mem_requests_iff.mpr ⟨t, ht, rfl⟩, fun min hmin => ?_⟩
    obtain ⟨s, hs, rfl⟩ := mem_requests_iff.mp hmin
    obtain rfl := Option.some.inj (ht.symm.trans hs)
    exact t.inUnit.beq_self

lemma consistent_append_iff :
    Consistent (q₁.requests ++ q₂.requests) ↔ q₁.Compatible q₂ := by
  constructor
  · intro h c t₁ t₂ h₁ h₂
    refine h.agree (c, t₁.value) ?_ (c, t₂.value) ?_ rfl
    · exact List.mem_append_left _ (mem_requests_iff.mpr ⟨t₁, h₁, rfl⟩)
    · exact List.mem_append_right _ (mem_requests_iff.mpr ⟨t₂, h₂, rfl⟩)
  · intro h
    refine (lists_requests q₁).consistent.append (lists_requests q₂).consistent ?_
    rintro ⟨c, x⟩ ha ⟨d, y⟩ hb (rfl : c = d)
    obtain ⟨t₁, h₁, rfl⟩ := mem_requests_iff.mp ha
    obtain ⟨t₂, h₂, rfl⟩ := mem_requests_iff.mp hb
    exact h c t₁ t₂ h₁ h₂

/-- **The union can be had** by asking for the thresholds of the others, if they are compatible;
else some of them is refused. -/
theorem grants_iff_compatible : q₁.Grants q₂.requests ↔ q₁.Compatible q₂ :=
  ((lists_requests q₁).askAll q₂.requests).1.trans consistent_append_iff

theorem unites_askAll (h : q₁.Compatible q₂) : (q₁.askAll q₂.requests).Unites q₁ q₂ := by
  have hlists := ((lists_requests q₁).askAll q₂.requests).2 (grants_iff_compatible.mpr h)
  refine ⟨fun c => ?_, fun c t ht => ?_⟩
  · simp only [hlists.requires_iff, List.mem_append, exists_or, (lists_requests _).requires_iff]
  · have hof : ∀ {q : Requirements}, (c, t.value) ∈ q.requests →
        q.thresholds.get? c = some t := by
      intro q hmem
      obtain ⟨s, hs, hvalue⟩ := mem_requests_iff.mp hmem
      rwa [Reliability.eq_of_value hvalue] at hs
    exact (List.mem_append.mp (hlists.held c t ht).1).imp hof hof

/-! ### Who is found -/

lemma found_eq (q : Requirements) (r : Registry) (is : List Individual) :
    q.found r is = is.filter fun i => decide (q.Qualifies r i) := by
  rw [found, select_eq]
  split
  · rename_i hrefused
    exact hrefused.2.symm
  · rfl

/-- **A stronger query** finds some of those whom the weaker one finds. -/
theorem found_sublist (h : q.Weaker q') (r : Registry) (is : List Individual) :
    (q'.found r is).Sublist (q.found r is) := by
  rw [found_eq, found_eq]
  refine List.monotone_filter_right is fun i hi => ?_
  rw [decide_eq_true_iff, ← qualifies_iff, Bool.and_eq_true] at hi ⊢
  refine ⟨?_, isMetBy_mono h.under (.refl i) hi.2⟩
  rw [Person.attends_iff] at hi ⊢
  exact fun e he => hi.1 e (h.event e he)

/-- **How requirements compare**, by whatever registry. To meet a union is to meet both, and there
is one when no category is required at two thresholds. Who does not meet requirements does not meet
stronger ones, and who does still does when better known. A stronger query finds some of those whom
the weaker one finds, in their order. -/
structure Compare (r : Registry) : Prop where
  united : ∀ q₁ q₂ : Requirements, (q₁.Grants q₂.requests ↔ q₁.Compatible q₂) ∧
    (q₁.Compatible q₂ → (q₁.askAll q₂.requests).Unites q₁ q₂)
  both : ∀ (q q₁ q₂ : Requirements) (i : Individual), q₁.Compatible q₂ → q.Unites q₁ q₂ →
    (q.isMetBy r i = true ↔ q₁.isMetBy r i = true ∧ q₂.isMetBy r i = true)
  raised : ∀ (q : Requirements) (c : Category) (t : Reliability) (i : Individual),
    (∀ t₀, q.thresholds.get? c = some t₀ → t₀.value ≤ t.value) →
    q.isMetBy r i = false → (q.raise c t).isMetBy r i = false
  observed : ∀ (q : Requirements) (i : Individual) (k : Key) (o : Observation),
    (∀ o₀, i.attributes.get? k = some o₀ → o₀.reliability.value ≤ o.reliability.value) →
    q.isMetBy r i = true → q.isMetBy r (i.observe k o) = true
  found : ∀ q q' : Requirements, q.Weaker q' → ∀ is : List Individual,
    (q'.found r is).Sublist (q.found r is)

theorem compare_by_strength (r : Registry) : Compare r where
  united q₁ q₂ := ⟨grants_iff_compatible, unites_askAll⟩
  both q q₁ q₂ i hc hq := isMetBy_unites hq hc
  raised q c t i h hno := by
    rw [Bool.eq_false_iff] at hno ⊢
    exact mt (isMetBy_mono (under_raise h) (.refl i)) hno
  observed q i k o h := isMetBy_mono (.refl q) (Individual.knownIn_observe h)
  found q q' h is := found_sublist h r is

end Requirements

end Dossier
