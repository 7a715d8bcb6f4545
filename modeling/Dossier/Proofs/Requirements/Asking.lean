import Mathlib
import Dossier.Proofs.Double.Order
import Dossier.Proofs.History
import Dossier.Proofs.Requirements

/-!
Asking for thresholds, one after the other, by category or by the name of one. It does not matter
in which order they are asked for, nor how often: the requirements hold every category that was
asked for, with its threshold as a number. So whoever asks is refused exactly if some threshold is
none, or if a category is asked for at two of them.
-/

namespace Dossier

open Double (InUnit)

namespace Requirements

/-- Asks for a category and a threshold. The requirements stay as they are if it is refused. -/
def ask (q : Requirements) (a : Category × Float) : Requirements × Except RequirementError Unit :=
  match q.require a.1 a.2 with
  | .ok q' => (q', .ok ())
  | .error e => (q, .error e)

/-- The requirements after asking. -/
def askAll (q : Requirements) (as : List (Category × Float)) : Requirements := (history ask q as).1

/-- Nothing that is asked for is refused. -/
def Grants (q : Requirements) (as : List (Category × Float)) : Prop :=
  ∀ e ∈ (history ask q as).2, e.2 = .ok ()

/-- How one request is answered: it is refused because its threshold is none, or else because
another threshold of its category is held. What is held already is not touched. -/
structure Answered (q : Requirements) (a : Category × Float) (q' : Requirements)
    (answer : Except RequirementError Unit) : Prop where
  accepted_iff : answer = .ok () ↔
    InUnit a.2 ∧ ∀ t, q.thresholds.get? a.1 = some t → (t.value == a.2) = true
  refused : ∀ e, answer = .error e → q' = q ∧
    (e = .outOfRange a.2 ∧ ¬ InUnit a.2 ∨ ∃ t, q.thresholds.get? a.1 = some t ∧ InUnit a.2 ∧
      (t.value == a.2) = false ∧ e = .conflict a.1 t.value a.2)
  event : q'.event = q.event
  held : answer = .ok () → ∃ t, t.value = a.2 ∧ ∀ c, q'.thresholds.get? c =
    (q.thresholds.get? c).or (if c = a.1 then some t else none)

/-- Every request is in range, and those for one category are equal as numbers. -/
structure Consistent (as : List (Category × Float)) : Prop where
  inRange : ∀ a ∈ as, InUnit a.2
  agree : ∀ a ∈ as, ∀ b ∈ as, a.1 = b.1 → (a.2 == b.2) = true

/-- The requirements hold exactly the categories that occur, each with a threshold that was asked
for, and all that were asked for equal it as numbers. -/
structure Lists (q : Requirements) (as : List (Category × Float)) : Prop where
  requires_iff : ∀ c, q.Requires c ↔ ∃ min, (c, min) ∈ as
  held : ∀ c t, q.thresholds.get? c = some t →
    (c, t.value) ∈ as ∧ ∀ min, (c, min) ∈ as → (t.value == min) = true

/-- The same event, and the same thresholds as numbers. -/
structure Matches (q q' : Requirements) : Prop where
  event : q.event = q'.event
  thresholds : ∀ c, Option.Rel Reliability.Same (q.thresholds.get? c) (q'.thresholds.get? c)

variable {q q' : Requirements} {a : Category × Float} {as bs : List (Category × Float)}

/-! ### One request -/

lemma Answered.of_refusal {e : RequirementError} (h : e = .outOfRange a.2 ∧ ¬ InUnit a.2 ∨
    ∃ t, q.thresholds.get? a.1 = some t ∧ InUnit a.2 ∧ (t.value == a.2) = false ∧
      e = .conflict a.1 t.value a.2) : q.Answered a q (.error e) where
  accepted_iff := by
    refine iff_of_false (by simp) ?_
    rintro ⟨hunit, hsame⟩
    rcases h with ⟨-, hnone⟩ | ⟨t, ht, -, hdiffer, -⟩
    · exact hnone hunit
    · rw [hsame t ht] at hdiffer
      cases hdiffer
  refused := by
    rintro _ ⟨⟩
    exact ⟨rfl, h⟩
  event := rfl
  held := by simp

lemma Answered.of_acceptance {t : Reliability} (ht : t.value = a.2)
    (hsame : ∀ s, q.thresholds.get? a.1 = some s → (s.value == a.2) = true)
    (hevent : q'.event = q.event) (hget : ∀ c, q'.thresholds.get? c =
      (q.thresholds.get? c).or (if c = a.1 then some t else none)) :
    q.Answered a q' (.ok ()) where
  accepted_iff := iff_of_true rfl ⟨ht ▸ t.inUnit, hsame⟩
  refused := by simp
  event := hevent
  held := fun _ => ⟨t, ht, hget⟩

theorem ask_answered (q : Requirements) (a : Category × Float) :
    q.Answered a (q.ask a).1 (q.ask a).2 := by
  cases hrange : Reliability.ofFloat? a.2 with
  | none =>
    have hask : q.ask a = (q, .error (.outOfRange a.2)) := by simp only [ask, require, hrange]
    rw [hask]
    exact .of_refusal (.inl ⟨rfl, Reliability.ofFloat?_eq_none_iff.mp hrange⟩)
  | some t =>
    have ht : t.value = a.2 := Reliability.ofFloat?_eq_some_iff.mp hrange
    cases hheld : q.thresholds.get? a.1 with
    | none =>
      have hask : q.ask a = ({ q with thresholds := q.thresholds.insert a.1 t }, .ok ()) := by
        simp only [ask, require, hrange, hheld]
      rw [hask]
      refine .of_acceptance ht (by simp [hheld]) rfl fun c => ?_
      rw [SortedMap.get?_insert]
      by_cases hc : c = a.1
      · simp [hc, hheld]
      · simp [hc]
    | some s =>
      by_cases heq : (s.value == a.2) = true
      · have hask : q.ask a = (q, .ok ()) := by
          simp only [ask, require, hrange, hheld, heq, if_true]
        rw [hask]
        refine .of_acceptance ht (by simp [hheld, heq]) rfl fun c => ?_
        by_cases hc : c = a.1
        · rw [hc, hheld, Option.some_or]
        · rw [if_neg hc, Option.or_none]
      · have hask : q.ask a = (q, .error (.conflict a.1 s.value a.2)) := by
          simp only [ask, require, hrange, hheld, if_neg heq]
        rw [hask]
        exact .of_refusal
          (.inr ⟨s, hheld, ht ▸ t.inUnit, Bool.eq_false_of_not_eq_true heq, rfl⟩)

/-! ### Requests one after the other -/

lemma Consistent.mono (h : Consistent as) (hsub : bs ⊆ as) : Consistent bs :=
  ⟨fun a ha => h.inRange a (hsub ha), fun a ha b hb => h.agree a (hsub ha) b (hsub hb)⟩

lemma Consistent.append (has : Consistent as) (hbs : Consistent bs)
    (h : ∀ a ∈ as, ∀ b ∈ bs, a.1 = b.1 → (a.2 == b.2) = true) : Consistent (as ++ bs) := by
  refine ⟨List.forall_mem_append.mpr ⟨has.inRange, hbs.inRange⟩, ?_⟩
  simp only [List.forall_mem_append]
  refine ⟨fun a ha => ⟨has.agree a ha, h a ha⟩, fun b hb => ⟨fun a ha hab => ?_, hbs.agree b hb⟩⟩
  exact Double.beq_symm (h a ha b hb hab.symm)

lemma Lists.consistent (h : q.Lists as) : Consistent as := by
  have hof : ∀ a ∈ as, ∃ t, q.thresholds.get? a.1 = some t ∧ (t.value == a.2) = true := by
    intro a ha
    obtain ⟨t, ht⟩ := (h.requires_iff a.1).mpr ⟨a.2, ha⟩
    exact ⟨t, ht, (h.held a.1 t ht).2 a.2 ha⟩
  refine ⟨fun a ha => ?_, fun a ha b hb hab => ?_⟩
  · obtain ⟨t, -, hta⟩ := hof a ha
    exact t.inUnit.of_beq hta
  · obtain ⟨t, ht, hta⟩ := hof a ha
    obtain ⟨s, hs, hsb⟩ := hof b hb
    rw [hab, hs] at ht
    obtain rfl := Option.some.inj ht
    exact Double.beq_trans (Double.beq_symm hta) hsb

lemma lists_forEvent (event : Option String) : (forEvent event).Lists [] where
  requires_iff c := by simp [Requires, forEvent]
  held c t ht := by simp [forEvent] at ht

/-- **One request more** is accepted exactly if all are consistent with it, and then held. -/
lemma Lists.ask (h : q.Lists as) (a : Category × Float) :
    ((q.ask a).2 = .ok () ↔ Consistent (as ++ [a])) ∧
      ((q.ask a).2 = .ok () → (q.ask a).1.Lists (as ++ [a])) := by
  have hone := ask_answered q a
  have hlists : (q.ask a).2 = .ok () → (q.ask a).1.Lists (as ++ [a]) := by
    intro hok
    obtain ⟨hunit, heq⟩ := hone.accepted_iff.mp hok
    obtain ⟨t, ht, hget⟩ := hone.held hok
    refine ⟨fun c => ?_, fun c s hs => ?_⟩
    · have hrequires : (q.ask a).1.Requires c ↔ q.Requires c ∨ c = a.1 := by
        simp only [Requires, ← Option.isSome_iff_exists, hget, Option.isSome_or, Bool.or_eq_true]
        by_cases hc : c = a.1 <;> simp [hc]
      simp only [hrequires, h.requires_iff, List.mem_append, List.mem_singleton, exists_or,
        Prod.ext_iff, exists_and_left, exists_eq, and_true]
    · rw [hget] at hs
      cases hheld : q.thresholds.get? c with
      | none =>
        -- the category is new, so this request is the only one for it
        have hnew : ∀ min, (c, min) ∉ as := fun min hmin =>
          (by simpa [Requires, hheld] using (h.requires_iff c).mpr ⟨min, hmin⟩)
        rw [hheld, Option.none_or] at hs
        obtain ⟨rfl, rfl⟩ : c = a.1 ∧ t = s := by simpa using hs
        rw [ht]
        refine ⟨by simp, fun min hmin => ?_⟩
        obtain rfl : min = a.2 := by simpa [hnew, Prod.ext_iff] using hmin
        exact hunit.beq_self
      | some s' =>
        rw [hheld, Option.some_or] at hs
        obtain rfl := Option.some.inj hs
        obtain ⟨hmem, hsame⟩ := h.held c s' hheld
        refine ⟨List.mem_append_left _ hmem, fun min hmin => ?_⟩
        rcases List.mem_append.mp hmin with hmin | hmin
        · exact hsame min hmin
        · obtain rfl := List.mem_singleton.mp hmin
          exact heq s' hheld
  refine ⟨⟨fun hok => (hlists hok).consistent, fun hc => hone.accepted_iff.mpr ⟨?_, ?_⟩⟩, hlists⟩
  · exact hc.inRange a (by simp)
  · intro t ht
    have hmem := (h.held a.1 t ht).1
    exact hc.agree (a.1, t.value) (by simp [hmem]) a (by simp) rfl

lemma grants_cons : q.Grants (a :: as) ↔ (q.ask a).2 = .ok () ∧ (q.ask a).1.Grants as := by
  rw [Grants, history_cons, List.forall_mem_cons]
  rfl

/-- **Requests one after the other** are all accepted exactly if they are consistent with what is
held, and then held with it. -/
theorem Lists.askAll (h : q.Lists as) (bs : List (Category × Float)) :
    (q.Grants bs ↔ Consistent (as ++ bs)) ∧ (q.Grants bs → (q.askAll bs).Lists (as ++ bs)) := by
  induction bs generalizing q as with
  | nil =>
    rw [List.append_nil]
    exact ⟨iff_of_true (List.forall_mem_nil _) h.consistent, fun _ => h⟩
  | cons b bs ih =>
    obtain ⟨hone, hheld⟩ := h.ask b
    rw [grants_cons, List.append_cons]
    by_cases hb : (q.ask b).2 = .ok ()
    · obtain ⟨hrest, hlists⟩ := ih (hheld hb)
      exact ⟨(and_iff_right hb).trans hrest, fun hall => hlists hall.2⟩
    · -- what contradicts the requests so far does so whatever comes after
      have hno : ¬ Consistent (as ++ [b] ++ bs) := fun hc =>
        hb (hone.mpr (hc.mono (List.subset_append_left _ _)))
      exact ⟨iff_of_false (fun hall => hb hall.1) hno, fun hall => absurd hall.1 hb⟩

lemma event_askAll (q : Requirements) (as : List (Category × Float)) :
    (q.askAll as).event = q.event :=
  history_inv (fun q' _ => q'.event = q.event) rfl
    (fun q' _ a h => (ask_answered q' a).event.trans h) as

lemma Lists.matches (h : q.Lists as) (h' : q'.Lists bs) (hevent : q.event = q'.event)
    (hmem : ∀ a, a ∈ bs ↔ a ∈ as) : q.Matches q' := by
  refine ⟨hevent, fun c => ?_⟩
  have hrequires : q.Requires c ↔ q'.Requires c := by
    simp only [h.requires_iff, h'.requires_iff, hmem]
  cases ht : q.thresholds.get? c with
  | none =>
    have hnone : q'.thresholds.get? c = none := by
      rw [Option.eq_none_iff_forall_ne_some]
      intro t' ht'
      obtain ⟨t, ht''⟩ := hrequires.mpr ⟨t', ht'⟩
      rw [ht] at ht''
      cases ht''
    rw [hnone]
    exact .none
  | some t =>
    obtain ⟨t', ht'⟩ := hrequires.mp ⟨t, ht⟩
    rw [ht']
    exact .some ((h.held c t ht).2 _ ((hmem _).mp (h'.held c t' ht').1))

/-- **Thresholds asked for one after the other, from nothing.** All are accepted exactly if they are
consistent. They are held then, and so they are in any order, with any repetitions. -/
structure Settled (event : Option String) (as : List (Category × Float)) : Prop where
  granted_iff : (forEvent event).Grants as ↔ Consistent as
  lists : (forEvent event).Grants as → ((forEvent event).askAll as).Lists as
  anyOrder : (forEvent event).Grants as → ∀ bs, (∀ a, a ∈ bs ↔ a ∈ as) →
    (forEvent event).Grants bs ∧ ((forEvent event).askAll as).Matches ((forEvent event).askAll bs)

theorem settled (event : Option String) (as : List (Category × Float)) : Settled event as := by
  have hrun := (lists_forEvent event).askAll
  refine ⟨(hrun as).1, (hrun as).2, fun hgrants bs hmem => ?_⟩
  have hbs : (forEvent event).Grants bs :=
    (hrun bs).1.mpr (((hrun as).1.mp hgrants).mono fun a ha => (hmem a).mp ha)
  refine ⟨hbs, ((hrun as).2 hgrants).matches ((hrun bs).2 hbs) ?_ hmem⟩
  rw [event_askAll, event_askAll]

example : (history ask (forEvent none) [(.age, 0.0), (.age, -0.0), (.age, 0.5)]).2.map (·.2) =
    [.ok (), .ok (), .error (.conflict .age 0.0 0.5)] := by
  decide +kernel

/-- Asking up to the first refusal succeeds when there is none, and then it comes to the same. -/
lemma requireAll_eq_ok_iff {r : Requirements} :
    q.requireAll as = .ok r ↔ q.Grants as ∧ q.askAll as = r := by
  induction as generalizing q with
  | nil => simp [requireAll, Grants, askAll, history]
  | cons a as ih =>
    rw [grants_cons, requireAll, show q.askAll (a :: as) = (q.ask a).1.askAll as from rfl, ask]
    cases q.require a.1 a.2 with
    | error e => simp
    | ok q' => simp [ih]

end Requirements

/-! ### Queries -/

namespace Query

open Requirements (forEvent)

/-- The requests of a query whose names mean a category. -/
def requests (ts : List (String × Float)) : List (Category × Float) :=
  ts.filterMap fun t => (Category.parse t.1).toOption.map (·, t.2)

lemma requests_cons_ok {c : Category} {t : String × Float} (h : Category.parse t.1 = .ok c)
    (ts : List (String × Float)) : requests (t :: ts) = (c, t.2) :: requests ts :=
  List.filterMap_cons_some (by rw [h]; rfl)

lemma mem_requests_iff {ts : List (String × Float)} {a : Category × Float} :
    a ∈ requests ts ↔ ∃ s, (s, a.2) ∈ ts ∧ Text.lower (Text.trim s) = a.1.name := by
  have hname : ∀ s c, (Category.parse s).toOption = some c ↔
      Text.lower (Text.trim s) = c.name := by
    intro s c
    rw [← Category.parse_eq_ok_iff]
    cases Category.parse s <;> simp [Except.toOption]
  simp only [requests, List.mem_filterMap, Option.map_eq_some_iff, hname]
  constructor
  · rintro ⟨t, ht, c, hc, rfl⟩
    exact ⟨t.1, ht, hc⟩
  · rintro ⟨s, hs, hc⟩
    exact ⟨(s, a.2), hs, a.1, hc, rfl⟩

lemma foldlM_requireNamed (ts : List (String × Float)) (q r : Requirements) :
    ts.foldlM (fun q t => q.requireNamed t.1 t.2) q = .ok r ↔
      (∀ t ∈ ts, ∃ c, Category.parse t.1 = .ok c) ∧ q.requireAll (requests ts) = .ok r := by
  induction ts generalizing q with
  | nil => simp [requests, Requirements.requireAll, pure, Except.pure]
  | cons t ts ih =>
    rw [List.foldlM_cons, List.forall_mem_cons, Requirements.requireNamed]
    cases hc : Category.parse t.1 with
    | error e => simp [bind, Except.bind]
    | ok c =>
      rw [requests_cons_ok hc, Requirements.requireAll]
      cases hreq : q.require c t.2 with
      | error e => simp [hreq, bind, Except.bind]
      | ok q' => simpa [hreq, bind, Except.bind] using ih q'

/-- **The requirements of a query.** There are some exactly if all names are names of categories, in
any case and with blanks around them, all thresholds are in range, and the names of one category
have thresholds that are equal as numbers. They match what is held after asking for the categories
by themselves, in any order. -/
structure Settled (q : Query) : Prop where
  ok_iff : (∃ r, q.requirements = .ok r) ↔
    (∀ t ∈ q.thresholds, ∃ c : Category, Text.lower (Text.trim t.1) = c.name) ∧
    (∀ t ∈ q.thresholds, InUnit t.2) ∧
    ∀ t ∈ q.thresholds, ∀ u ∈ q.thresholds,
      Text.lower (Text.trim t.1) = Text.lower (Text.trim u.1) → (t.2 == u.2) = true
  anyOrder : ∀ r, q.requirements = .ok r → ∀ as : List (Category × Float),
    (∀ a, a ∈ as ↔ ∃ s, (s, a.2) ∈ q.thresholds ∧ Text.lower (Text.trim s) = a.1.name) →
    (forEvent q.event).Grants as ∧ r.Matches ((forEvent q.event).askAll as)

variable {q : Query} {r : Requirements}

lemma requirements_eq_ok_iff : q.requirements = .ok r ↔
    (∀ t ∈ q.thresholds, ∃ c : Category, Text.lower (Text.trim t.1) = c.name) ∧
      (forEvent q.event).Grants (requests q.thresholds) ∧
      (forEvent q.event).askAll (requests q.thresholds) = r := by
  rw [← Requirements.requireAll_eq_ok_iff]
  simp only [← Category.parse_eq_ok_iff]
  exact foldlM_requireNamed q.thresholds _ r

/-- The requests are consistent when the entries of the query are. -/
lemma consistent_requests_iff
    (h : ∀ t ∈ q.thresholds, ∃ c : Category, Text.lower (Text.trim t.1) = c.name) :
    Requirements.Consistent (requests q.thresholds) ↔ (∀ t ∈ q.thresholds, InUnit t.2) ∧
      ∀ t ∈ q.thresholds, ∀ u ∈ q.thresholds,
        Text.lower (Text.trim t.1) = Text.lower (Text.trim u.1) → (t.2 == u.2) = true := by
  constructor
  · intro hc
    refine ⟨fun t ht => ?_, fun t ht u hu htu => ?_⟩
    · obtain ⟨c, hname⟩ := h t ht
      exact hc.inRange (c, t.2) (mem_requests_iff.mpr ⟨t.1, ht, hname⟩)
    · obtain ⟨c, hname⟩ := h t ht
      exact hc.agree (c, t.2) (mem_requests_iff.mpr ⟨t.1, ht, hname⟩) (c, u.2)
        (mem_requests_iff.mpr ⟨u.1, hu, htu ▸ hname⟩) rfl
  · rintro ⟨hrange, hagree⟩
    refine ⟨fun a ha => ?_, fun a ha b hb hab => ?_⟩
    · obtain ⟨s, hs, -⟩ := mem_requests_iff.mp ha
      exact hrange _ hs
    · obtain ⟨s, hs, hsname⟩ := mem_requests_iff.mp ha
      obtain ⟨u, hu, huname⟩ := mem_requests_iff.mp hb
      exact hagree (s, a.2) hs (u, b.2) hu (by rw [hsname, huname, hab])

theorem settled (q : Query) : q.Settled := by
  constructor
  · simp only [requirements_eq_ok_iff, exists_and_left, exists_eq', and_true]
    refine and_congr_right fun hnames => ?_
    rw [(Requirements.settled _ _).granted_iff, consistent_requests_iff hnames]
  · intro r hr as has
    obtain ⟨-, hgrants, rfl⟩ := requirements_eq_ok_iff.mp hr
    exact (Requirements.settled _ _).anyOrder hgrants as fun a =>
      (has a).trans mem_requests_iff.symm

end Query

/-- **The route and the order do not matter.** A request that is refused changes nothing. Requests
one after the other, from nothing, are settled by what is asked for and not by the order, and a
query is settled as its requests are. -/
theorem Requirements.asked_in_any_order :
    (∀ (q : Requirements) (a : Category × Float), q.Answered a (q.ask a).1 (q.ask a).2) ∧
    (∀ (event : Option String) (as : List (Category × Float)), Requirements.Settled event as) ∧
    ∀ q : Query, q.Settled :=
  ⟨Requirements.ask_answered, Requirements.settled, Query.settled⟩

end Dossier
