import Dossier.Proofs.Registry.Content
import Dossier.Proofs.Session.Arrivals
import Dossier.Proofs.Session.Enrolment
import Dossier.Proofs.Session.Opening
import Dossier.Proofs.Session.Reports

/-!
What the primary collector leaves to the others. Of the individuals that it brings in time, the
first under every identifier is taken in; each keeps those of its attributes that lie in the
collector's namespace, are declared and are accepted. What is left out is listed, first the
individuals and then the attributes. If the collector fails, or the archive does, nobody comes in
and nobody comes to work.
-/

namespace Dossier

/-! ### Attributes that are brought along -/

namespace Registry

/-- Whether an attribute may be brought along: it lies in the namespace `n`, is declared, and is
accepted. -/
def admits (r : Registry) (n : String) (today : CivilDate) (k : Key) (o : Observation) : Bool :=
  k.space == n && (r.resolve k).any (·.accepts today o.value)

/-- Why an attribute may not be brought along. -/
def refusal? (r : Registry) (n : String) (today : CivilDate) (k : Key) (o : Observation) :
    Option StoreError :=
  if k.space ≠ n then some (.namespaceViolation n k)
  else
    match r.resolve k with
    | none => some (.unknownAttribute k)
    | some c => if c.accepts today o.value then none else some (.typeMismatch k c o.value.kind)

/-- Those of the attributes that may be brought along. -/
def admitted (r : Registry) (n : String) (today : CivilDate) (m : SortedMap Key Observation) :
    SortedMap Key Observation := m.filter (r.admits n today)

/-- The errors of the others, in the order of their keys. -/
def refusals (r : Registry) (n : String) (today : CivilDate) (m : SortedMap Key Observation) :
    List StoreError := m.toList.filterMap fun a => r.refusal? n today a.1 a.2

variable {r : Registry} {n : String} {today : CivilDate} {k : Key} {o : Observation}

lemma refusal?_eq_none_iff : r.refusal? n today k o = none ↔ r.admits n today k o = true := by
  unfold refusal? admits
  by_cases hk : k.space = n
  · cases r.resolve k <;> simp [hk]
  · simp [hk]

lemma refusal?_of_resolve {c : Category} (hk : k.space = n) (hc : r.resolve k = some c) :
    r.refusal? n today k o =
      if c.accepts today o.value then none else some (.typeMismatch k c o.value.kind) := by
  simp only [refusal?, hk, hc, ne_eq, not_true_eq_false, if_false]

lemma admits_of_refusal? {e : StoreError} (h : r.refusal? n today k o = some e) :
    r.admits n today k o = false := by
  rw [Bool.eq_false_iff, Ne, ← refusal?_eq_none_iff, h]
  simp

end Registry

def Write.call (a : Write) : WriterCall := .putObservation a.id a.key a.observation

/-- What an entry asks to be written of itself. -/
def Entry.writes (e : Entry) : List Write := e.attributes.toList.map fun a => ⟨e.id, a.1, a.2⟩

namespace Session

variable {r : Registry} {n : String} {today : CivilDate} {w : Writer} {st : Store}

lemma perform_write (hr : st.registry = r) (hn : w.space = n) (hopen : w.isClosed = false)
    {a : Write} (ha : a.id ∈ st.ids) (today : CivilDate) : w.perform st today a.call =
      match r.refusal? n today a.key a.observation with
      | some e => w.reject st e
      | none => ⟨st.update a.id (·.insert a.key a.observation),
          { w with written := w.written + 1 }, .ok ()⟩ := by
  have hin : st.contains a.id = true := Store.contains_iff.mpr ha
  simp only [Write.call, Writer.perform, Writer.putObservation, hopen, hn, Registry.refusal?]
  by_cases hk : a.key.space = n
  · cases hc : r.resolve a.key with
    | none => simp [hk, hr, hc, Store.put, Writer.record]
    | some c =>
      by_cases hv : c.accepts today a.observation.value = true <;>
        simp [hk, hr, hc, hv, hin, hn, hopen, Store.put, Writer.record]
  · simp [hk]

/-- **Writes one after the other**: those that are admitted are in the store and counted, the others
are listed with their errors. -/
lemma performAll_writes {people : List (Uuid × Person)} {ws : List Write}
    (h : Store.Tracks people ws st) (hr : st.registry = r) (hn : w.space = n)
    (hopen : w.isClosed = false) {as : List Write} (has : ∀ a ∈ as, a.id ∈ st.ids)
    (today : CivilDate) :
    let admits := fun a : Write => r.admits n today a.key a.observation
    let after := performAll today w st (as.map Write.call)
    Store.Tracks people (ws ++ as.filter admits) after.2 ∧
      after.1.written = w.written + as.countP admits ∧
      after.1.rejected = w.rejected ++
        as.filterMap fun a => r.refusal? n today a.key a.observation := by
  induction as generalizing ws w st with
  | nil => simpa [performAll] using h
  | cons a as ih =>
    have ha := has a List.mem_cons_self
    have has' : ∀ b ∈ as, b.id ∈ st.ids := fun b hb => has b (List.mem_cons_of_mem _ hb)
    simp only [List.map_cons, performAll, perform_write hr hn hopen ha]
    cases he : r.refusal? n today a.key a.observation with
    | some e =>
      obtain ⟨htracks, hwritten, hrejected⟩ := ih (w := { w with rejected := w.rejected ++ [e] })
        h hr hn hopen has'
      simp only [Writer.reject, List.filter_cons, List.countP_cons, List.filterMap_cons, he,
        Registry.admits_of_refusal? he]
      exact ⟨htracks, hwritten, by rw [hrejected, List.append_assoc]; rfl⟩
    | none =>
      obtain ⟨htracks, hwritten, hrejected⟩ := ih (w := { w with written := w.written + 1 })
        (h.update ha) hr hn hopen (by rwa [Store.ids_update])
      simp only [List.filter_cons, List.countP_cons, List.filterMap_cons, he,
        Registry.refusal?_eq_none_iff.mp he]
      refine ⟨by simpa using htracks, ?_, hrejected⟩
      rw [hwritten]
      simp only [if_true]
      omega

/-! ### The store of the individuals -/

lemma nodup_writes {es : List Entry} (h : (es.map (·.id)).Nodup) :
    ((es.flatMap Entry.writes).map fun a => (a.id, a.key)).Nodup := by
  rw [List.map_flatMap, List.nodup_flatMap]
  refine ⟨fun e _ => ?_, (List.pairwise_map.mp h).imp fun {e f} hne p hp hp' => hne ?_⟩
  · have hkeys := e.attributes.nodup_keys.map (Prod.mk_right_injective e.id)
    simpa [Entry.writes, SortedMap.keys, SortedMap.toList, Function.comp_def] using hkeys
  · simp only [Entry.writes, List.map_map, List.mem_map] at hp hp'
    obtain ⟨a, -, rfl⟩ := hp
    obtain ⟨b, -, hb⟩ := hp'
    exact (congrArg Prod.fst hb).symm

lemma mem_admitted {es : List Entry} (hes : (es.map (·.id)).Nodup) {e : Entry} (he : e ∈ es)
    (k : Key) (o : Observation) :
    ⟨e.id, k, o⟩ ∈ (es.flatMap Entry.writes).filter
        (fun a => r.admits n today a.key a.observation) ↔
      (r.admitted n today e.attributes).get? k = some o := by
  rw [← SortedMap.mem_toList_iff, List.mem_filter, List.mem_flatMap]
  show _ ↔ (k, o) ∈ e.attributes.toList.filter fun a => r.admits n today a.1 a.2
  rw [List.mem_filter]
  refine and_congr_left fun _ => ?_
  simp only [Entry.writes, List.mem_map]
  constructor
  · rintro ⟨f, hf, a, ha, heq⟩
    obtain ⟨hid, rfl, rfl⟩ := Write.mk.inj heq
    rwa [← List.inj_on_of_nodup_map hes hf he hid]
  · exact fun hko => ⟨e, he, (k, o), hko, rfl⟩

lemma entries_of_tracks {es : List Entry} (hes : (es.map (·.id)).Nodup)
    (h : Store.Tracks (es.map fun e => (e.id, e.person))
      ((es.flatMap Entry.writes).filter fun a => r.admits n today a.key a.observation) st) :
    st.entries = es.map fun e => { e with attributes := r.admitted n today e.attributes } := by
  have hnodup := (nodup_writes hes).sublist
    ((List.filter_sublist (p := fun a => r.admits n today a.key a.observation)).map _)
  have hlength : st.entries.length = es.length := by simpa using congrArg List.length h.people
  refine List.ext_getElem (by simpa using hlength) fun i hi hi' => ?_
  have hi'' : i < es.length := hlength ▸ hi
  have hpair := List.getElem_of_eq h.people (by simpa using hi)
  simp only [List.getElem_map, Prod.mk.injEq] at hpair
  have hattributes : st.entries[i].attributes = r.admitted n today es[i].attributes := by
    refine SortedMap.ext_get? fun k => Option.ext fun o => ?_
    rw [h.held _ (List.getElem_mem hi), hpair.1, lastWrite?_iff hnodup,
      mem_admitted hes (List.getElem_mem hi'')]
  rw [List.getElem_map, ← hattributes, ← hpair.1, ← hpair.2]

lemma countP_writes (es : List Entry) :
    (es.flatMap Entry.writes).countP (fun a => r.admits n today a.key a.observation) =
      (es.map fun e => (r.admitted n today e.attributes).size).sum := by
  rw [List.countP_flatMap]
  refine congrArg List.sum (List.map_congr_left fun e _ => ?_)
  simp only [Function.comp_apply, Entry.writes, List.countP_map]
  exact List.countP_eq_length_filter

lemma filterMap_writes (es : List Entry) :
    ((es.flatMap Entry.writes).filterMap fun a => r.refusal? n today a.key a.observation) =
      es.flatMap fun e => r.refusals n today e.attributes := by
  simp only [List.filterMap_flatMap, Entry.writes, List.filterMap_map, Function.comp_def,
    Registry.refusals]

lemma attributeCalls_eq (es : List Entry) :
    attributeCalls (es.map fun e => (e.id, e.attributes)) =
      (es.flatMap Entry.writes).map Write.call := by
  simp only [attributeCalls, List.flatMap_map, List.map_flatMap, Entry.writes, List.map_map]
  rfl

lemma tracks_of_bare {es : List Entry} (hes : (es.map (·.id)).Nodup)
    (h : st.entries = es.map fun e => { e with attributes := ∅ }) :
    Store.Tracks (es.map fun e => (e.id, e.person)) [] st := by
  refine ⟨by simp [h], by simpa [Store.ids, h, Function.comp_def] using hes, ?_, by simp⟩
  intro e he k
  rw [h] at he
  obtain ⟨e, -, rfl⟩ := List.mem_map.mp he
  rfl

/-- **What is made of individuals** that come in from a supply. -/
theorem materialise_eq (hn : IsNormal n) (r : Registry) (today : CivilDate) (elapsed : ℕ)
    (archive : Option Archive) (ids : IdSupply) (is : List Individual) :
    let run := materialise r n today elapsed archive ids is
    run.store.entries = (taken ids is).map
        (fun e => { e with attributes := r.admitted n today e.attributes }) ∧
      run.outcome = ⟨n, .success,
        ((taken ids is).map fun e => (r.admitted n today e.attributes).size).sum,
        (dropped ids is).map .duplicateIndividual ++
          (taken ids is).flatMap fun e => r.refusals n today e.attributes,
        elapsed⟩ := by
  obtain ⟨hentries, hkept, hdropped⟩ := takeIn_eq r ids is
  have hregistry : (takeIn (.ofRegistry r) ids is).1.registry = r := registry_takeIn _ ids is
  have hes := nodup_taken ids is
  have htracks := tracks_of_bare hes hentries
  have hin : ∀ a ∈ (taken ids is).flatMap Entry.writes,
      a.id ∈ (takeIn (.ofRegistry r) ids is).1.ids := by
    intro a ha
    obtain ⟨e, he, hae⟩ := List.mem_flatMap.mp ha
    obtain ⟨b, -, rfl⟩ := List.mem_map.mp hae
    simp only [Store.ids, hentries, List.map_map]
    exact List.mem_map.mpr ⟨e, he, rfl⟩
  obtain ⟨hafter, hwritten, hrejected⟩ := performAll_writes (w := .ofNamespace n) htracks hregistry
    hn.lower_eq rfl hin today
  rw [← attributeCalls_eq, ← hkept] at hafter hwritten hrejected
  rw [List.nil_append] at hafter
  rw [countP_writes] at hwritten
  rw [filterMap_writes] at hrejected
  refine ⟨entries_of_tracks hes hafter, ?_⟩
  simp only [materialise, hwritten, hrejected, hdropped]
  simp [Writer.ofNamespace]

end Session

/-! ### What a collection comes to -/

namespace Collection

def total : Collection → ℕ
  | pause millis _ next => millis * Span.nanosPerMilli + next.total
  | _ => 0

def result : Collection → Except CollectorFailure (List Individual)
  | individuals is => .ok is
  | fail causes => .error (.failed (chain causes))
  | crash message => .error (.ofCrash message)
  | pause _ _ next => next.result

/-- What a session gets from a collection: the individuals, if it ends within the budget and the
archive can store the newcomers. -/
def yield (c : Collection) (budget : Span) (archive : Option Archive) :
    Except CollectorFailure (List Individual) :=
  if budget.toNanos ≤ c.total then .error (.timeout budget)
  else
    match c.result with
    | .error failure => .error failure
    | .ok is =>
      match archive.bind (·.refusal? (Session.newcomers is)) with
      | some e => .error (.persistence e.message)
      | none => .ok is

/-- Individuals come in time only. -/
lemma total_lt_of_yield {c : Collection} {budget : Span} {archive : Option Archive}
    {is : List Individual} (h : c.yield budget archive = .ok is) : c.total < budget.toNanos := by
  unfold Collection.yield at h
  split at h
  · cases h
  · next hlt => exact not_le.mp hlt

lemma settle_eq (c : Collection) (budget : Span) (elapsed : ℕ) :
    c.settle budget elapsed = if budget.toNanos ≤ elapsed + c.total
      then (.error (.timeout budget), budget.toNanos) else (c.result, elapsed + c.total) := by
  induction c generalizing elapsed with
  | individuals is => rfl
  | fail causes => rfl
  | crash message => rfl
  | pause millis holding next ih =>
    rw [settle, ih, total, result, Nat.add_assoc]

end Collection

namespace Session

lemma elapsed_gather (archive : Option Archive) (budget : Span) (p : Primary) (ids : IdSupply) :
    (gather archive budget p ids).elapsed = min p.collect.total budget.toNanos := by
  have hsettle : (p.collect.settle budget 0).2 = min p.collect.total budget.toNanos := by
    rw [Collection.settle_eq, Nat.zero_add]
    split <;> omega
  rw [← hsettle]
  unfold gather
  generalize p.collect.settle budget 0 = collected
  obtain ⟨failure | is, elapsed⟩ := collected
  · rfl
  · cases archive with
    | none => rfl
    | some a =>
      simp only
      split <;> rfl

/-- An archive gives out the identifiers under which the individuals would have come anyway. -/
lemma gather_archive {budget : Span} {p : Primary} {is : List Individual} {elapsed : ℕ}
    (h : p.collect.settle budget 0 = (.ok is, elapsed)) (a : Archive) (ids : IdSupply) :
    match a.refusal? (newcomers is) with
    | some e => (gather (some a) budget p ids).result = .error (.persistence e.message)
    | none => ∃ is', (gather (some a) budget p ids).result = .ok is' ∧
        (arrivals (gather (some a) budget p ids).ids is').map (·.2) =
          (arrivals ids is).map (·.2) := by
  have hpersist := persistNew_eq a ids is
  simp only [gather, h]
  generalize persistNew a ids is = persisted at hpersist ⊢
  obtain ⟨persisted, a', ids'⟩ := persisted
  obtain rfl := hpersist
  cases a.refusal? (newcomers is) with
  | some e => rfl
  | none =>
    have hsame := arrivals_individual ids' ((arrivals ids is).map (·.2))
    rw [List.map_map] at hsame
    exact ⟨_, rfl, hsame⟩

lemma result_gather (archive : Option Archive) (budget : Span) (p : Primary) (ids : IdSupply) :
    let g := gather archive budget p ids
    (∀ failure, p.collect.yield budget archive = .error failure → g.result = .error failure) ∧
      ∀ is, p.collect.yield budget archive = .ok is → ∃ is', g.result = .ok is' ∧
        (arrivals g.ids is').map (·.2) = (arrivals ids is).map (·.2) := by
  have hsettle := p.collect.settle_eq budget 0
  rw [Nat.zero_add] at hsettle
  unfold Collection.yield
  by_cases hbudget : budget.toNanos ≤ p.collect.total
  · simp only [if_pos hbudget] at hsettle ⊢
    simp [gather, hsettle]
  · simp only [if_neg hbudget] at hsettle ⊢
    cases hresult : p.collect.result with
    | error failure =>
      rw [hresult] at hsettle
      simp [gather, hsettle]
    | ok is =>
      rw [hresult] at hsettle
      cases archive with
      | none => simp [gather, hsettle]
      | some a =>
        have harchive := gather_archive hsettle a ids
        simp only [Option.bind_some]
        cases hrefusal : a.refusal? (newcomers is) with
        | some e =>
          rw [hrefusal] at harchive
          simpa using harchive
        | none =>
          rw [hrefusal] at harchive
          simpa using harchive

/-! ### Sessions with a primary collector -/

/-- An individual as it is taken in: under the identifier that it came with, or else one of the
`fresh` ones, and with the attributes that are admitted. -/
structure TakenIn (r : Registry) (n : String) (today : CivilDate) (fresh : List Uuid)
    (i j : Individual) : Prop where
  person : j.toPerson = i.toPerson
  known : ∀ id, i.id = some id → j.id = some id
  new : i.id = none → ∃ id ∈ fresh, j.id = some id
  attributes : j.attributes = r.admitted n today i.attributes

/-- **What becomes of the individuals** `is` that a primary collector brought in time, before
anybody else writes. -/
structure Materialised (s : Session) (p : Primary) (n : String) (today : CivilDate)
    (ids : IdSupply) (is : List Individual) : Prop where
  declared : ∀ k c, k.space = n → (s.registry.resolve k = some c ↔
    (k, c) ∈ Registry.entries (Enrolment.primary p).call)
  individuals : List.Forall₂ (TakenIn s.registry n today (ids.upcoming (newcomers is)))
    (firsts (·.id) [] is) (s.opening today ids).store.individuals
  apart : ((s.opening today ids).store.individuals.map (·.id)).Nodup
  outcome : (s.opening today ids).outcome = some ⟨n, .success,
    ((firsts (·.id) [] is).map fun i => (s.registry.admitted n today i.attributes).size).sum,
    (repeats (·.id) [] is).map .duplicateIndividual ++
      (firsts (·.id) [] is).flatMap fun i => s.registry.refusals n today i.attributes,
    p.collect.total⟩
  reported : ∀ ms r, s.Reports today ids ms r → r.primary = (s.opening today ids).outcome

/-- **What becomes of a session** whose primary collector failed, or whose archive did. -/
structure CameToNothing (s : Session) (p : Primary) (n : String) (today : CivilDate)
    (ids : IdSupply) (failure : CollectorFailure) : Prop where
  outcome : (s.opening today ids).outcome = some ⟨n, .failed failure, 0, [],
    min p.collect.total (p.timeout.getD s.settings.collectorTimeout).toNanos⟩
  individuals : (s.opening today ids).store.individuals = []
  reported : ∀ ms r, s.Reports today ids ms r →
    r.primary = (s.opening today ids).outcome ∧ r.individuals = [] ∧
      r.secondaries = s.secondaries.map skip

variable {settings : Settings} {archive : Option Archive} {es : List Enrolment} {s t : Session}
  {p : Primary} {ids : IdSupply} {is : List Individual}

lemma opening_eq (hp : s.primary = some p) (today : CivilDate) (ids : IdSupply) :
    let run := (gather s.archive (p.timeout.getD s.settings.collectorTimeout) p ids).store
      s.registry (runningNamespace p.space) today
    s.opening today ids = ⟨some run.outcome, run.store, run.archive, run.ids⟩ := by
  simp only [opening, hp, runPrimary_eq]

lemma opening_sealRegistry (hn : IsNormal (runningNamespace p.space)) (hp : s.primary = some p)
    (hs : s.sealRegistry = .ok t) (today : CivilDate) (ids : IdSupply) :
    (t.opening today ids).outcome = (s.opening today ids).outcome ∧
      (t.opening today ids).store.entries = (s.opening today ids).store.entries := by
  obtain ⟨-, hregistry, ht⟩ := sealRegistry_ok hs
  refine opening_same (p := p) ?_ hp ?_ ?_ hn (fun k _ => ?_) today ids
  · rw [ht]
    exact hp
  · rw [ht]
  · rw [ht]
  · rcases hregistry with h | h <;> rw [h]
    rfl

lemma primary_of_reports (hn : IsNormal (runningNamespace p.space)) (hp : s.primary = some p)
    {ms : List (CivilDate × Move)} {report : Report} (hr : s.Reports today ids ms report) :
    report.primary = (s.opening today ids).outcome := by
  obtain ⟨t, hseal, hr⟩ := hr
  exact hr.primary_eq.trans (opening_sealRegistry hn hp hseal today ids).1

lemma reports_of_nobody (hn : IsNormal (runningNamespace p.space)) (hp : s.primary = some p)
    (hnone : (s.opening today ids).store.entries = []) {ms : List (CivilDate × Move)}
    {report : Report} (hr : s.Reports today ids ms report) :
    report.individuals = [] ∧ report.secondaries = s.secondaries.map skip := by
  obtain ⟨t, hseal, hr⟩ := hr
  have hnone' : (t.opening today ids).store.entries = [] :=
    (opening_sealRegistry hn hp hseal today ids).2.trans hnone
  have hsecondaries : t.secondaries = s.secondaries := by rw [(sealRegistry_ok hseal).2.2]
  cases hr with
  | skipped _ =>
    rw [hsecondaries]
    exact ⟨congrArg (List.map Entry.individual) hnone', rfl⟩
  | enriched ms hsome _ =>
    rw [Store.isEmpty, hnone'] at hsome
    cases hsome

lemma Knows.resolve_primary (h : Knows settings archive es s) (hp : .primary p ∈ es) {k : Key}
    (hk : normalNamespace p.space = .ok k.space) (c : Category) :
    s.registry.resolve k = some c ↔ (k, c) ∈ Registry.entries (Enrolment.primary p).call := by
  obtain ⟨m, hm, -, hnodup, hresolve⟩ :=
    h.registry.entries_eq (List.mem_map_of_mem (f := Enrolment.call) hp)
  obtain rfl : m = k.space := Except.ok.inj (hm.symm.trans hk)
  rw [hresolve k rfl]
  have hnodup' : ((Registry.entries (Enrolment.primary p).call).reverse.map (·.1)).Nodup := by
    rw [List.map_reverse]
    exact List.nodup_reverse.mpr hnodup
  rw [← List.mem_reverse]
  exact ⟨SortedMap.mem_of_lookup, SortedMap.lookup_of_mem hnodup'⟩

lemma opening_of_ok (h : Knows settings archive es s) (hs : s.primary = some p)
    (hn : normalNamespace p.space = .ok n)
    (hy : p.collect.yield (p.timeout.getD settings.collectorTimeout) archive = .ok is)
    (today : CivilDate) (ids : IdSupply) :
    (s.opening today ids).store.entries = (taken ids is).map
        (fun e => { e with attributes := s.registry.admitted n today e.attributes }) ∧
      (s.opening today ids).outcome = some ⟨n, .success,
        ((taken ids is).map fun e => (s.registry.admitted n today e.attributes).size).sum,
        (dropped ids is).map .duplicateIndividual ++
          (taken ids is).flatMap fun e => s.registry.refusals n today e.attributes,
        p.collect.total⟩ := by
  have hrunning : runningNamespace p.space = n := by simp only [runningNamespace, hn]
  have hopening := opening_eq hs today ids
  rw [h.archive, h.settings, hrunning] at hopening
  obtain ⟨is', hresult, harrivals⟩ := (result_gather archive _ p ids).2 is hy
  have helapsed := elapsed_gather archive (p.timeout.getD settings.collectorTimeout) p ids
  rw [min_eq_left (Collection.total_lt_of_yield hy).le] at helapsed
  generalize gather archive (p.timeout.getD settings.collectorTimeout) p ids = g at *
  have htaken : taken g.ids is' = taken ids is := by simp only [taken, harrivals]
  have hdropped : dropped g.ids is' = dropped ids is := by simp only [dropped, harrivals]
  obtain ⟨hentries, houtcome⟩ := materialise_eq (isNormal_of_normalNamespace hn) s.registry today
    g.elapsed g.archive g.ids is'
  rw [htaken, helapsed] at hentries houtcome
  rw [hdropped] at houtcome
  simp only [Gathered.store, hresult, helapsed] at hopening
  rw [hopening]
  exact ⟨hentries, congrArg some houtcome⟩

lemma opening_of_error (h : Knows settings archive es s) (hs : s.primary = some p)
    {failure : CollectorFailure}
    (hy : p.collect.yield (p.timeout.getD settings.collectorTimeout) archive = .error failure)
    (today : CivilDate) (ids : IdSupply) :
    (s.opening today ids).store.entries = [] ∧
      (s.opening today ids).outcome = some ⟨runningNamespace p.space, .failed failure, 0, [],
        min p.collect.total (p.timeout.getD settings.collectorTimeout).toNanos⟩ := by
  have hopening := opening_eq hs today ids
  rw [h.archive, h.settings] at hopening
  have hresult := (result_gather archive _ p ids).1 failure hy
  have helapsed := elapsed_gather archive (p.timeout.getD settings.collectorTimeout) p ids
  generalize gather archive (p.timeout.getD settings.collectorTimeout) p ids = g at *
  simp only [Gathered.store, hresult, helapsed] at hopening
  rw [hopening]
  exact ⟨rfl, rfl⟩

lemma attributes_taken (hf : Fresh ids is) :
    (taken ids is).map (·.attributes) = (firsts (·.id) [] is).map (·.attributes) := by
  rw [← List.forall₂_eq_eq_eq, List.forall₂_map_left_iff, List.forall₂_map_right_iff]
  exact (taken_of_fresh hf).1.flip.imp fun _ _ h => h.attributes

lemma materialised (h : Knows settings archive es s) (hp : .primary p ∈ es)
    (hn : normalNamespace p.space = .ok n)
    (hy : p.collect.yield (p.timeout.getD settings.collectorTimeout) archive = .ok is)
    (hf : Fresh ids is) : Materialised s p n today ids is := by
  have hs := h.primary_mem.mpr hp
  obtain ⟨hentries, houtcome⟩ := opening_of_ok h hs hn hy today ids
  obtain ⟨hfirsts, hrepeats⟩ := taken_of_fresh hf
  have hattributes := attributes_taken hf
  refine ⟨?_, ?_, ?_, ?_, ?_⟩
  · exact fun k c hk => h.resolve_primary hp (hk ▸ hn) c
  · rw [Store.individuals, hentries, List.map_map, List.forall₂_map_right_iff]
    refine hfirsts.imp fun i e he => ⟨he.person, fun id hid => ?_, fun hnone => ?_, ?_⟩
    · exact congrArg some (he.known id hid)
    · exact ⟨e.id, he.new hnone, rfl⟩
    · exact congrArg (s.registry.admitted n today) he.attributes
  · rw [Store.individuals, hentries, List.map_map, List.map_map]
    have hnodup := (nodup_taken ids is).map (Option.some_injective Uuid)
    rwa [List.map_map] at hnodup
  · have hwritten : ((taken ids is).map fun e => (s.registry.admitted n today e.attributes).size) =
        (firsts (·.id) [] is).map fun i => (s.registry.admitted n today i.attributes).size := by
      simpa [Function.comp_def] using
        congrArg (List.map fun m => (s.registry.admitted n today m).size) hattributes
    have hrefused : ((taken ids is).flatMap fun e => s.registry.refusals n today e.attributes) =
        (firsts (·.id) [] is).flatMap fun i => s.registry.refusals n today i.attributes := by
      simpa [List.flatMap_map] using
        congrArg (List.flatMap fun m => s.registry.refusals n today m) hattributes
    rw [houtcome, hwritten, hrefused, hrepeats]
  · intro ms report hr
    have hnormal := isNormal_of_normalNamespace (h.normal hp)
    exact primary_of_reports hnormal hs hr

/-- **What the primary collector brings** is materialised, if it came in time and the archive could
store the newcomers; otherwise the session comes to nothing. -/
theorem primary_settled (h : Configured settings archive es s) (hp : .primary p ∈ es)
    (today : CivilDate) (ids : IdSupply) :
    ∃ n, normalNamespace p.space = .ok n ∧
      match p.collect.yield (p.timeout.getD settings.collectorTimeout) archive with
      | .ok is => Fresh ids is → Materialised s p n today ids is
      | .error failure => CameToNothing s p n today ids failure := by
  have hknows := h.knows
  have hs := hknows.primary_mem.mpr hp
  have hn : normalNamespace p.space = .ok (runningNamespace p.space) :=
    hknows.normal (e := .primary p) hp
  have hnormal := isNormal_of_normalNamespace hn
  refine ⟨_, hn, ?_⟩
  cases hy : p.collect.yield (p.timeout.getD settings.collectorTimeout) archive with
  | ok is => exact materialised hknows hp hn hy
  | error failure =>
    obtain ⟨hnone, houtcome⟩ := opening_of_error hknows hs hy today ids
    refine ⟨by rw [houtcome, hknows.settings], congrArg (List.map Entry.individual) hnone, ?_⟩
    exact fun ms report hr =>
      ⟨primary_of_reports hnormal hs hr, reports_of_nobody hnormal hs hnone hr⟩

/-! ### A collector that brings somebody twice -/

def knownId : Uuid := ⟨List.replicate 32 ⟨4, by decide⟩, rfl⟩

def freshId : Uuid := ⟨List.replicate 32 ⟨5, by decide⟩, rfl⟩

/-- The first comes with an attribute that is declared and with one of another namespace, the second
is new, and the third has the identifier of the first. -/
def signupList : List Individual :=
  [{ Person.named "Ann" "Lee" with
      id := some knownId
      attributes := ((∅ : SortedMap Key Observation).insert ⟨"signups", "town"⟩
        ⟨.text "Oslo", .certain⟩).insert ⟨"fb", "age"⟩ ⟨.integer 40, .certain⟩ },
    .ofPerson (.named "Bob" "Roy") none,
    .ofPerson (.named "Ann" "Li") (some knownId)]

def signups : Primary :=
  ⟨"Signups", [⟨"town", .hometown⟩], none, .pause 5 false (.individuals signupList)⟩

/-- Without an archive two are taken in; with one that fails, nobody is. -/
theorem signups_settled :
    (∃ (s : Session) (o : Outcome),
      (s.opening ⟨2024, 1, 1, by decide⟩ (.fresh fun _ => freshId)).outcome = some o ∧
        o.written = 1 ∧ o.rejected =
          [.duplicateIndividual knownId, .namespaceViolation "signups" ⟨"fb", "age"⟩] ∧
        Materialised s signups "signups" ⟨2024, 1, 1, by decide⟩ (.fresh fun _ => freshId)
          signupList) ∧
    ∃ s : Session, CameToNothing s signups "signups" ⟨2024, 1, 1, by decide⟩
      (.fresh fun _ => freshId) (.persistence "Persistence backend error: down") := by
  have hsession : ∃ s, Configured .default none [.primary signups] s ∧ ∃ o,
      (s.opening ⟨2024, 1, 1, by decide⟩ (.fresh fun _ => freshId)).outcome = some o ∧
        o.written = 1 ∧ o.rejected =
          [.duplicateIndividual knownId, .namespaceViolation "signups" ⟨"fb", "age"⟩] :=
    ⟨_, .enrol .fresh rfl, _, rfl, rfl, rfl⟩
  have hfailing : ∃ s, Configured .default (some (.failing 0 (.backend "down")))
      [.primary signups] s := ⟨_, .enrol .fresh rfl⟩
  obtain ⟨s, hs, o, ho, hwritten, hrejected⟩ := hsession
  obtain ⟨s', hs'⟩ := hfailing
  obtain ⟨n, hn, hsettled⟩ := primary_settled hs List.mem_cons_self ⟨2024, 1, 1, by decide⟩
    (.fresh fun _ => freshId)
  obtain ⟨n', hn', hsettled'⟩ := primary_settled hs' List.mem_cons_self ⟨2024, 1, 1, by decide⟩
    (.fresh fun _ => freshId)
  obtain rfl : "signups" = n := Except.ok.inj hn
  obtain rfl : "signups" = n' := Except.ok.inj hn'
  have htime : ¬ (signups.timeout.getD Settings.default.collectorTimeout).toNanos ≤
      signups.collect.total := by decide
  have hyield : signups.collect.yield (signups.timeout.getD Settings.default.collectorTimeout)
      none = .ok signupList := if_neg htime
  have hyield' : signups.collect.yield (signups.timeout.getD Settings.default.collectorTimeout)
      (some (.failing 0 (.backend "down"))) =
        .error (.persistence "Persistence backend error: down") := if_neg htime
  rw [hyield] at hsettled
  rw [hyield'] at hsettled'
  exact ⟨⟨s, o, ho, hwritten, hrejected, hsettled ⟨by decide, by decide⟩⟩, s', hsettled'⟩

end Session

end Dossier
