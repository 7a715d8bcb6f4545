import Dossier.Proofs.Archive
import Dossier.Proofs.Config
import Dossier.Proofs.Session.LifeCycle
import Dossier.Proofs.Session.Materialising
import Dossier.Proofs.Writer.Tally

/-!
Identities from one session to the next. Newcomers of a session are stored in its archive under the
identifiers that the report shows, after everybody who was stored before. A later session that
brings stored individuals in again reports them under these identifiers and as the persons they
were; their attributes are left behind.
-/

namespace Dossier

/-- Somebody of whom nothing was observed yet. -/
def Individual.bare (i : Individual) : Individual := { i with attributes := ∅ }

lemma Entry.bare_individual (e : Entry) :
    e.individual.bare = Individual.ofPerson e.person (some e.id) := rfl

namespace Session

variable {settings : Settings} {archive : Option Archive} {es : List Enrolment} {s t : Session}
  {p : Primary} {today : CivilDate} {ids : IdSupply} {is : List Individual} {a : Archive}
  {ms : List (CivilDate × Move)} {r : Report}

/-! ### Newcomers in an archive -/

/-- The versions of newcomers that an archive stores. -/
def filed (ids : IdSupply) (is : List Individual) : List (Uuid × Individual) :=
  (arrivals ids is).map fun p => (p.2.id, p.2.individual)

lemma ids_arrivals (hnew : ∀ i ∈ is, i.id = none) (ids : IdSupply) :
    (arrivals ids is).map (fun p => p.2.id) = ids.upcoming is.length := by
  induction is generalizing ids with
  | nil => rfl
  | cons i is ih =>
    have hi := hnew i List.mem_cons_self
    rw [arrivals_cons_of_none hi, List.length_cons, IdSupply.upcoming_succ, List.map_cons,
      ih fun j hj => hnew j (List.mem_cons_of_mem _ hj)]

/-- **An archive files newcomers** at its end, if their identifiers are new to it. -/
lemma archive_persistNew (h : a.failure = none) (hnew : ∀ i ∈ is, i.id = none)
    (hapart : (ids.upcoming is.length).Nodup)
    (hunused : ∀ id ∈ ids.upcoming is.length, id ∉ a.people.map (·.1)) :
    (persistNew a ids is).2.1 = ⟨a.people ++ filed ids is, none⟩ := by
  induction is generalizing a ids with
  | nil =>
    obtain ⟨people, failure⟩ := a
    simp_all [persistNew, filed, arrivals]
  | cons i is ih =>
    have hi := hnew i List.mem_cons_self
    rw [List.length_cons, IdSupply.upcoming_succ] at hapart hunused
    obtain ⟨hfirst, hapart⟩ := List.nodup_cons.mp hapart
    have hkeep := Archive.keep_of_new (hunused _ List.mem_cons_self)
      { i with id := some ids.draw.1 }
    have hunused' : ∀ id ∈ ids.draw.2.upcoming is.length,
        id ∉ (a.people ++ [(ids.draw.1, { i with id := some ids.draw.1 })]).map Prod.fst := by
      intro id hid
      have hne : id ≠ ids.draw.1 := fun h => hfirst (h ▸ hid)
      simpa [hne] using hunused id (List.mem_cons_of_mem _ hid)
    have hrest := ih (a := ⟨_, none⟩) rfl (fun j hj => hnew j (List.mem_cons_of_mem _ hj)) hapart
      hunused'
    simp only [persistNew, hi, Archive.persist_of_lasting h, IdSupply.complete, hkeep, hrest, filed,
      arrivals_cons_of_none hi, List.map_cons, List.append_assoc]
    rfl

lemma kept_persistNew (h : a.Kept) (ids : IdSupply) (is : List Individual) :
    (persistNew a ids is).2.1.Kept := by
  induction is generalizing a ids with
  | nil => exact h
  | cons i is ih =>
    cases hi : i.id with
    | some id => simpa only [persistNew, hi] using ih h ids
    | none =>
      have hp := Archive.persist_of_lasting h.sound.lasting ids i
      rw [hi] at hp
      have hkept := Archive.Kept.persist h (congrArg Prod.fst hp)
      simp only [persistNew, hi, hp]
      exact ih hkept _

/-! ### Reports name who came in -/

/-- Nobody's identity changes while the secondary collectors are at work. -/
lemma bare_perform (w : Writer) (st : Store) (today : CivilDate) (call : WriterCall) :
    (w.perform st today call).store.individuals.map Individual.bare =
      st.individuals.map Individual.bare := by
  rcases w.store_perform_cases st today call with h | ⟨b, -, h⟩
  · rw [h]
  · obtain ⟨-, -, -, -, h⟩ := Store.put_ok h
    rw [h]
    simp only [Store.individuals, Store.update, List.map_map]
    refine List.map_congr_left fun e _ => ?_
    simp only [Function.comp_apply, Entry.bare_individual]
    split <;> rfl

lemma bare_report (hr : s.MayReport today ids ms r) :
    r.individuals.map Individual.bare =
      (s.opening today ids).store.individuals.map Individual.bare := by
  cases hr with
  | skipped _ => rfl
  | enriched ms _ _ =>
    exact Crew.store_schedule (f := fun st => st.individuals.map Individual.bare) bare_perform _ ms

/-! ### Nobody is dropped -/

lemma isOfWrite_of_refusal? {reg : Registry} {n : String} {k : Key} {o : Observation}
    {e : StoreError} (h : reg.refusal? n today k o = some e) : e.isOfWrite = true := by
  unfold Registry.refusal? at h
  split at h
  · cases h; rfl
  · split at h
    · cases h; rfl
    · split at h <;> cases h
      rfl

lemma isOfWrite_rejected (s : Session) (st : Store) (ms : List (CivilDate × Move)) :
    ∀ u ∈ ((s.crew st).schedule ms).tasks, ∀ e ∈ u.writer.rejected, e.isOfWrite = true := by
  have hact : ∀ (t : Task) (today : CivilDate) (st : Store),
      (∀ e ∈ t.writer.rejected, e.isOfWrite = true) →
        ∀ e ∈ (t.act today st).1.writer.rejected, e.isOfWrite = true := by
    intro t today st h
    rcases t.act_cases today st with ⟨call, next, hcall⟩ | ⟨hsilent, -⟩
    · rw [hcall]
      rcases t.writer.rejected_perform st today call with hsame | ⟨e, he, hmore⟩
      · exact fun e' he' => h e' (hsame ▸ he')
      · intro e' he'
        rcases List.mem_append.mp (hmore ▸ he') with he' | he'
        · exact h e' he'
        · exact List.mem_singleton.mp he' ▸ he
    · rcases hsilent.writer with hw | hw <;> rw [hw] <;> exact h
  have hexpire : ∀ t : Task, (∀ e ∈ t.writer.rejected, e.isOfWrite = true) →
      ∀ e ∈ t.expire.writer.rejected, e.isOfWrite = true := by
    intro t h
    unfold Task.expire
    split <;> exact h
  refine Crew.forall_schedule hact hexpire (fun t ht => ?_) ms
  obtain ⟨c, -, rfl⟩ := List.mem_map.mp ht
  exact fun e he => nomatch he

lemma taken_newcomers (hnew : ∀ i ∈ is, i.id = none) (hapart : (ids.upcoming is.length).Nodup) :
    taken ids is = (arrivals ids is).map (·.2) ∧ dropped ids is = [] := by
  have hnodup : (((arrivals ids is).map (·.2)).map fun e => some e.id).Nodup := by
    have hids := hapart.map (Option.some_injective Uuid)
    rw [← ids_arrivals hnew ids] at hids
    simpa only [List.map_map, Function.comp_def] using hids
  exact ⟨firsts_of_nodup hnodup, repeats_of_nodup hnodup⟩

/-! ### The archive after a session -/

lemma settle_of_yield {c : Collection} {budget : Span}
    (h : c.yield budget archive = .ok is) : c.settle budget 0 = (.ok is, c.total) := by
  rw [Collection.settle_eq, Nat.zero_add]
  unfold Collection.yield at h
  split at h
  · cases h
  · next hin =>
    rw [if_neg hin]
    split at h
    · cases h
    · next hresult =>
      split at h <;> cases h
      rw [hresult]

lemma archive_opening (h : Knows settings archive es s) (hs : s.primary = some p)
    (hy : p.collect.yield (p.timeout.getD settings.collectorTimeout) archive = .ok is)
    (today : CivilDate) (ids : IdSupply) :
    (s.opening today ids).archive = archive.map fun a => (persistNew a ids is).2.1 := by
  have hgather : (gather archive (p.timeout.getD settings.collectorTimeout) p ids).archive =
      archive.map fun a => (persistNew a ids is).2.1 := by
    unfold gather
    rw [settle_of_yield hy]
    cases archive with
    | none => rfl
    | some a =>
      simp only [Option.map_some]
      generalize persistNew a ids is = persisted
      obtain ⟨_ | _, a', ids'⟩ := persisted <;> rfl
  rw [opening_eq hs, h.archive, h.settings, ← hgather]
  simp only [Gathered.store]
  split <;> rfl

lemma persistNew_of_known (hknown : ∀ i ∈ is, i.id.isSome = true) (a : Archive) (ids : IdSupply) :
    (persistNew a ids is).2.1 = a := by
  induction is generalizing ids with
  | nil => rfl
  | cons i is ih =>
    obtain ⟨id, hid⟩ := Option.isSome_iff_exists.mp (hknown i List.mem_cons_self)
    simpa only [persistNew, hid] using ih (fun j hj => hknown j (List.mem_cons_of_mem _ hj)) ids

/-! ### A session over an archive -/

/-- **A session over an archive** that has no other collector reports exactly the individuals `is`,
and of its own collector that it brought all of them in. It comes to an end, so long as its budget
is not spent at once, and leaves its archive as it was. -/
def Reloads (a : Archive) (f : Filter) (is : List Individual) : Prop :=
  ∀ (settings : Settings) (archive : Option Archive), 0 < settings.collectorTimeout.toNanos →
    (∃ s, Configured settings archive [.primary (a.primary f)] s) ∧
    ∀ s, Configured settings archive [.primary (a.primary f)] s → ∀ today ids,
      (∃ run, s.run today ids = .ok run ∧ run.session.archive = archive) ∧
      ∀ ms r, s.Reports today ids ms r →
        r.individuals = is ∧ r.outcomes = [⟨Archive.space, .success, 0, [], 0⟩]

lemma schedule_nobody {c : Crew} (h : c.tasks = []) (ms : List (CivilDate × Move)) :
    c.schedule ms = c := by
  induction ms with
  | nil => rfl
  | cons m ms ih =>
    obtain ⟨today, m⟩ := m
    have hstep : c.step today m = c := by
      obtain ⟨st, ts⟩ := c
      obtain rfl : ts = [] := h
      cases m <;> simp [Crew.step, Crew.actAt, Crew.expireAt]
    rw [Crew.schedule_cons, hstep, ih]

lemma report_alone_primary (hsecondaries : s.secondaries = []) (hr : s.MayReport today ids ms r) :
    r.store = (s.opening today ids).store ∧
      r.outcomes = (s.opening today ids).outcome.toList := by
  cases hr with
  | skipped _ => simp [Report.outcomes, hsecondaries]
  | enriched ms _ hsettles =>
    have htasks : (s.crew (s.opening today ids).store).tasks = [] := by simp [crew, hsecondaries]
    rw [schedule_nobody htasks, htasks] at hsettles
    cases hsettles
    rw [schedule_nobody htasks]
    exact ⟨rfl, List.append_nil _⟩

lemma individual_arrival? {i : Individual} (hknown : i.id.isSome = true)
    (hbare : i.attributes = ∅) (reg : Registry) (n : String) (today : CivilDate) :
    (arrival? i).map (fun e => Entry.individual
      { e with attributes := reg.admitted n today e.attributes }) = some i := by
  obtain ⟨person, id, attributes⟩ := i
  obtain ⟨id, rfl⟩ := Option.isSome_iff_exists.mp hknown
  obtain rfl : attributes = ∅ := hbare
  rfl

/-- Stored individuals as they are brought in again: with identifiers of their own, and bare. -/
structure Recalled (is : List Individual) : Prop where
  known : ∀ i ∈ is, i.id.isSome = true
  apart : (is.map (·.id)).Nodup
  bare : ∀ i ∈ is, i.attributes = ∅

lemma recalled_load (h : a.Sound) (f : Filter) : Recalled ((a.load f).map Individual.bare) where
  known i hi := by
    obtain ⟨j, hj, rfl⟩ := List.mem_map.mp hi
    obtain ⟨q, hq, rfl⟩ := List.mem_map.mp (List.mem_filter.mp hj).1
    exact Option.isSome_iff_exists.mpr ⟨q.1, h.own q hq⟩
  apart := by
    rw [List.map_map]
    exact h.nodup_load f
  bare i hi := by
    obtain ⟨j, -, rfl⟩ := List.mem_map.mp hi
    rfl

lemma opening_recalled (h : Knows settings archive [.primary p] s) (hr : Recalled is)
    (hn : normalNamespace p.space = .ok p.space)
    (hy : p.collect.yield (p.timeout.getD settings.collectorTimeout) archive = .ok is)
    (today : CivilDate) (ids : IdSupply) :
    (s.opening today ids).store.individuals = is ∧
      (s.opening today ids).outcome = some ⟨p.space, .success, 0, [], p.collect.total⟩ ∧
      (s.opening today ids).archive = archive := by
  have hs := h.primary_mem.mpr List.mem_cons_self
  obtain ⟨hentries, houtcome⟩ := opening_of_ok h hs hn hy today ids
  rw [taken_of_known hr.known hr.apart] at hentries houtcome
  rw [dropped_of_known hr.known hr.apart] at houtcome
  refine ⟨?_, ?_, ?_⟩
  · have hback := fun i hi =>
      individual_arrival? (hr.known i hi) (hr.bare i hi) s.registry p.space today
    rw [Store.individuals, hentries, List.map_map, List.map_filterMap]
    exact (List.filterMap_congr hback).trans List.filterMap_some
  · have hbare : ∀ e ∈ is.filterMap arrival?, e.attributes = ∅ := by
      intro e he
      obtain ⟨i, hi, hie⟩ := List.mem_filterMap.mp he
      obtain ⟨id, -, rfl⟩ := Option.map_eq_some_iff.mp hie
      exact hr.bare i hi
    have hwritten : ((is.filterMap arrival?).map
        fun e => (s.registry.admitted p.space today e.attributes).size).sum = 0 := by
      refine List.sum_eq_zero fun m hm => ?_
      obtain ⟨e, he, rfl⟩ := List.mem_map.mp hm
      rw [hbare e he]
      rfl
    have hrefused : ((is.filterMap arrival?).flatMap
        fun e => s.registry.refusals p.space today e.attributes) = [] := by
      refine List.flatMap_eq_nil_iff.mpr fun e he => ?_
      rw [hbare e he]
      rfl
    rw [houtcome, hwritten, hrefused]
    rfl
  · rw [archive_opening h hs hy]
    cases archive with
    | none => rfl
    | some a => exact congrArg some (persistNew_of_known hr.known a ids)

lemma yield_recalled {budget : Span} (hbudget : 0 < budget.toNanos) (hr : Recalled is)
    (archive : Option Archive) :
    (Collection.individuals is).yield budget archive = .ok is := by
  have hnobody : newcomers is = 0 :=
    List.countP_eq_zero.mpr fun i hi => by
      simpa [Option.isSome_iff_ne_none] using hr.known i hi
  have hstored : archive.bind (·.refusal? (newcomers is)) = none := by
    rw [hnobody]
    cases archive with
    | none => rfl
    | some a => simp [Archive.refusal?]
  simp only [Collection.yield, Collection.total, Collection.result, hstored]
  exact if_neg (not_le.mpr hbudget)

lemma exists_configured (settings : Settings) (archive : Option Archive) (a : Archive)
    (f : Filter) : ∃ s, Configured settings archive [.primary (a.primary f)] s := by
  obtain ⟨registry, hregistry⟩ :
      ∃ registry, Registry.empty.register Archive.space [] = .ok registry := ⟨_, rfl⟩
  have henrol : ({ ofSettings settings with archive }).enrol (.primary (a.primary f)) =
      .ok { ofSettings settings with archive, registry, primary := some (a.primary f) } := by
    simp only [enrol, registerPrimary, declare, ofSettings, Archive.primary, hregistry]
    rfl
  exact ⟨_, .enrol .fresh henrol⟩

/-- **Stored individuals are brought in again**, those who pass the filter. -/
theorem reloads (h : a.Sound) (f : Filter) : Reloads a f ((a.load f).map Individual.bare) := by
  intro settings archive hbudget
  have hr := recalled_load h f
  have hopening {t : Session} (ht : Knows settings archive [.primary (a.primary f)] t) :=
    opening_recalled ht hr Archive.normal_space (yield_recalled hbudget hr archive)
  have hnobody {t : Session} (ht : Knows settings archive [.primary (a.primary f)] t) :
      t.secondaries = [] := by rw [ht.secondaries]; rfl
  refine ⟨exists_configured settings archive a f, fun s hs today ids =>
    ⟨?_, fun ms r hreport => ?_⟩⟩
  · obtain ⟨t, hseal, hrun⟩ := hs.runs today ids
    obtain ⟨-, -, harchive⟩ := hopening (hs.sealRegistry hseal).knows today ids
    exact ⟨_, hrun, by rw [session_runSealed]; exact harchive⟩
  · obtain ⟨t, hseal, hreport⟩ := hreport
    have ht := (hs.sealRegistry hseal).knows
    obtain ⟨hindividuals, houtcome, -⟩ := hopening ht today ids
    obtain ⟨hstore, houtcomes⟩ := report_alone_primary (hnobody ht) hreport
    rw [Report.individuals, hstore, houtcomes, hindividuals, houtcome]
    exact ⟨rfl, rfl⟩

/-! ### Two sessions -/

/-- **What a session hands on** through its archive, which held `before` when the session began and
holds `after` at its end. The newcomers `is` are stored as they came, each once, at the end and
under the identifier in the report; who was stored before is still there. Nobody was dropped. A
later session that brings the stored individuals in again has those who pass its filter, in the
order in which they were first stored. -/
structure HandsOn (before after : Archive) (is : List Individual) (r : Report) : Prop where
  stored : ∃ new : List (Uuid × Individual), after.people = before.people ++ new ∧
    List.Forall₂ (fun i q => q.2 = { i with id := some q.1 }) is new ∧
    r.individuals.map Individual.bare = new.map fun q => q.2.bare
  once : (after.people.map (·.1)).Nodup
  undropped : ∀ o ∈ r.outcomes, ∀ id, .duplicateIndividual id ∉ o.rejected
  reloaded : ∀ f, Reloads after f
    (((before.people.map (·.2) ++ r.individuals).filter fun i => f.matchesPerson i.toPerson).map
      Individual.bare)

lemma filed_versions (ids : IdSupply) (is : List Individual) (hnew : ∀ i ∈ is, i.id = none) :
    List.Forall₂ (fun i q => q.2 = { i with id := some q.1 }) is (filed ids is) := by
  induction is generalizing ids with
  | nil => exact .nil
  | cons i is ih =>
    rw [filed, arrivals_cons_of_none (hnew i List.mem_cons_self)]
    exact .cons rfl (ih _ fun j hj => hnew j (List.mem_cons_of_mem _ hj))

lemma load_bare (f : Filter) {a : Archive} {js : List Individual}
    (h : a.people.map (fun q => q.2.bare) = js.map Individual.bare) :
    (a.load f).map Individual.bare =
      (js.filter fun i => f.matchesPerson i.toPerson).map Individual.bare := by
  have hfilter (is : List Individual) : (is.filter fun i => f.matchesPerson i.toPerson).map
      Individual.bare = (is.map Individual.bare).filter fun i => f.matchesPerson i.toPerson := by
    rw [List.filter_map]
    rfl
  rw [Archive.load, hfilter, hfilter, List.map_map, ← h]
  rfl

lemma bare_newcomers (h : Knows settings (some a) es s) (hp : .primary p ∈ es)
    (hy : p.collect.yield (p.timeout.getD settings.collectorTimeout) (some a) = .ok is)
    (hnew : ∀ i ∈ is, i.id = none) (hapart : (ids.upcoming is.length).Nodup)
    (hr : s.MayReport today ids ms r) :
    r.individuals.map Individual.bare = (filed ids is).map fun q => q.2.bare := by
  have hentries := (opening_of_ok h (h.primary_mem.mpr hp) (h.normal (e := .primary p) hp) hy
    today ids).1
  rw [(taken_newcomers hnew hapart).1] at hentries
  rw [bare_report hr, Store.individuals, hentries]
  simp only [filed, List.map_map]
  rfl

lemma undropped_newcomers (h : Knows settings (some a) es s) (hp : .primary p ∈ es)
    (hy : p.collect.yield (p.timeout.getD settings.collectorTimeout) (some a) = .ok is)
    (hnew : ∀ i ∈ is, i.id = none) (hapart : (ids.upcoming is.length).Nodup)
    (hr : s.MayReport today ids ms r) :
    ∀ o ∈ r.outcomes, ∀ e ∈ o.rejected, e.isOfWrite = true := by
  have houtcome := (opening_of_ok h (h.primary_mem.mpr hp) (h.normal (e := .primary p) hp) hy
    today ids).2
  rw [(taken_newcomers hnew hapart).2, ← hr.primary_eq] at houtcome
  intro o ho e he
  rcases List.mem_append.mp ho with ho | ho
  · rw [houtcome] at ho
    obtain rfl := List.mem_singleton.mp ho
    obtain ⟨d, -, hd⟩ := List.mem_flatMap.mp he
    obtain ⟨_, -, hrefused⟩ := List.mem_filterMap.mp hd
    exact isOfWrite_of_refusal? hrefused
  · cases hr with
    | skipped _ =>
      obtain ⟨c, -, rfl⟩ := List.mem_map.mp ho
      cases he
    | enriched ms _ hsettles =>
      have hboth := (List.forall₂_and_left _ _).mpr
        ⟨s.isOfWrite_rejected (s.opening today ids).store ms, hsettles⟩
      have hlisted := (List.forall₂_and_left (R := fun _ _ => True) _ _).mp
        (hboth.flip.imp fun o u ⟨hu, hsettle⟩ =>
          (⟨hsettle.rejected ▸ hu, trivial⟩ : (∀ e ∈ o.rejected, e.isOfWrite = true) ∧ True))
      exact hlisted.1 o ho e he

/-- **Identities survive** from one session to the next. Take an archive that never fails, whatever
was stored in it, and a session whose primary collector comes back in time with individuals that
have no identifiers yet. Then the session runs, and every report that it may end with agrees with
what its archive hands on. -/
theorem identities_survive (ha : a.Kept) (h : Configured settings (some a) es s)
    (hp : .primary p ∈ es)
    (hy : p.collect.yield (p.timeout.getD settings.collectorTimeout) (some a) = .ok is)
    (hnew : ∀ i ∈ is, i.id = none) (hapart : (ids.upcoming is.length).Nodup)
    (hunused : ∀ id ∈ ids.upcoming is.length, id ∉ a.people.map (·.1)) (today : CivilDate) :
    ∃ run after, s.run today ids = .ok run ∧ run.session.archive = some after ∧ after.Kept ∧
      ∀ ms r, s.Reports today ids ms r → HandsOn a after is r := by
  obtain ⟨t, hseal, hrun⟩ := h.runs today ids
  have ht := (h.sealRegistry hseal).knows
  have harchive := archive_opening ht (ht.primary_mem.mpr hp) hy today ids
  have hafter : (persistNew a ids is).2.1.people = a.people ++ filed ids is := by
    rw [archive_persistNew ha.sound.lasting hnew hapart hunused]
  have hkept := kept_persistNew ha ids is
  refine ⟨_, _, hrun, ?_, hkept, fun ms r hr => ?_⟩
  · rw [session_runSealed]
    exact harchive
  · obtain ⟨t', hseal', hr⟩ := hr
    obtain rfl : t = t' := Except.ok.inj (hseal.symm.trans hseal')
    have hbare := bare_newcomers ht hp hy hnew hapart hr
    refine ⟨⟨_, hafter, filed_versions ids is hnew, hbare⟩, hkept.sound.apart,
      fun o ho id hid => ?_, fun f => ?_⟩
    · cases undropped_newcomers ht hp hy hnew hapart hr o ho _ hid
    · rw [← load_bare f (a := (persistNew a ids is).2.1)]
      · exact reloads hkept.sound f
      · rw [hafter, List.map_append, List.map_append, hbare, List.map_map]
        rfl

/-! ### A newcomer beside a regular -/

def regularId : Uuid := ⟨List.replicate 32 ⟨8, by decide⟩, rfl⟩

def newcomerId : Uuid := ⟨List.replicate 32 ⟨9, by decide⟩, rfl⟩

def newcomerIds : IdSupply := .fresh fun _ => newcomerId

def regular : Individual := .ofPerson (.named "Ann" "Lee") (some regularId)

def newcomer : Individual := .ofPerson ⟨"Bob", "Roy", some "bob@roy.org", some "gala", none⟩ none

/-- The archive of the regular hands the newcomer on, too. -/
theorem newcomer_survives : ∃ (s : Session) (run : Run) (after : Archive) (ms : List Move),
    s.run ⟨2024, 1, 1, by decide⟩ newcomerIds = .ok run ∧
      run.session.archive = some after ∧
      s.Reports ⟨2024, 1, 1, by decide⟩ newcomerIds
        (ms.map fun m => (⟨2024, 1, 1, by decide⟩, m)) run.report ∧
      HandsOn ⟨[(regularId, regular)], none⟩ after [newcomer] run.report := by
  have hkept : Archive.Kept ⟨[(regularId, regular)], none⟩ :=
    Archive.Kept.empty.persist
      (rfl : (Archive.empty.persist newcomerIds regular).1 = .ok (_, regular))
  obtain ⟨s, hs⟩ : ∃ s, Configured .default (some ⟨[(regularId, regular)], none⟩)
      [.primary ⟨"guests", [], none, .individuals [newcomer]⟩] s := ⟨_, .enrol .fresh rfl⟩
  have htime : ¬ Settings.default.collectorTimeout.toNanos ≤ 0 := by decide
  obtain ⟨run, after, hrun, harchive, -, hreports⟩ := identities_survive hkept hs
    List.mem_cons_self (if_neg htime) (by decide) (by decide : (newcomerIds.upcoming 1).Nodup)
    (by decide) ⟨2024, 1, 1, by decide⟩
  obtain ⟨ms, hms⟩ := run_reports hrun
  exact ⟨s, run, after, ms, hrun, harchive, hms, hreports _ _ hms⟩

end Session

end Dossier
