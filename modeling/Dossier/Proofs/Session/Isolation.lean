import Dossier.FactFile
import Dossier.Proofs.Session.Enrolment
import Dossier.Proofs.Session.Opening
import Dossier.Proofs.Session.Reports

/-!
Secondary collectors do not notice each other. Two sessions with the same primary collector are
compared for one secondary collector that they share: whatever the others are and do, and in
whatever order all come to act, the two reports say the same of it, of the primary collector and of
who the individuals are.
-/

namespace Dossier

/-- Outcomes that differ at most in the time taken. -/
structure Outcome.Alike (a b : Outcome) : Prop where
  space : a.space = b.space
  status : a.status = b.status
  written : a.written = b.written
  rejected : a.rejected = b.rejected

/-- The same individual, with the same attributes in one namespace. -/
structure Individual.Alike (n : String) (a b : Individual) : Prop where
  id : a.id = b.id
  person : a.toPerson = b.toPerson
  attributes : ∀ k, Within n k → a.attributes.get? k = b.attributes.get? k

lemma Task.Settles.alike {t : Task} {o o' : Outcome} (h : t.Settles o) (h' : t.Settles o') :
    o.Alike o' :=
  ⟨h.space.trans h'.space.symm, Option.some.inj (h.status.symm.trans h'.status),
    h.written.trans h'.written.symm, h.rejected.trans h'.rejected.symm⟩

/-- Two settled ends of the same work are one, even if calls were due after them. -/
lemma Task.acts_eq_of_settled {t : Task} (ht : t.status = none) {st : Store}
    {days days' : List CivilDate} {o o' : Outcome} (h : (t.acts st days).1.Settles o)
    (h' : (t.acts st days').1.Settles o') (hdays : days <+: days' ∨ days' <+: days) :
    t.acts st days = t.acts st days' := by
  rcases hdays with hp | hp
  · exact acts_eq_of_longer ht hp (by simp [h.status])
  · exact (acts_eq_of_longer ht hp (by simp [h'.status])).symm

lemma EntriesAgree.individuals {n : String} {s s' : Store}
    (h : EntriesAgree (Within n) s.entries s'.entries) :
    List.Forall₂ (Individual.Alike n) s.individuals s'.individuals := by
  unfold Store.individuals
  rw [List.forall₂_map_left_iff, List.forall₂_map_right_iff]
  exact h.imp fun e e' he => ⟨congrArg some he.id, he.person, he.attributes⟩

/-! ### Collectors that keep to themselves -/

lemma Activity.private_putFacts (n : String) (fs : List (Uuid × Fact)) :
    (Activity.putFacts fs).Private n := by
  induction fs with
  | nil => exact .done
  | cons f fs ih => exact .put _ _ _ _ fun _ => ih

/-- **The collector of a file** looks at nothing but its file. -/
theorem FactFile.private_work (f : FactFile) (read : ReadFile) (is : List Individual) (n : String) :
    (f.work read is).Private n := by
  unfold work
  split
  · exact .fail _
  · split
    · exact .fail _
    · exact .ready (Activity.private_putFacts n _)

namespace Session

variable {settings settings' : Settings} {archive : Option Archive} {es es' : List Enrolment}
  {s s' : Session} {today : CivilDate} {ids : IdSupply}

/-! ### One session -/

lemma spaceAt?_crew (h : Knows settings archive es s) (store : Store) (i : ℕ) :
    (s.crew store).spaceAt? i = (s.secondaries[i]?).map fun c => runningNamespace c.space := by
  simp only [Crew.spaceAt?, crew, List.getElem?_map, Option.map_map]
  exact Option.map_congr fun c hc =>
    (isNormal_of_normalNamespace (h.normal_secondary (List.mem_of_getElem? hc))).lower_eq

lemma crew_apart (h : Knows settings archive es s) (store : Store) : (s.crew store).Apart := by
  have hspace := spaceAt?_crew h store
  refine ⟨fun i n hi => ?_, fun i j n hi hj => ?_⟩
  · rw [hspace] at hi
    obtain ⟨c, hc, rfl⟩ := Option.map_eq_some_iff.mp hi
    exact isNormal_of_normalNamespace (h.normal_secondary (List.mem_of_getElem? hc))
  · rw [hspace] at hi hj
    obtain ⟨c, hc, rfl⟩ := Option.map_eq_some_iff.mp hi
    obtain ⟨d, hd, heq⟩ := Option.map_eq_some_iff.mp hj
    obtain ⟨hilt, rfl⟩ := List.getElem?_eq_some_iff.mp hc
    obtain ⟨hjlt, rfl⟩ := List.getElem?_eq_some_iff.mp hd
    have hapart := List.pairwise_iff_getElem.mp h.secondaries_apart
    rcases Nat.lt_trichotomy i j with hlt | rfl | hlt
    · exact absurd heq.symm (hapart i j hilt hjlt hlt)
    · rfl
    · exact absurd heq (hapart j i hjlt hilt hlt)

variable {c : Secondary} {n : String} {i j : ℕ} {ms ms' : List (CivilDate × Move)}
  {r r' : Report} {o o' : Outcome}

def starting (s : Session) (c : Secondary) (store : Store) : Task :=
  .start (runningNamespace c.space) (c.timeout.getD s.settings.collectorTimeout) c.work
    store.individuals

lemma isPrivate_starting (hn : normalNamespace c.space = .ok n)
    (hc : ∀ is, (c.work is).Private n) (s : Session) (store : Store) :
    (s.starting c store).IsPrivate n := by
  have hnormal : IsNormal n := isNormal_of_normalNamespace hn
  have hspace : runningNamespace c.space = n := by simp [runningNamespace, hn]
  refine ⟨?_, hnormal, ?_⟩
  · rw [starting, hspace]
    exact hnormal.lower_eq
  · rintro a ⟨⟩
    exact hc _

/-- **One collector in a report.** Unless it ran out of its budget, its outcome and its namespace
are what its own calls lead to when it is alone. -/
lemma report_alone (h : Knows settings archive es s) (hi : s.secondaries[i]? = some c)
    (hn : normalNamespace c.space = .ok n) (hc : ∀ is, (c.work is).Private n) {st : Store}
    (hst : Store.Agree (Within n) (s.opening today ids).store st)
    (hempty : (s.opening today ids).store.isEmpty = false) (hr : s.MayReport today ids ms r)
    (ho : r.secondaries[i]? = some o) (hin : ∀ budget, o.status ≠ .failed (.timeout budget)) :
    let alone := (s.starting c (s.opening today ids).store).acts st (Crew.callDays i ms)
    alone.1.Settles o ∧ Store.Agree (Within n) r.store alone.2 := by
  intro alone
  cases hr with
  | skipped hskip => rw [hempty] at hskip; cases hskip
  | enriched ms _ hsettles =>
    set store := (s.opening today ids).store
    have htask : (s.crew store).tasks[i]? = some (s.starting c store) := by
      simp only [crew, List.getElem?_map, hi]
      rfl
    obtain ⟨u, hu, hfate⟩ := Crew.alone (crew_apart h store) htask
      (isPrivate_starting hn hc s store) hst ms
    have hsettled : u.Settles o := by
      obtain ⟨hult, rfl⟩ := List.getElem?_eq_some_iff.mp hu
      obtain ⟨holt, rfl⟩ := List.getElem?_eq_some_iff.mp ho
      exact hsettles.get hult holt
    rcases hfate with ⟨budget, hstatus⟩ | ⟨rfl, hagree⟩
    · exact absurd (Option.some.inj (hsettled.status.symm.trans hstatus)) (hin budget)
    · exact ⟨hsettled, hagree⟩

lemma report_skipped (hi : s.secondaries[i]? = some c)
    (hempty : (s.opening today ids).store.isEmpty = true) (hr : s.MayReport today ids ms r)
    (ho : r.secondaries[i]? = some o) :
    o = skip c ∧ r.store = (s.opening today ids).store := by
  cases hr with
  | skipped _ =>
    refine ⟨?_, rfl⟩
    simpa [hi, eq_comm] using ho
  | enriched _ hsome _ => rw [hempty] at hsome; cases hsome

/-! ### Two sessions -/

lemma resolve_eq (h : Knows settings archive es s) (h' : Knows settings' archive es' s')
    {e : Enrolment} (he : e ∈ es) (he' : e ∈ es') (hn : normalNamespace e.space = .ok n) :
    ∀ k, Within n k → s.registry.resolve k = s'.registry.resolve k := by
  rintro k rfl
  exact h.registry.resolve_eq h'.registry (List.mem_map_of_mem he) (List.mem_map_of_mem he') hn

lemma opening_alike (h : Knows settings archive es s) (h' : Knows settings' archive es' s')
    (ht : settings.collectorTimeout = settings'.collectorTimeout) {p : Primary}
    (hp : .primary p ∈ es) (hp' : .primary p ∈ es') (today : CivilDate) (ids : IdSupply) :
    (s.opening today ids).outcome = (s'.opening today ids).outcome ∧
      (s.opening today ids).store.entries = (s'.opening today ids).store.entries := by
  have hn := h.normal (e := .primary p) hp
  have ht' : s.settings.collectorTimeout = s'.settings.collectorTimeout := by
    rw [h.settings, h'.settings, ht]
  exact opening_same (h.primary_mem.mpr hp) (h'.primary_mem.mpr hp')
    (h.archive.trans h'.archive.symm) ht' (isNormal_of_normalNamespace hn)
    (resolve_eq h h' hp hp' hn) today ids

lemma isolated_sealed (h : Knows settings archive es s) (h' : Knows settings' archive es' s')
    (ht : settings.collectorTimeout = settings'.collectorTimeout) {p : Primary}
    (hp : .primary p ∈ es) (hp' : .primary p ∈ es') (hn : normalNamespace c.space = .ok n)
    (hc : ∀ is, (c.work is).Private n) (hi : s.secondaries[i]? = some c)
    (hj : s'.secondaries[j]? = some c) (hr : s.MayReport today ids ms r)
    (hr' : s'.MayReport today ids ms' r')
    (hdays : Crew.callDays i ms <+: Crew.callDays j ms' ∨
      Crew.callDays j ms' <+: Crew.callDays i ms)
    (ho : r.secondaries[i]? = some o) (ho' : r'.secondaries[j]? = some o')
    (hin : ∀ budget, o.status ≠ .failed (.timeout budget))
    (hin' : ∀ budget, o'.status ≠ .failed (.timeout budget)) :
    o.Alike o' ∧ r.primary = r'.primary ∧
      EntriesAgree (Within n) r.store.entries r'.store.entries := by
  obtain ⟨houtcome, hentries⟩ := opening_alike h h' ht hp hp' today ids
  have hresolve := resolve_eq h h' (e := .secondary c)
    (h.mem_secondaries.mp (List.mem_of_getElem? hi))
    (h'.mem_secondaries.mp (List.mem_of_getElem? hj)) hn
  have hagree : Store.Agree (Within n) (s'.opening today ids).store
      (s.opening today ids).store := by
    refine ⟨fun k hk => ?_, hentries ▸ .refl _ _⟩
    rw [registry_opening, registry_opening, hresolve k hk]
  have hprimary : r.primary = r'.primary := by
    cases hr <;> cases hr' <;> exact houtcome
  have hisEmpty : (s.opening today ids).store.isEmpty = (s'.opening today ids).store.isEmpty := by
    rw [Store.isEmpty, Store.isEmpty, hentries]
  cases hempty : (s.opening today ids).store.isEmpty with
  | true =>
    obtain ⟨rfl, hstore⟩ := report_skipped hi hempty hr ho
    obtain ⟨rfl, hstore'⟩ := report_skipped hj (hisEmpty ▸ hempty) hr' ho'
    rw [hstore, hstore', hentries]
    exact ⟨⟨rfl, rfl, rfl, rfl⟩, hprimary, .refl _ _⟩
  | false =>
    obtain ⟨hsettles, hstore⟩ := report_alone h hi hn hc (.refl _ _) hempty hr ho hin
    obtain ⟨hsettles', hstore'⟩ := report_alone h' hj hn hc hagree (hisEmpty ▸ hempty) hr' ho' hin'
    have hstart : s'.starting c (s'.opening today ids).store =
        s.starting c (s.opening today ids).store := by
      simp only [starting, h.settings, h'.settings, ht, Store.individuals, hentries]
    rw [hstart] at hsettles' hstore'
    have hacts := Task.acts_eq_of_settled (t := s.starting c _) rfl hsettles hsettles' hdays
    rw [← hacts] at hsettles' hstore'
    exact ⟨hsettles.alike hsettles', hprimary, (hstore.trans hstore'.symm).entries⟩

def annId : Uuid := ⟨List.replicate 32 ⟨2, by decide⟩, rfl⟩

def guests : Primary := ⟨"guests", [], none, .individuals [.ofPerson (.named "Ann" "Lee") none]⟩

def nicknames : Secondary :=
  ⟨"nick", [⟨"first", .firstName⟩], none, fun _ =>
    .ready (.putObservation annId ⟨"nick", "first"⟩ ⟨.text "Annie", .certain⟩ fun _ => .done)⟩

def broken : Secondary := ⟨"broken", [], none, fun _ => .crash none⟩

/-- Calls of collectors, in this order, all on one day. -/
def turns (places : List ℕ) : List (CivilDate × Move) :=
  places.map fun i => (⟨2024, 1, 1, by decide⟩, .act i)

end Session

end Dossier
