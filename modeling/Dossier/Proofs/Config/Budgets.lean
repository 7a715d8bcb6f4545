import Dossier.Proofs.Config
import Dossier.Proofs.Session.Fates
import Dossier.Proofs.Session.FactFiles

/-!
Budgets. A configuration that is read leaves its collectors some time in general, and lets at least
one secondary collector work at a time, as long as it does not ask for more places than there can
be. The time that a source asks for its own collector is not looked at: a source may ask for none.
-/

namespace Dossier

lemma Span.toNanos_ofSecs_pos {secs : ℕ} : 0 < (Span.ofSecs secs).toNanos ↔ secs ≠ 0 := by
  simp only [toNanos, ofSecs, nanosPerSec]
  omega

lemma Collection.result_ne_timeout (c : Collection) (span : Span) :
    c.result ≠ .error (.timeout span) := by
  induction c with
  | individuals is => simp [result]
  | fail causes => simp [result]
  | crash message => simp [result, CollectorFailure.ofCrash]
  | pause millis holding next ih => exact ih

lemma Collection.span_of_yield {c : Collection} {budget span : Span} {archive : Option Archive}
    (h : c.yield budget archive = .error (.timeout span)) : span = budget := by
  unfold Collection.yield at h
  split at h
  · cases h
    rfl
  · split at h
    · next failure hresult =>
      cases h
      exact absurd hresult (c.result_ne_timeout span)
    · split at h <;> cases h

namespace Config

/-- The budget of a source: its own, or else that of all collectors. -/
def budget (c : Config) (s : Source) : Span := .ofSecs (s.timeoutSecs.getD c.timeoutSecs)

/-- No other budget than that of the source has run out, if any has. -/
def Spends (c : Config) (s : Source) (o : Outcome) : Prop :=
  ∀ span, o.status = .failed (.timeout span) → span = c.budget s

/-- **The budgets in a session** that a configuration asks for. The primary collector has some time,
and the secondary collectors have what their sources say, or else what the primary one has. So all
of them have some time unless a source asks for none. No report tells of any other budget. -/
structure Budgets (c : Config) (t : Session) : Prop where
  primary : ∀ p, t.primary = some p →
    p.timeout.getD t.settings.collectorTimeout = .ofSecs c.timeoutSecs ∧
      0 < (p.timeout.getD t.settings.collectorTimeout).toNanos
  secondaries : ∀ store, (t.crew store).tasks.map (·.budget) = c.sources.map c.budget
  enough : (∀ store, ∀ k ∈ (t.crew store).tasks, 0 < k.budget.toNanos) ↔
    ∀ s ∈ c.sources, s.timeoutSecs ≠ some 0
  reports : ∀ today ids ms r, t.ReportsInStrokes today ids ms r →
    (∀ o span, r.primary = some o → o.status = .failed (.timeout span) → 0 < span.toNanos) ∧
      (r.individuals ≠ [] → List.Forall₂ c.Spends c.sources r.secondaries)
  places : t.places ≤ Session.maxPlaces →
    0 < t.places ∧ (∀ n, c.maxConcurrency = some n → t.places = n) ∧
      ∀ today ids, ∃ run ms, t.run today ids = .ok run ∧
        t.ReportsInStrokes today ids ms run.report

variable {c : Config} {read : ReadFile} {archive : Option Archive} {s : Source} {t : Session}

lemma budget_pos_iff (hc : c.Sensible) :
    0 < (c.budget s).toNanos ↔ s.timeoutSecs ≠ some 0 := by
  rw [budget, Span.toNanos_ofSecs_pos]
  cases s.timeoutSecs with
  | none => simpa using hc.timeout
  | some secs => simp

lemma Staffed.settings {earlier : List Source} (h : Staffed c read archive earlier t) :
    t.settings = c.settings :=
  h.configured.elim fun _ hes => hes.knows.settings

lemma Staffed.budgets (h : Staffed c read archive c.sources t) :
    List.Forall₂ (fun s d => d.timeout.getD c.settings.collectorTimeout = c.budget s) c.sources
      t.secondaries := by
  refine h.secondaries.imp fun s d hgives => ?_
  obtain ⟨ds, -, rfl⟩ := hgives
  show (s.timeoutSecs.map Span.ofSecs).getD (.ofSecs c.timeoutSecs) = c.budget s
  unfold budget
  cases s.timeoutSecs <;> rfl

lemma Staffed.budgets_crew (h : Staffed c read archive c.sources t) (store : Store) :
    (t.crew store).tasks.map (·.budget) = c.sources.map c.budget := by
  rw [Session.crew, h.settings, List.map_map, ← List.forall₂_eq_eq_eq, List.forall₂_map_left_iff,
    List.forall₂_map_right_iff]
  exact h.budgets.flip

lemma Staffed.enough_iff (h : Staffed c read archive c.sources t) (hc : c.Sensible)
    (store : Store) : (∀ k ∈ (t.crew store).tasks, 0 < k.budget.toNanos) ↔
      ∀ s ∈ c.sources, s.timeoutSecs ≠ some 0 := by
  rw [← List.forall_mem_map (f := fun k : Task => k.budget) (P := fun b => 0 < b.toNanos),
    h.budgets_crew, List.forall_mem_map]
  simp only [budget_pos_iff hc]

lemma places_eq (hc : c.Sensible) (h : t.settings = c.settings) {n : ℕ}
    (hn : c.maxConcurrency = some n) : t.places = n := by
  have hpos : n ≠ 0 := fun hzero => hc.concurrency (hzero ▸ hn)
  simp only [Session.places, h, settings, hn, Option.getD_some]
  omega

lemma all_spend {es : List Enrolment} {today : CivilDate} {ids : IdSupply}
    {ms : List (CivilDate × Move)} {r : Report} (h : Session.Knows c.settings archive es t)
    (hbudgets : List.Forall₂ (fun s d => d.timeout.getD c.settings.collectorTimeout = c.budget s)
      c.sources t.secondaries) (hr : t.MayReportInStrokes today ids ms r)
    (hsome : r.individuals ≠ []) : List.Forall₂ c.Spends c.sources r.secondaries := by
  obtain ⟨calls, r', hr', hstore, -, -, houtcomes⟩ := Session.exists_whole_report hr
  have hsame : r'.individuals = r.individuals := congrArg Store.individuals hstore
  obtain ⟨hlength, hbudgets⟩ := List.forall₂_iff_get.mp hbudgets
  refine List.forall₂_iff_get.mpr
    ⟨hlength.trans hr.length_secondaries.symm, fun i hi hi' span hspan => ?_⟩
  obtain ⟨o', k, ho', -, hfares⟩ := Session.exists_fares h
    (List.getElem?_eq_getElem (hlength ▸ hi)) hr' (hsame ▸ hsome)
  obtain ⟨o, ho, hmisses⟩ := houtcomes i o' ho'
  obtain ⟨_, rfl⟩ := List.getElem?_eq_some_iff.mp ho
  rw [← hbudgets i hi (hlength ▸ hi)]
  exact ((hfares.status.timeout span).mp (hmisses.status.trans hspan)).2.symm

lemma timeout_primary {es : List Enrolment} (h : Session.Knows c.settings archive es t)
    (hp : ∀ p, t.primary = some p → p.timeout = none) {today : CivilDate} {ids : IdSupply}
    {o : Outcome} {span : Span} (ho : (t.opening today ids).outcome = some o)
    (hspan : o.status = .failed (.timeout span)) : span = .ofSecs c.timeoutSecs := by
  cases hprimary : t.primary with
  | none => simp [Session.opening, hprimary] at ho
  | some p =>
    have hmem := h.primary_mem.mp hprimary
    cases hy : p.collect.yield (p.timeout.getD c.settings.collectorTimeout) archive with
    | ok is =>
      have hn := h.normal (e := .primary p) hmem
      rw [(Session.opening_of_ok h hprimary hn hy today ids).2] at ho
      obtain rfl := Option.some.inj ho
      simp at hspan
    | error failure =>
      rw [(Session.opening_of_error h hprimary hy today ids).2] at ho
      obtain rfl := Option.some.inj ho
      obtain rfl : failure = .timeout span := by simpa using hspan
      rw [Collection.span_of_yield hy, hp p hprimary]
      rfl

/-- **Every collector has its budget.** A configuration that was read leaves some time to the
primary collector of its session, and to each secondary collector whose source does not ask for
none. -/
theorem budgets_of_session {text : String} (h : ofText text = .ok c)
    (ht : c.session read archive = .ok t) : Budgets c t := by
  have hc := sensible_of_ofText h
  have hstaffed := staffed_of_session ht
  obtain ⟨es, hes⟩ := hstaffed.configured
  have hsettings := hstaffed.settings
  have hprimary : ∀ p, t.primary = some p →
      p.timeout.getD t.settings.collectorTimeout = .ofSecs c.timeoutSecs := by
    intro p hp
    rw [hstaffed.primary p hp, hsettings]
    rfl
  refine ⟨fun p hp => ⟨hprimary p hp, ?_⟩, hstaffed.budgets_crew, ?_, fun today ids ms r hr => ?_,
    fun hplaces => ⟨?_, fun n => places_eq hc hsettings, fun today ids => ?_⟩⟩
  · rw [hprimary p hp]
    exact Span.toNanos_ofSecs_pos.mpr hc.timeout
  · exact ⟨fun henough => (hstaffed.enough_iff hc (.ofRegistry t.registry)).mp (henough _),
      fun hsources store => (hstaffed.enough_iff hc store).mpr hsources⟩
  · obtain ⟨t', hseal, hr⟩ := hr
    have hknows := (hes.sealRegistry hseal).knows
    have heq := (Session.sealRegistry_ok hseal).2.2
    have hsame : t'.secondaries = t.secondaries := by rw [heq]
    have htimeout : ∀ p, t'.primary = some p → p.timeout = none := by
      rw [heq]
      exact hstaffed.primary
    refine ⟨fun o span ho hspan => ?_, all_spend hknows (hsame ▸ hstaffed.budgets) hr⟩
    rw [timeout_primary hknows htimeout (hr.primary_eq ▸ ho) hspan]
    exact Span.toNanos_ofSecs_pos.mpr hc.timeout
  · unfold Session.places
    omega
  · obtain ⟨t', hseal, hrun⟩ := hes.runs today ids
    obtain ⟨ms, hr, -⟩ := t'.runSealed_reports today ids
    obtain ⟨strokes, hstrokes⟩ := Session.Reports.inStrokes ⟨t', hseal, hr⟩
    exact ⟨_, strokes, hrun, hstrokes⟩

/-! ### A source in a hurry -/

def patientText : String :=
  "[session]\nmax_concurrency = 1\n[roster]\npath = \"guests\"\n" ++
  "[[sources]]\nnamespace = \"towns\"\npath = \"towns\"\ntimeout_secs = 1\n" ++
  "[sources.attributes]\ntown = \"hometown\"\n" ++
  "[[sources]]\nnamespace = \"ages\"\npath = \"ages\"\n[sources.attributes]\nage = \"age\"\n"

def patient : Config :=
  ⟨60, some 1, some ⟨"guests", none⟩, none,
    [⟨"towns", "towns", (∅ : SortedMap String String).insert "town" "hometown", some 1⟩,
      ⟨"ages", "ages", (∅ : SortedMap String String).insert "age" "age", none⟩],
    .empty⟩

/-- One source has a budget of its own, the other one has that of the roster. -/
theorem patient_budgets : ∃ t, ofText patientText = .ok patient ∧
    patient.session (fun _ => .error .notFound) none = .ok t ∧
    patient.sources.map patient.budget = [.ofSecs 1, .ofSecs 60] ∧ Budgets patient t := by
  have hread : ofText patientText = .ok patient := by decide +kernel
  obtain ⟨t, ht⟩ : ∃ t, patient.session (fun _ => .error .notFound) none = .ok t := ⟨_, rfl⟩
  exact ⟨t, hread, ht, rfl, budgets_of_session hread ht⟩

def hastyText : String :=
  "[roster]\npath = \"guests.json\"\n\n" ++
  "[[sources]]\nnamespace = \"towns\"\npath = \"towns.json\"\ntimeout_secs = 0\n" ++
  "[sources.attributes]\ntown = \"hometown\"\n"

def hasty : Config :=
  ⟨60, none, some ⟨"guests.json", none⟩, none,
    [⟨"towns", "towns.json", (∅ : SortedMap String String).insert "town" "hometown", some 0⟩],
    .empty⟩

/-- A configuration may not leave all collectors without time, but it may do so with a single
source. -/
theorem hasty_has_no_time :
    ofText "[session]\ncollector_timeout_secs = 0\n" = .error (.config .noTime) ∧
      ofText hastyText = .ok hasty ∧
      ∃ t, hasty.session (fun _ => .error .notFound) none = .ok t ∧
        ∀ store, (t.crew store).tasks.map (·.budget) = [.ofSecs 0] := by
  have husual : ofText "[session]\ncollector_timeout_secs = 0\n" = .error (.config .noTime) := by
    decide +kernel
  have hread : ofText hastyText = .ok hasty := by decide +kernel
  obtain ⟨t, ht⟩ : ∃ t, hasty.session (fun _ => .error .notFound) none = .ok t := ⟨_, rfl⟩
  exact ⟨husual, hread, t, ht, (staffed_of_session ht).budgets_crew⟩

end Config

end Dossier
