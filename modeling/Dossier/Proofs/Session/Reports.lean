import Dossier.Session
import Dossier.Proofs.Timing
import Mathlib.Data.List.Forall2

/-!
Reports of a session under every schedule. When collectors come to act depends on the machine; here
any order of calls and expiries is a schedule, each move on a day of its own, and a session may
report whatever some schedule leads to once every collector has its status. What a run reports is
one of these.
-/

namespace Dossier

/-- An outcome says what became of a collector, and how long it took in whatever way. -/
structure Task.Settles (t : Task) (o : Outcome) : Prop where
  space : o.space = t.writer.space
  status : t.status = some o.status
  written : o.written = t.writer.written
  rejected : o.rejected = t.writer.rejected

namespace Session

/-- A session whose registry is sealed may end with this report, if its secondary collectors come
to act in this order. Without individuals they are skipped. -/
inductive MayReport (s : Session) (today : CivilDate) (ids : IdSupply) :
    List (CivilDate × Move) → Report → Prop where
  | skipped (h : (s.opening today ids).store.isEmpty = true) :
    MayReport s today ids []
      ⟨(s.opening today ids).outcome, s.secondaries.map skip, (s.opening today ids).store⟩
  | enriched (ms : List (CivilDate × Move)) {outcomes : List Outcome}
      (h : (s.opening today ids).store.isEmpty = false)
      (hs : List.Forall₂ Task.Settles ((s.crew (s.opening today ids).store).schedule ms).tasks
        outcomes) :
    MayReport s today ids ms
      ⟨(s.opening today ids).outcome, outcomes,
        ((s.crew (s.opening today ids).store).schedule ms).store⟩

/-- A session may end with this report; its registry is sealed first. -/
def Reports (s : Session) (today : CivilDate) (ids : IdSupply) (ms : List (CivilDate × Move))
    (r : Report) : Prop :=
  ∃ s', s.sealRegistry = .ok s' ∧ s'.MayReport today ids ms r

lemma MayReport.primary_eq {s : Session} {today : CivilDate} {ids : IdSupply}
    {ms : List (CivilDate × Move)} {r : Report} (h : s.MayReport today ids ms r) :
    r.primary = (s.opening today ids).outcome := by
  cases h <;> rfl

lemma fresh_ofCrew (c : Crew) (h : ∀ t ∈ c.tasks, t.status = none) :
    Clock.Fresh (Clock.ofCrew c).tasks := by
  intro u hu _
  obtain ⟨t, ht, rfl⟩ := List.mem_map.mp hu
  exact h t ht

lemma crew_unsettled (s : Session) (store : Store) :
    ∀ t ∈ (s.crew store).tasks, t.status = none := by
  intro t ht
  obtain ⟨c, -, rfl⟩ := List.mem_map.mp ht
  rfl

lemma settles_outcomeOf {c : Clock} (h : ∀ t ∈ c.tasks, t.task.status.isSome = true) :
    List.Forall₂ Task.Settles c.crew.tasks (c.tasks.map outcomeOf) := by
  simp only [Clock.crew, List.forall₂_map_left_iff, List.forall₂_map_right_iff]
  refine List.forall₂_same.mpr fun t ht => ?_
  obtain ⟨st, hst⟩ := Option.isSome_iff_exists.mp (h t ht)
  exact ⟨rfl, by simp [outcomeOf, hst], rfl, rfl⟩

/-- The clock that runs a session plays some schedule to its end, and is on time. -/
lemma exists_schedule (s : Session) (store : Store) (today : CivilDate) :
    let clock := (Clock.ofCrew (s.crew store)).run today s.places
    ∃ ms : List Move, clock.crew = (s.crew store).schedule (ms.map fun m => (today, m)) ∧
      (s.crew store).OnTime (fun _ => 0) (ms.map fun m => (today, m)) ∧
      ∀ t ∈ clock.tasks, t.task.status.isSome = true := by
  intro clock
  have hworking : ∀ t ∈ (s.crew store).tasks, t.rest.isSome = true := by
    intro t ht
    obtain ⟨c, -, rfl⟩ := List.mem_map.mp ht
    rfl
  obtain ⟨ms, hms, htime⟩ := Clock.exists_play today s.places (Clock.ofCrew (s.crew store))
    (Clock.accounts_ofCrew _ hworking)
  have hcrew : (Clock.ofCrew (s.crew store)).crew = s.crew store := by
    simp [Clock.crew, Clock.ofCrew, Function.comp_def]
  have hcap : 0 < s.places := by unfold places; omega
  rw [hcrew, Crew.play_eq_schedule] at hms
  rw [hcrew] at htime
  exact ⟨ms, hms, htime,
    Clock.settled_run today hcap _ (fresh_ofCrew _ (s.crew_unsettled store))⟩

lemma runSealed_reports (s : Session) (today : CivilDate) (ids : IdSupply) :
    ∃ ms : List Move,
      s.MayReport today ids (ms.map fun m => (today, m)) (s.runSealed today ids).report ∧
      (s.crew (s.opening today ids).store).OnTime (fun _ => 0) (ms.map fun m => (today, m)) := by
  unfold runSealed
  by_cases hempty : (s.opening today ids).store.isEmpty = true
  · refine ⟨[], ?_, Crew.onTime_nil _ _⟩
    simp only [hempty, if_true]
    exact .skipped hempty
  · obtain ⟨ms, hms, htime, hsettled⟩ := s.exists_schedule (s.opening today ids).store today
    have houtcomes := settles_outcomeOf hsettled
    rw [hms] at houtcomes
    have hsome : (s.opening today ids).store.isEmpty = false := by simpa using hempty
    have hreport := MayReport.enriched (ms.map fun m => (today, m)) hsome houtcomes
    rw [← hms] at hreport
    refine ⟨ms, ?_, htime⟩
    simp only [hempty]
    exact hreport

/-- **A run reports** what one of the schedules leads to. -/
theorem run_reports {s : Session} {today : CivilDate} {ids : IdSupply} {run : Run}
    (h : s.run today ids = .ok run) :
    ∃ ms : List Move, s.Reports today ids (ms.map fun m => (today, m)) run.report := by
  simp only [Session.run] at h
  split at h
  · cases h
  · next s' hs =>
    obtain rfl := Except.ok.inj h
    obtain ⟨ms, hms, -⟩ := s'.runSealed_reports today ids
    exact ⟨ms, s', hs, hms⟩

end Session

end Dossier
