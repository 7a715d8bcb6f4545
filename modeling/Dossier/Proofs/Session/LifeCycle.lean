import Dossier.Proofs.History
import Dossier.Proofs.Registry.Content
import Dossier.Proofs.Session.Enrolment
import Dossier.Proofs.Session.Reports

/-!
The life of a session. Collectors may be registered, the registry sealed and the session run in any
order and any number of times; stages are only ever left forwards, the first sealing or run ends
the configuration, there is one primary collector and one run at most, and what is refused changes
nothing. A run that is broken off counts as a run.
-/

namespace Dossier

/-- The place of a stage in the order in which a session goes through them. -/
def Stage.position : Stage → ℕ
  | configuring => 0
  | registrySealed => 1
  | primaryRunning => 2
  | secondariesRunning => 3
  | completed => 4

namespace Session

inductive Call where
  | enrol (e : Enrolment)
  | sealRegistry
  | run (today : CivilDate) (ids : IdSupply)
  /-- A run that is broken off at a moment, unless it is over by then. -/
  | breakOff (today : CivilDate) (ids : IdSupply) (moment : ℕ)
  /-- Somebody outside takes hold of the registry, or lets go of it. -/
  | share (isShared : Bool)

inductive Refusal where
  | schema (e : SchemaError)
  | stage (e : StageError)

/-- Performs a call. One that is refused leaves the session as it was: a collector is only kept once
the registry has taken all its declarations, and the stage is looked at before it is changed. -/
def perform (s : Session) : Call → Session × Except Refusal Unit
  | .enrol e =>
    match s.enrol e with
    | .ok s' => (s', .ok ())
    | .error e => (s, .error (.schema e))
  | .sealRegistry =>
    match s.sealRegistry with
    | .ok s' => (s', .ok ())
    | .error e => (s, .error (.stage e))
  | .run today ids =>
    match s.run today ids with
    | .ok r => (r.session, .ok ())
    | .error e => (s, .error (.stage e))
  | .breakOff today ids moment =>
    match s.run today ids with
    | .ok r => (if r.isOverBefore moment then r.session else s.brokenOff r moment, .ok ())
    | .error e => (s, .error (.stage e))
  | .share isShared => ({ s with isShared }, .ok ())

namespace Call

def enrolment? : Call → Option Enrolment
  | enrol e => some e
  | _ => none

def isRun : Call → Bool
  | run _ _ | breakOff _ _ _ => true
  | _ => false

def endsConfiguration : Call → Bool
  | sealRegistry | run _ _ | breakOff _ _ _ => true
  | _ => false

end Call

abbrev Log := List (Call × Except Refusal Unit)

def done (log : Log) : List Call := (accepted log).map (·.1)

def enrolled (log : Log) : List Enrolment := (done log).filterMap Call.enrolment?

/-- **The life of a session** up to a state `s`, by the calls so far and their answers. Each
statement on a next call is one on every call of a longer life. -/
structure LifeCycle (log : Log) (s : Session) : Prop where
  forward : ∀ call, s.stage.position ≤ (s.perform call).1.stage.position
  refused : ∀ call e, (s.perform call).2 = .error e → (s.perform call).1 = s
  configuring : ∀ e, (s.perform (.enrol e)).2 = .ok () → s.stage = .configuring
  closed : (∃ call ∈ done log, call.endsConfiguration = true) →
    ∀ e, (s.perform (.enrol e)).2 = .error (.schema .closed)
  onePrimary : ((enrolled log).filterMap Enrolment.primary?).length ≤ 1
  oneRun : (done log).countP Call.isRun ≤ 1
  completed : (∃ today ids, .run today ids ∈ done log) →
    ∀ call : Call, call = .sealRegistry ∨ call.isRun = true →
      (s.perform call).2 = .error (.stage ⟨.configuring, .completed⟩)
  namespaces : (s.registry.namespaces.map .ok).Perm
    ((enrolled log).map fun e => normalNamespace e.space)
  once : s.registry.namespaces.Nodup
  declarations : s.registry.declarations.Perm
    ((enrolled log).flatMap fun e => Registry.entries e.call)
  ran : ∀ today ids r, s.run today ids = .ok r →
    s.primary.toList = (enrolled log).filterMap Enrolment.primary? ∧
      s.secondaries = (enrolled log).filterMap Enrolment.secondary? ∧
      ∃ ms : List Move, s.Reports today ids (ms.map fun m => (today, m)) r.report

/-! ### What a call can do -/

variable {s s' t : Session} {e : Enrolment} {today : CivilDate} {ids : IdSupply} {r : Run}

lemma enrol_of_ne (h : s.stage ≠ .configuring) (e : Enrolment) : s.enrol e = .error .closed := by
  cases e <;> simp [enrol, registerPrimary, registerSecondary, declare, h]

lemma stage_enrol (h : s.enrol e = .ok s') : s.stage = .configuring ∧ s'.stage = .configuring := by
  have hs : s.stage = .configuring := by
    by_contra hne
    rw [enrol_of_ne hne] at h
    cases h
  refine ⟨hs, ?_⟩
  cases e with
  | primary p =>
    obtain ⟨-, registry, -, rfl⟩ := registerPrimary_ok h
    exact hs
  | secondary c =>
    obtain ⟨registry, -, rfl⟩ := registerSecondary_ok h
    exact hs

lemma sealRegistry_of_lt (h : 1 < s.stage.position) :
    s.sealRegistry = .error ⟨.configuring, s.stage⟩ := by
  unfold sealRegistry
  split
  · next hs => rw [hs] at h; exact absurd h (by decide)
  · next hs => rw [hs] at h; exact absurd h (by decide)
  · rfl

lemma position_of_sealRegistry (h : s.sealRegistry = .ok t) : s.stage.position ≤ 1 := by
  by_contra hlt
  rw [sealRegistry_of_lt (not_le.mp hlt)] at h
  cases h

lemma run_of_lt (h : 1 < s.stage.position) (today : CivilDate) (ids : IdSupply) :
    s.run today ids = .error ⟨.configuring, s.stage⟩ := by
  rw [run, sealRegistry_of_lt h]

lemma session_runSealed (s : Session) (today : CivilDate) (ids : IdSupply) :
    (s.runSealed today ids).session = { s with
      stage := .completed, primary := none, secondaries := []
      archive := (s.opening today ids).archive } := by
  simp only [runSealed]
  split <;> rfl

lemma run_ok (h : s.run today ids = .ok r) :
    ∃ t, s.sealRegistry = .ok t ∧ r.session.registry = t.registry ∧
      r.session.stage = .completed := by
  unfold run at h
  split at h
  · cases h
  · next t ht =>
    obtain rfl := Except.ok.inj h
    refine ⟨t, ht, ?_, ?_⟩ <;> rw [session_runSealed]

lemma Configured.runs {settings : Settings} {archive : Option Archive} {es : List Enrolment}
    (h : Configured settings archive es s) (today : CivilDate) (ids : IdSupply) :
    ∃ t, s.sealRegistry = .ok t ∧ s.run today ids = .ok (t.runSealed today ids) := by
  have hstage : s.stage = .configuring ∨ s.stage = .registrySealed := by
    induction h with
    | fresh => exact .inl rfl
    | enrol _ he => exact .inl (stage_enrol he).2
    | share _ _ ih => exact ih
    | sealRegistry _ hs => exact .inr (sealRegistry_ok hs).1
  obtain ⟨t, ht⟩ : ∃ t, s.sealRegistry = .ok t := by
    unfold Session.sealRegistry
    rcases hstage with h | h <;> rw [h] <;> exact ⟨_, rfl⟩
  exact ⟨t, ht, by rw [Session.run, ht]⟩

lemma brokenOff_spec (s : Session) (r : Run) (moment : ℕ) :
    (s.brokenOff r moment).registry = r.session.registry ∧
      1 < (s.brokenOff r moment).stage.position := by
  unfold brokenOff
  split <;> simp [Stage.position]

lemma perform_run {call : Call} (hcall : call.isRun = true) (h : (s.perform call).2 = .ok ()) :
    ∃ t, s.sealRegistry = .ok t ∧ (s.perform call).1.registry = t.registry ∧
      1 < (s.perform call).1.stage.position ∧
      ((∃ today ids, call = .run today ids) → (s.perform call).1.stage = .completed) := by
  cases call with
  | run today ids =>
    simp only [perform] at h ⊢
    cases hr : s.run today ids with
    | error e => rw [hr] at h; cases h
    | ok r =>
      obtain ⟨t, ht, hregistry, hstage⟩ := run_ok hr
      exact ⟨t, ht, hregistry, by simp only [hstage]; decide, fun _ => hstage⟩
  | breakOff today ids moment =>
    simp only [perform] at h ⊢
    cases hr : s.run today ids with
    | error e => rw [hr] at h; cases h
    | ok r =>
      obtain ⟨t, ht, hregistry, hstage⟩ := run_ok hr
      obtain ⟨hbroken, hposition⟩ := s.brokenOff_spec r moment
      refine ⟨t, ht, ?_, ?_, by simp⟩
      · simp only
        split
        · exact hregistry
        · exact hbroken.trans hregistry
      · simp only
        split
        · simp only [hstage]; decide
        · exact hposition
  | enrol => cases hcall
  | sealRegistry => cases hcall
  | share => cases hcall

lemma perform_refused (s : Session) (call : Call) {e : Refusal}
    (h : (s.perform call).2 = .error e) : (s.perform call).1 = s := by
  cases call <;> simp only [perform] at h ⊢
  case share => cases h
  all_goals
    split at h
    · cases h
    · rfl

theorem position_perform (s : Session) (call : Call) :
    s.stage.position ≤ (s.perform call).1.stage.position := by
  cases hanswer : (s.perform call).2 with
  | error e => rw [s.perform_refused call hanswer]
  | ok =>
    cases hcall : call.isRun with
    | true =>
      obtain ⟨t, ht, -, hlt, -⟩ := perform_run hcall hanswer
      exact (position_of_sealRegistry ht).trans hlt.le
    | false =>
      cases call with
      | run => cases hcall
      | breakOff => cases hcall
      | share => exact le_refl _
      | enrol e =>
        simp only [perform]
        cases he : s.enrol e with
        | error => exact le_refl _
        | ok s' =>
          obtain ⟨hs, hs'⟩ := stage_enrol he
          simp only [hs, hs', le_refl]
      | sealRegistry =>
        simp only [perform]
        cases hs : s.sealRegistry with
        | error => exact le_refl _
        | ok t =>
          simp only [(sealRegistry_ok hs).1]
          exact position_of_sealRegistry hs

/-! ### What calls keep -/

/-- What the calls that were not refused say of the session. As long as it has not run, it is one
that is being configured. -/
structure Follows (settings : Settings) (archive : Option Archive) (cs : List Call)
    (s : Session) : Prop where
  registry : Registry.Records ((cs.filterMap Call.enrolment?).map Enrolment.call) s.registry
  waiting : s.stage.position ≤ 1 →
    Configured settings archive (cs.filterMap Call.enrolment?) s ∧ cs.countP Call.isRun = 0
  configuring : s.stage = .configuring → ∀ c ∈ cs, c.endsConfiguration = false
  completed : ∀ today ids, .run today ids ∈ cs → s.stage = .completed
  onePrimary : ((cs.filterMap Call.enrolment?).filterMap Enrolment.primary?).length ≤ 1
  oneRun : cs.countP Call.isRun ≤ 1

namespace Follows

variable {settings : Settings} {archive : Option Archive} {cs : List Call}

lemma fresh : Follows settings archive [] { ofSettings settings with archive } where
  registry := Registry.records_empty
  waiting _ := ⟨.fresh, rfl⟩
  configuring _ _ hc := by cases hc
  completed _ _ hc := by cases hc
  onePrimary := Nat.zero_le 1
  oneRun := Nat.zero_le 1

lemma of_configured (hs : Configured settings archive (cs.filterMap Call.enrolment?) s)
    (hruns : cs.countP Call.isRun = 0)
    (hends : s.stage = .configuring → ∀ c ∈ cs, c.endsConfiguration = false) :
    Follows settings archive cs s where
  registry := hs.knows.registry
  waiting _ := ⟨hs, hruns⟩
  configuring := hends
  completed today ids hc := absurd rfl (List.countP_eq_zero.mp hruns _ hc)
  onePrimary := by
    rw [← hs.knows.primary]
    cases s.primary <;> simp
  oneRun := hruns.le.trans (Nat.zero_le 1)

lemma enrol (h : Follows settings archive cs s) (he : s.enrol e = .ok s') :
    Follows settings archive (cs ++ [.enrol e]) s' := by
  obtain ⟨hs, -⟩ := stage_enrol he
  obtain ⟨hconfigured, hruns⟩ := h.waiting (by rw [hs]; decide)
  refine of_configured ?_ ?_ fun _ c hc => ?_
  · simpa [Call.enrolment?] using hconfigured.enrol he
  · simpa [List.countP_append, Call.isRun] using hruns
  · rcases List.mem_append.mp hc with hc | hc
    · exact h.configuring hs c hc
    · obtain rfl := List.mem_singleton.mp hc
      rfl

lemma sealRegistry (h : Follows settings archive cs s) (ht : s.sealRegistry = .ok t) :
    Follows settings archive (cs ++ [.sealRegistry]) t := by
  obtain ⟨hconfigured, hruns⟩ := h.waiting (position_of_sealRegistry ht)
  refine of_configured ?_ ?_ fun hstage => ?_
  · rw [filterMap_concat]
    simpa [Call.enrolment?] using hconfigured.sealRegistry ht
  · simpa [List.countP_append, Call.isRun] using hruns
  · rw [(sealRegistry_ok ht).1] at hstage
    cases hstage

lemma share (h : Follows settings archive cs s) (isShared : Bool) :
    Follows settings archive (cs ++ [.share isShared]) { s with isShared } := by
  have hsame : (cs ++ [Call.share isShared]).filterMap Call.enrolment? =
      cs.filterMap Call.enrolment? := by
    rw [filterMap_concat]
    simp [Call.enrolment?]
  have hruns : (cs ++ [Call.share isShared]).countP Call.isRun = cs.countP Call.isRun := by
    simp [List.countP_append, Call.isRun]
  refine ⟨?_, fun hstage => ?_, fun hstage c hc => ?_, fun today ids hc => ?_, ?_, ?_⟩
  · exact hsame ▸ h.registry
  · rw [hsame, hruns]
    exact (h.waiting hstage).imp_left (·.share isShared)
  · rcases List.mem_append.mp hc with hc | hc
    · exact h.configuring hstage c hc
    · obtain rfl := List.mem_singleton.mp hc
      rfl
  · exact h.completed today ids (by simpa using hc)
  · exact hsame ▸ h.onePrimary
  · exact hruns ▸ h.oneRun

lemma run (h : Follows settings archive cs s) {call : Call} (hcall : call.isRun = true)
    (hanswer : (s.perform call).2 = .ok ()) :
    Follows settings archive (cs ++ [call]) (s.perform call).1 := by
  obtain ⟨t, ht, hregistry, hlt, hcompleted⟩ := perform_run hcall hanswer
  obtain ⟨hconfigured, hruns⟩ := h.waiting (position_of_sealRegistry ht)
  have hsame : (cs ++ [call]).filterMap Call.enrolment? = cs.filterMap Call.enrolment? := by
    have hnone : call.enrolment? = none := by cases call <;> first | rfl | cases hcall
    rw [filterMap_concat, hnone, Option.toList_none, List.append_nil]
  refine ⟨?_, fun hle => absurd hlt hle.not_gt, fun hstage => ?_, fun today ids hc => ?_, ?_, ?_⟩
  · rw [hsame, hregistry]
    exact (hconfigured.sealRegistry ht).knows.registry
  · rw [hstage] at hlt
    exact absurd hlt (by decide)
  · rcases List.mem_append.mp hc with hc | hc
    · exact absurd rfl (List.countP_eq_zero.mp hruns _ hc)
    · exact hcompleted ⟨today, ids, (List.mem_singleton.mp hc).symm⟩
  · rw [hsame]
    exact h.onePrimary
  · simp [List.countP_append, hruns, hcall]

theorem step (h : Follows settings archive cs s) {call : Call}
    (hanswer : (s.perform call).2 = .ok ()) :
    Follows settings archive (cs ++ [call]) (s.perform call).1 := by
  cases hcall : call.isRun with
  | true => exact h.run hcall hanswer
  | false =>
    cases call with
    | run => cases hcall
    | breakOff => cases hcall
    | share isShared => exact h.share isShared
    | enrol e =>
      simp only [perform] at hanswer ⊢
      cases he : s.enrol e with
      | error => rw [he] at hanswer; cases hanswer
      | ok s' => exact h.enrol he
    | sealRegistry =>
      simp only [perform] at hanswer ⊢
      cases ht : s.sealRegistry with
      | error => rw [ht] at hanswer; cases hanswer
      | ok t => exact h.sealRegistry ht

/-- A session that follows its calls tells the rest of the story. -/
theorem lifeCycle {log : Log} (h : Follows settings archive (done log) s) : LifeCycle log s where
  forward := s.position_perform
  refused call _ := s.perform_refused call
  configuring e he := by
    by_contra hne
    simp [perform, enrol_of_ne hne] at he
  closed hends e := by
    have hne : s.stage ≠ .configuring := by
      obtain ⟨call, hcall, hends⟩ := hends
      intro hs
      rw [h.configuring hs call hcall] at hends
      cases hends
    simp [perform, enrol_of_ne hne]
  onePrimary := h.onePrimary
  oneRun := h.oneRun
  completed hrun call hcall := by
    obtain ⟨today, ids, hmem⟩ := hrun
    have hs := h.completed today ids hmem
    have hlt : 1 < s.stage.position := by rw [hs]; decide
    cases call with
    | enrol => simp [Call.isRun] at hcall
    | share => simp [Call.isRun] at hcall
    | sealRegistry => simp [perform, sealRegistry_of_lt hlt, hs]
    | run today ids => simp [perform, run_of_lt hlt, hs]
    | breakOff today ids moment => simp [perform, run_of_lt hlt, hs]
  namespaces := by
    have hperm := h.registry.namespaces_perm
    rwa [List.map_map] at hperm
  once := s.registry.spaces.nodup_keys
  declarations := by
    have hperm := h.registry.declarations_perm
    rwa [List.flatMap_map] at hperm
  ran today ids r hr := by
    obtain ⟨t, ht, -⟩ := run_ok hr
    obtain ⟨hconfigured, -⟩ := h.waiting (position_of_sealRegistry ht)
    exact ⟨hconfigured.knows.primary, hconfigured.knows.secondaries, run_reports hr⟩

end Follows

lemma done_append (log : Log) (call : Call) (answer : Except Refusal Unit) :
    done (log ++ [(call, answer)]) =
      match answer with
      | .ok () => done log ++ [call]
      | .error _ => done log := by
  cases answer <;> simp [done, accepted_append]

/-- **Every session lives like this**, whatever is called on it and in whatever order. -/
theorem every_life (settings : Settings) (archive : Option Archive) (calls : List Call) :
    let life := history perform { ofSettings settings with archive } calls
    LifeCycle life.2 life.1 := by
  intro life
  have hfollows : Follows settings archive (done life.2) life.1 := by
    refine history_inv (fun s log => Follows settings archive (done log) s) .fresh ?_ calls
    intro s log call h
    rw [done_append]
    cases hanswer : (s.perform call).2 with
    | error e => rwa [s.perform_refused call hanswer]
    | ok => exact h.step hanswer
  exact hfollows.lifeCycle

end Session

end Dossier
