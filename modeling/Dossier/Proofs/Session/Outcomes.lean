import Dossier.Proofs.Registry.Content
import Dossier.Proofs.Session.Enrolment
import Dossier.Proofs.Session.Opening
import Dossier.Proofs.Session.Reports
import Dossier.Proofs.Store.LastWrite

/-!
Outcomes by collector. A report has one outcome for each collector of the session, the primary
one's first. A collector that was at work is listed under the normal form of its namespace. One that
was skipped is listed in lower case only: blanks around its namespace stay, and then it is not
found under the normal form.
-/

namespace Dossier

/-- The outcome of a collector, by the namespace under which it is listed. -/
structure Enrolment.Listed (e : Enrolment) (o : Outcome) : Prop where
  atWork : o.status ≠ .skipped → normalNamespace e.space = .ok o.space
  skipped : o.status = .skipped → o.space = Text.lower e.space

namespace Enrolment.Listed

variable {e : Enrolment} {o : Outcome} {n : String}

lemma normalNamespace_eq (h : e.Listed o) (hn : normalNamespace e.space = .ok n) :
    normalNamespace o.space = .ok n := by
  by_cases hskip : o.status = .skipped
  · rw [h.skipped hskip]
    exact normalNamespace_lower hn
  · have ho := h.atWork hskip
    obtain rfl : o.space = n := Except.ok.inj (ho.symm.trans hn)
    exact isNormal_of_normalNamespace ho

/-- The normal form itself is listed, unless blanks were left around the namespace. -/
lemma space_eq_iff (h : e.Listed o) (hn : normalNamespace e.space = .ok n) :
    o.space = n ↔ ¬ (o.status = .skipped ∧ Text.trim e.space ≠ e.space) := by
  by_cases hskip : o.status = .skipped
  · rw [h.skipped hskip, lower_eq_iff_trim_eq hn]
    simp [hskip]
  · have hsame : o.space = n := Except.ok.inj ((h.atWork hskip).symm.trans hn)
    simp [hskip, hsame]

end Enrolment.Listed

/-- Where no two outcomes have the same normal form, each is found under its own, if it is listed
under it at all. -/
lemma Report.outcome?_eq {r : Report} (h : (r.outcomes.map fun o => normalNamespace o.space).Nodup)
    {o : Outcome} (ho : o ∈ r.outcomes) {n : String} (hn : normalNamespace o.space = .ok n) :
    r.outcome? n = if o.space = n then some o else none := by
  have hnormal := isNormal_of_normalNamespace hn
  unfold outcome?
  rw [hnormal.lower_eq]
  cases hf : r.outcomes.find? (·.space == n) with
  | some o' =>
    have hspace : o'.space = n := by simpa using List.find?_some hf
    have hmem := List.mem_of_find?_eq_some hf
    have heq : normalNamespace o'.space = normalNamespace o.space := by rw [hspace, hn, hnormal]
    obtain rfl := List.inj_on_of_nodup_map h hmem ho heq
    rw [if_pos hspace]
  | none =>
    have hne : o.space ≠ n := by simpa using List.find?_eq_none.mp hf o ho
    rw [if_neg hne]

lemma Report.nodup_spaces {r : Report}
    (h : (r.outcomes.map fun o => normalNamespace o.space).Nodup) :
    (r.outcomes.map (·.space)).Nodup := by
  have hspaces : ((r.outcomes.map (·.space)).map normalNamespace).Nodup := by rwa [List.map_map]
  exact hspaces.of_map

def Enrolment.isPrimary : Enrolment → Bool
  | primary _ => true
  | secondary _ => false

namespace Session

/-- The collectors as a report lists them: the primary one, if there is one, and then the secondary
ones, in the order in which they were registered. -/
def lineup (es : List Enrolment) : List Enrolment :=
  es.filter (·.isPrimary) ++ es.filter fun e => !e.isPrimary

lemma filter_primary (es : List Enrolment) :
    es.filter (·.isPrimary) = (es.filterMap Enrolment.primary?).map .primary := by
  induction es with
  | nil => rfl
  | cons e es ih =>
    cases e with
    | primary p => exact congrArg (Enrolment.primary p :: ·) ih
    | secondary c => exact ih

lemma filter_secondary (es : List Enrolment) :
    es.filter (fun e => !e.isPrimary) = (es.filterMap Enrolment.secondary?).map .secondary := by
  induction es with
  | nil => rfl
  | cons e es ih =>
    cases e with
    | primary p => exact ih
    | secondary c => exact congrArg (Enrolment.secondary c :: ·) ih

variable {settings : Settings} {archive : Option Archive} {es : List Enrolment} {s : Session}
  {today : CivilDate} {ids : IdSupply} {ms : List (CivilDate × Move)} {r : Report}

/-! ### The namespaces of outcomes -/

/-- A collector at work keeps its namespace, and no collector at work becomes one that was
skipped. -/
structure WorksIn (n : String) (t : Task) : Prop where
  space : t.writer.space = n
  atWork : t.status ≠ some .skipped

lemma WorksIn.act {n : String} {t : Task} (h : WorksIn n t) (today : CivilDate) (st : Store) :
    WorksIn n (t.act today st).1 := by
  refine ⟨(t.space_act today st).trans h.space, ?_⟩
  cases hst : t.status with
  | some status =>
    rw [Task.status_act hst, ← hst]
    exact h.atWork
  | none =>
    cases hr : t.rest with
    | none => simp [Task.act, hr, hst]
    | some a =>
      cases a with
      | pause =>
        simp only [Task.act, hr]
        split <;> simp [hst]
      | done | fail | crash | ready | put | putObservation | look =>
        simp [Task.act, hr, hst, Task.finish, Task.answered]

lemma WorksIn.expire {n : String} {t : Task} (h : WorksIn n t) : WorksIn n t.expire := by
  refine ⟨t.space_expire.trans h.space, ?_⟩
  cases hst : t.status with
  | none => simp [Task.status_expire_of_none hst]
  | some status =>
    rw [Task.expire_of_some hst]
    exact h.atWork

lemma worksIn_schedule (s : Session) (store : Store) (ms : List (CivilDate × Move)) :
    List.Forall₂ (fun c t => WorksIn (Text.lower (runningNamespace c.space)) t) s.secondaries
      ((s.crew store).schedule ms).tasks := by
  refine Crew.forall₂_schedule (fun _ _ today st h => h.act today st) (fun _ _ h => h.expire) ?_ ms
  rw [crew, List.forall₂_map_right_iff]
  exact List.forall₂_same.mpr fun c _ => ⟨rfl, by simp [Task.start]⟩

structure AtWork (c : Secondary) (o : Outcome) : Prop where
  space : o.space = Text.lower (runningNamespace c.space)
  status : o.status ≠ .skipped

lemma forall₂_atWork {cs : List Secondary} {ts : List Task} {os : List Outcome}
    (hworks : List.Forall₂ (fun c t => WorksIn (Text.lower (runningNamespace c.space)) t) cs ts)
    (hsettles : List.Forall₂ Task.Settles ts os) : List.Forall₂ AtWork cs os := by
  induction hworks generalizing os with
  | nil => cases hsettles; exact .nil
  | cons hwork _ ih =>
    cases hsettles with
    | cons hsettle hsettles =>
      refine .cons ⟨hsettle.space.trans hwork.space, fun hskip => ?_⟩ (ih hsettles)
      exact hwork.atWork (hsettle.status.trans (congrArg some hskip))

lemma primary_outcome {p : Primary} (hp : s.primary = some p) (today : CivilDate)
    (ids : IdSupply) : ∃ o, (s.opening today ids).outcome = some o ∧
      o.space = runningNamespace p.space ∧ o.status ≠ .skipped := by
  simp only [opening, hp, runPrimary_eq, Gathered.store]
  split
  · exact ⟨_, rfl, rfl, by simp⟩
  · exact ⟨_, rfl, rfl, by simp [materialise]⟩

lemma listed_primary (h : Knows settings archive es s) (today : CivilDate) (ids : IdSupply) :
    List.Forall₂ Enrolment.Listed (es.filter (·.isPrimary))
      (s.opening today ids).outcome.toList := by
  rw [filter_primary, ← h.primary]
  cases hp : s.primary with
  | none => simp [opening, hp]
  | some p =>
    obtain ⟨o, ho, hspace, hstatus⟩ := primary_outcome hp today ids
    have hn := h.normal (e := .primary p) (h.primary_mem.mp hp)
    rw [ho]
    exact .cons ⟨fun _ => hspace ▸ hn, fun hskip => absurd hskip hstatus⟩ .nil

lemma listed_secondaries (h : Knows settings archive es s) (hr : s.MayReport today ids ms r) :
    List.Forall₂ Enrolment.Listed (es.filter fun e => !e.isPrimary) r.secondaries := by
  rw [filter_secondary, ← h.secondaries, List.forall₂_map_left_iff]
  cases hr with
  | skipped _ =>
    rw [List.forall₂_map_right_iff]
    exact List.forall₂_same.mpr fun c _ => ⟨fun hskip => absurd rfl hskip, fun _ => rfl⟩
  | enriched ms _ hsettles =>
    have hatWork := forall₂_atWork (s.worksIn_schedule (s.opening today ids).store ms) hsettles
    have hnormal : List.Forall₂ (fun c o => c ∈ s.secondaries ∧ AtWork c o) s.secondaries _ :=
      (List.forall₂_and_left _ _).mpr ⟨fun _ hc => hc, hatWork⟩
    refine hnormal.imp fun c o ⟨hc, ho⟩ => ⟨fun _ => ?_, fun hskip => absurd hskip ho.status⟩
    have hn := h.normal_secondary hc
    rw [ho.space, (isNormal_of_normalNamespace hn).lower_eq]
    exact hn

lemma listed (h : Knows settings archive es s) (hr : s.MayReport today ids ms r) :
    List.Forall₂ Enrolment.Listed (lineup es) r.outcomes := by
  rw [lineup, Report.outcomes, hr.primary_eq]
  exact List.rel_append (listed_primary h today ids) (listed_secondaries h hr)

/-! ### Every collector is accounted for -/

/-- What the outcomes of a report tell of the collectors `es` of its session. -/
structure Accounts (es : List Enrolment) (r : Report) : Prop where
  everyone : (lineup es).Perm es
  listed : List.Forall₂ Enrolment.Listed (lineup es) r.outcomes
  skipped : ∀ o ∈ r.secondaries, o.status = .skipped ↔ r.individuals = []
  namespaces : ∀ n, n ∈ r.registry.namespaces ↔ ∃ e ∈ es, normalNamespace e.space = .ok n
  apart : (r.outcomes.map (·.space)).Nodup
  found : List.Forall₂ (fun e o => ∀ n, normalNamespace e.space = .ok n → r.outcome? n =
    if o.status = .skipped ∧ Text.trim e.space ≠ e.space then none else some o)
    (lineup es) r.outcomes

lemma ids_perform (w : Writer) (st : Store) (today : CivilDate) (call : WriterCall) :
    (w.perform st today call).store.ids = st.ids := by
  rcases w.store_perform_cases st today call with h | ⟨a, -, h⟩
  · rw [h]
  · obtain ⟨-, -, -, -, h⟩ := Store.put_ok h
    rw [h, Store.ids_update]

lemma ids_report (hr : s.MayReport today ids ms r) :
    r.store.ids = (s.opening today ids).store.ids := by
  cases hr with
  | skipped _ => rfl
  | enriched ms _ _ => exact Crew.store_schedule ids_perform _ ms

lemma skipped_iff (hr : s.MayReport today ids ms r) :
    ∀ o ∈ r.secondaries, o.status = .skipped ↔ r.individuals = [] := by
  intro o ho
  have hids := ids_report hr
  cases hr with
  | skipped hempty =>
    obtain ⟨c, -, rfl⟩ := List.mem_map.mp ho
    have hnone : (s.opening today ids).store.entries = [] := by simpa [Store.isEmpty] using hempty
    simp [skip, Report.individuals, Store.individuals, hnone]
  | enriched ms hsome hsettles =>
    have hatWork := forall₂_atWork (s.worksIn_schedule (s.opening today ids).store ms) hsettles
    obtain ⟨hstatus, -⟩ := (List.forall₂_and_left _ _).mp
      (hatWork.flip.imp fun o c h => (⟨h.status, h.space⟩ : o.status ≠ .skipped ∧ _))
    have hsome : (s.opening today ids).store.ids ≠ [] := by
      simpa [Store.isEmpty, Store.ids] using hsome
    rw [← hids] at hsome
    simpa [hstatus o ho, Report.individuals, Store.individuals, Store.ids] using hsome

lemma registry_report (hr : s.MayReport today ids ms r) : r.registry = s.registry := by
  cases hr with
  | skipped _ => exact s.registry_opening today ids
  | enriched ms _ _ => exact (Crew.registry_schedule _ ms).trans (s.registry_opening today ids)

/-- The normal forms tell the outcomes apart, as they tell the collectors apart. -/
lemma nodup_outcomes (h : Knows settings archive es s) (hr : s.MayReport today ids ms r) :
    (r.outcomes.map (normalNamespace ·.space)).Nodup := by
  have heveryone : (lineup es).Perm es := List.filter_append_perm _ es
  have hnamed : List.Forall₂ (fun e o => normalNamespace e.space = .ok (runningNamespace e.space) ∧
      e.Listed o) (lineup es) r.outcomes :=
    (List.forall₂_and_left _ _).mpr ⟨fun e he => h.normal (heveryone.mem_iff.mp he), listed h hr⟩
  have hnames : (lineup es).map (normalNamespace ·.space) =
      r.outcomes.map (normalNamespace ·.space) := by
    rw [← List.forall₂_eq_eq_eq, List.forall₂_map_left_iff, List.forall₂_map_right_iff]
    exact hnamed.imp fun e o ⟨hn, ho⟩ => hn.trans (ho.normalNamespace_eq hn).symm
  rw [← hnames, (heveryone.map _).nodup_iff]
  exact h.nodup_namespaces

/-- **A report accounts for every collector** of its session, under any spelling of the namespaces
and whatever became of the primary collector: one outcome for each, no two under the same namespace.
A collector that was at work is listed and found under its normal form. One that was skipped is
listed in lower case, and is found under its normal form if no blanks are around it. -/
theorem accounts_for_all (h : Configured settings archive es s) (hr : s.Reports today ids ms r) :
    Accounts es r := by
  obtain ⟨t, hseal, hr⟩ := hr
  have hknows := (h.sealRegistry hseal).knows
  have hlisted := listed hknows hr
  refine ⟨List.filter_append_perm _ es, hlisted, skipped_iff hr, fun n => ?_,
    Report.nodup_spaces (nodup_outcomes hknows hr), ?_⟩
  · rw [registry_report hr, hknows.registry.mem_namespaces]
    simp [Enrolment.call]
  · have hmem : List.Forall₂ (fun o e => o ∈ r.outcomes ∧ Enrolment.Listed e o) r.outcomes
        (lineup es) := (List.forall₂_and_left _ _).mpr ⟨fun _ ho => ho, hlisted.flip⟩
    refine hmem.flip.imp fun e o ⟨ho, he⟩ n hn => ?_
    rw [Report.outcome?_eq (nodup_outcomes hknows hr) ho (he.normalNamespace_eq hn)]
    simp only [he.space_eq_iff hn, ite_not]

/-! ### A collector with blanks around its namespace -/

def visitorId : Uuid := ⟨List.replicate 32 ⟨3, by decide⟩, rfl⟩

def visitors : Primary :=
  ⟨"Visitors", [], none, .individuals [.ofPerson (.named "Ann" "Lee") (some visitorId)]⟩

def padded : Secondary := ⟨" FB ", [], none, fun _ => .ready .done⟩

/-- At work it is found under its normal form. -/
theorem accounts_padded : ∃ (s : Session) (r : Report),
    s.Reports ⟨2024, 1, 1, by decide⟩ (.fresh fun _ => visitorId)
      [(⟨2024, 1, 1, by decide⟩, .act 0), (⟨2024, 1, 1, by decide⟩, .act 0)] r ∧
    r.individuals ≠ [] ∧ (r.outcome? "fb").map (·.space) = some "fb" ∧
    Accounts [.secondary padded, .primary visitors] r := by
  have hsession : ∃ s, Configured .default none [.secondary padded, .primary visitors] s ∧
      ∃ r : Report, s.Reports ⟨2024, 1, 1, by decide⟩ (.fresh fun _ => visitorId)
        [(⟨2024, 1, 1, by decide⟩, .act 0), (⟨2024, 1, 1, by decide⟩, .act 0)] r ∧
        r.individuals ≠ [] ∧ (r.outcome? "fb").map (·.space) = some "fb" :=
    ⟨_, .enrol (.enrol .fresh rfl) rfl, ⟨_, _, _⟩,
      ⟨_, rfl, .enriched _ rfl (.cons (b := ⟨_, _, _, _, 0⟩) ⟨rfl, rfl, rfl, rfl⟩ .nil)⟩,
      by decide, rfl⟩
  obtain ⟨s, hs, r, hr, hsome, hfound⟩ := hsession
  exact ⟨s, r, hr, hsome, hfound, accounts_for_all hs hr⟩

/-- Skipped, as there is no primary collector, it is listed with its blanks and not found. -/
theorem padded_not_found : ∃ (s : Session) (r : Report),
    Configured .default none [.secondary padded] s ∧
    s.Reports ⟨2024, 1, 1, by decide⟩ (.fresh fun _ => visitorId) [] r ∧
    r.registry.namespaces = ["fb"] ∧ r.outcomes.map (·.space) = [" fb "] ∧
    r.outcome? "fb" = none :=
  ⟨_, _, .enrol .fresh rfl, ⟨_, rfl, .skipped rfl⟩, rfl, rfl, rfl⟩

end Session

end Dossier
