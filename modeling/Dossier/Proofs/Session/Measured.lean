import Dossier.Proofs.Metrics
import Dossier.Proofs.Session.LifeCycle
import Dossier.Proofs.Session.Outcomes

/-!
Metrics of a session and of the queries on its report. Every outcome of a collector that was at work
was recorded once, under its own namespace, and nothing was recorded of a collector that was
skipped. The namespaces are apart, so that no two collectors share a series.
-/

namespace Dossier

lemma flatMap_eq_of_apart {α β γ : Type} {key : α → γ} {f : α → List β} {as : List α}
    (h : (as.map key).Nodup) {a : α} (ha : a ∈ as) (hf : ∀ b, key b ≠ key a → f b = []) :
    as.flatMap f = f a := by
  obtain ⟨before, after, rfl⟩ := List.append_of_mem ha
  rw [List.map_append, List.map_cons, List.nodup_middle, List.nodup_cons, ← List.map_append] at h
  have hnone : ∀ b ∈ before ++ after, f b = [] := fun b hb =>
    hf b fun heq => h.1 (List.mem_map.mpr ⟨b, hb, heq⟩)
  rw [List.flatMap_append, List.flatMap_cons,
    List.flatMap_eq_nil_iff.mpr fun b hb => hnone b (List.mem_append_left _ hb),
    List.flatMap_eq_nil_iff.mpr fun b hb => hnone b (List.mem_append_right _ hb)]
  simp

namespace Outcome

/-- What is recorded of a collector: nothing if it was skipped. -/
def recorded (o : Outcome) : List Measurement := if o.status = .skipped then [] else o.measurements

/-- The tag of the failure, if it is one. -/
def reason? (o : Outcome) : Option String :=
  match o.status with
  | .failed failure => some failure.tag
  | _ => none

/-- **What a recorder holds of a collector** that was at work. -/
structure Tallied (o : Outcome) (m : Recorder) : Prop where
  succeeded : m.counter? ⟨.collectorsSucceeded, [o.space]⟩ =
    if o.status = .success then some 1 else none
  failed : ∀ reason, m.counter? ⟨.collectorsFailed, [o.space, reason]⟩ =
    if o.reason? = some reason then some 1 else none
  duration : m.samples? ⟨.collectorDuration, [o.space]⟩ =
    some [Float.ofNat o.elapsed / 1000000000.0]
  written : m.counter? ⟨.observationsWritten, [o.space]⟩ = some o.written
  rejected : m.counter? ⟨.observationsRejected, [o.space]⟩ = some o.rejected.length

variable {o : Outcome} {m : Measurement}

lemma recorded_of_atWork (h : o.status ≠ .skipped) : o.recorded = o.measurements := if_neg h

lemma recorded_of_skipped (h : o.status = .skipped) : o.recorded = [] := if_pos h

lemma label_recorded (hm : m ∈ o.recorded) :
    o.status ≠ .skipped ∧ m.series.labels.head? = some o.space := by
  by_cases h : o.status = .skipped
  · rw [recorded_of_skipped h] at hm
    cases hm
  · rw [recorded_of_atWork h, measurements] at hm
    refine ⟨h, ?_⟩
    simp only [List.mem_cons, List.not_mem_nil, or_false] at hm
    rcases hm with rfl | rfl | rfl | rfl
    · rfl
    · rfl
    · split <;> rfl
    · rfl

/-- The measurements of a collector, taken alone, tell what became of it: its metrics differ in
their names. -/
lemma tallied_measurements (h : o.status ≠ .skipped) : o.Tallied (.ofList o.measurements) := by
  constructor
  all_goals
    cases hstatus : o.status with
    | skipped => exact absurd hstatus h
    | success | failed failure =>
      simp +contextual [Recorder.counter?_ofList, Recorder.samples?_ofList, Measurement.added?,
        Measurement.sampled?, nonempty?, measurements, reason?, hstatus, Metric.collection,
        Metric.collectorsSucceeded, Metric.collectorsFailed, Metric.collectorDuration,
        Metric.observationsWritten, Metric.observationsRejected]

lemma Tallied.congr {r r' : Recorder} (h : o.Tallied r)
    (hsame : ∀ x : Series, x.labels.head? = some o.space → r'.AgreeOn r x) : o.Tallied r' where
  succeeded := (hsame _ rfl).counter.trans h.succeeded
  failed reason := (hsame _ rfl).counter.trans (h.failed reason)
  duration := (hsame _ rfl).samples.trans h.duration
  written := (hsame _ rfl).counter.trans h.written
  rejected := (hsame _ rfl).counter.trans h.rejected

end Outcome

namespace Report

def headcount (r : Report) : Measurement :=
  .set ⟨.individuals, []⟩ (Float.ofNat r.individuals.length)

/-- What was recorded by the end of a session with this report. -/
def measurements (r : Report) : List Measurement :=
  r.primary.toList.flatMap Outcome.recorded ++
    r.headcount :: r.secondaries.flatMap Outcome.recorded

def asked (r : Report) (qs : List Requirements) : List Measurement :=
  qs.flatMap fun q => q.measurements r.registry r.individuals

/-- **The metrics agree with the report** of a session and with queries on it. -/
structure Agrees (r : Report) (qs : List Requirements) (m : Recorder) : Prop where
  atWork : ∀ o ∈ r.outcomes, o.status ≠ .skipped → o.Tallied m
  /-- Nothing was recorded of a collector that was skipped, under any spelling of its namespace. -/
  skipped : ∀ o ∈ r.outcomes, o.status = .skipped → ∀ x : Series, ∀ n,
    x.labels.head? = some n → normalNamespace n = normalNamespace o.space → m.Lacks x
  nobody : ∀ x : Series, ∀ n, x.labels.head? = some n →
    (∀ o ∈ r.outcomes, o.status ≠ .skipped → o.space ≠ n) → m.Lacks x
  individuals : m.gauge? ⟨.individuals, []⟩ = some (Float.ofNat r.individuals.length)
  queries : m.counter? ⟨.queries, []⟩ = (nonempty? qs).map List.length
  candidates : m.samples? ⟨.candidates, []⟩ = (nonempty? qs).map (List.map fun q =>
    Float.ofNat (r.individuals.filter fun i => i.attends q.event).length)
  found : m.samples? ⟨.found, []⟩ = (nonempty? qs).map (List.map fun q =>
    Float.ofNat ((r.select q).toOption.getD []).length)
  unsatisfiable : m.counter? ⟨.unsatisfiable, []⟩ =
    (nonempty? (qs.filter fun q => !(r.select q).isOk)).map List.length

variable {r : Report} {qs : List Requirements} {x : Series}

lemma labels_asked {m : Measurement} (hm : m ∈ r.asked qs) : m.series.labels = [] := by
  obtain ⟨q, -, hm⟩ := List.mem_flatMap.mp hm
  simp only [Requirements.measurements, List.mem_append, List.mem_cons, List.not_mem_nil,
    or_false] at hm
  rcases hm with (rfl | rfl | rfl) | hm
  · rfl
  · rfl
  · rfl
  · split at hm
    · cases hm
    · obtain rfl := List.mem_singleton.mp hm
      rfl

lemma filter_labelled (hx : x.labels ≠ []) :
    (r.measurements ++ r.asked qs).filter (·.series = x) =
      r.outcomes.flatMap fun o => o.recorded.filter (·.series = x) := by
  have hasked : (r.asked qs).filter (·.series = x) = [] := by
    simp only [List.filter_eq_nil_iff, decide_eq_true_eq]
    rintro m hm rfl
    exact hx (labels_asked hm)
  have hheadcount : r.headcount.series ≠ x := by
    rintro rfl
    exact hx rfl
  rw [List.filter_append, hasked, List.append_nil, measurements, List.filter_append,
    List.filter_cons_of_neg (by simpa using hheadcount), outcomes, List.flatMap_append,
    List.filter_flatMap, List.filter_flatMap]

lemma filter_unlabelled (hx : x.labels = []) :
    (r.measurements ++ r.asked qs).filter (·.series = x) =
      (r.headcount :: r.asked qs).filter (·.series = x) := by
  have hnone : ∀ os : List Outcome, (os.flatMap Outcome.recorded).filter (·.series = x) = [] := by
    intro os
    simp only [List.filter_eq_nil_iff, decide_eq_true_eq, List.mem_flatMap]
    rintro m ⟨o, -, hm⟩ rfl
    have hlabel := (Outcome.label_recorded hm).2
    rw [hx] at hlabel
    cases hlabel
  rw [measurements, List.append_assoc, List.filter_append, hnone, List.nil_append, List.cons_append,
    List.filter_cons, List.filter_cons, List.filter_append, hnone, List.nil_append]

lemma agreeOn_outcome (hapart : (r.outcomes.map (·.space)).Nodup) {o : Outcome}
    (ho : o ∈ r.outcomes) (hatWork : o.status ≠ .skipped) (hx : x.labels.head? = some o.space) :
    (Recorder.ofList (r.measurements ++ r.asked qs)).AgreeOn (.ofList o.measurements) x := by
  have hlabels : x.labels ≠ [] := List.ne_nil_of_mem (List.mem_of_head? hx)
  refine Recorder.agreeOn_of_filter ?_
  -- no other outcome has the label of this one
  rw [filter_labelled hlabels, flatMap_eq_of_apart hapart ho, Outcome.recorded_of_atWork hatWork]
  intro o' hne
  simp only [List.filter_eq_nil_iff, decide_eq_true_eq]
  rintro m hm rfl
  exact hne (Option.some.inj ((Outcome.label_recorded hm).2.symm.trans hx))

lemma lacks_label {n : String} (hx : x.labels.head? = some n)
    (hnobody : ∀ o ∈ r.outcomes, o.status ≠ .skipped → o.space ≠ n) :
    (Recorder.ofList (r.measurements ++ r.asked qs)).Lacks x := by
  have hlabels : x.labels ≠ [] := List.ne_nil_of_mem (List.mem_of_head? hx)
  refine Recorder.lacks_ofList fun m hm hseries => ?_
  have hmem : m ∈ (r.measurements ++ r.asked qs).filter (·.series = x) :=
    List.mem_filter.mpr ⟨hm, decide_eq_true hseries⟩
  rw [filter_labelled hlabels, List.mem_flatMap] at hmem
  obtain ⟨o, ho, hmo⟩ := hmem
  obtain ⟨hatWork, hlabel⟩ := Outcome.label_recorded (List.mem_of_mem_filter hmo)
  rw [hseries] at hlabel
  exact hnobody o ho hatWork (Option.some.inj (hlabel.symm.trans hx))

lemma agreeOn_asked (hx : x.labels = []) :
    (Recorder.ofList (r.measurements ++ r.asked qs)).AgreeOn
      (.ofList (r.headcount :: r.asked qs)) x :=
  Recorder.agreeOn_of_filter (filter_unlabelled hx)

/-! ### Queries -/

lemma filterMap_asked {β : Type} (event? : Measurement → Option β) (f : Requirements → List β)
    (h : ∀ q : Requirements, (q.measurements r.registry r.individuals).filterMap event? = f q) :
    (r.asked qs).filterMap event? = qs.flatMap f := by
  rw [asked, List.filterMap_flatMap]
  exact congrArg qs.flatMap (funext h)

lemma added_queries (r : Report) (qs : List Requirements) :
    (r.asked qs).filterMap (·.added? ⟨.queries, []⟩) = qs.map fun _ => 1 := by
  rw [List.map_eq_flatMap]
  refine filterMap_asked _ _ fun q => ?_
  simp only [Requirements.measurements]
  cases q.select r.registry r.individuals <;>
    simp [Measurement.added?, Metric.queries, Metric.unsatisfiable, Metric.evaluation]

lemma sampled_candidates (r : Report) (qs : List Requirements) :
    (r.asked qs).filterMap (·.sampled? ⟨.candidates, []⟩) =
      qs.map fun q => Float.ofNat (q.candidates r.individuals).length := by
  rw [List.map_eq_flatMap]
  refine filterMap_asked _ _ fun q => ?_
  simp only [Requirements.measurements]
  cases q.select r.registry r.individuals <;>
    simp [Measurement.sampled?, Metric.candidates, Metric.found, Metric.evaluation]

lemma sampled_found (r : Report) (qs : List Requirements) :
    (r.asked qs).filterMap (·.sampled? ⟨.found, []⟩) =
      qs.map fun q => Float.ofNat ((r.select q).toOption.getD []).length := by
  rw [List.map_eq_flatMap]
  refine filterMap_asked _ _ fun q => ?_
  simp only [Requirements.measurements, select]
  cases q.select r.registry r.individuals <;>
    simp [Measurement.sampled?, Metric.candidates, Metric.found, Metric.evaluation]

lemma added_unsatisfiable (r : Report) (qs : List Requirements) :
    (r.asked qs).filterMap (·.added? ⟨.unsatisfiable, []⟩) =
      (qs.filter fun q => !(r.select q).isOk).map fun _ => 1 := by
  rw [filterMap_asked _ (fun q => if (r.select q).isOk then [] else [1])]
  · induction qs with
    | nil => rfl
    | cons q qs ih =>
      rw [List.flatMap_cons, ih]
      cases hq : (r.select q).isOk <;> simp [hq]
  · intro q
    simp only [Requirements.measurements]
    cases hq : r.select q <;> rw [select] at hq <;>
      simp [hq, Measurement.added?, Metric.queries, Metric.unsatisfiable, Metric.evaluation,
        Except.isOk, Except.toBool]

lemma assigned_asked (r : Report) (qs : List Requirements) :
    (r.asked qs).filterMap (·.assigned? ⟨.individuals, []⟩) = [] := by
  rw [filterMap_asked _ (fun _ => []), List.flatMap_eq_nil_iff]
  · exact fun _ _ => rfl
  · intro q
    simp only [Requirements.measurements]
    cases q.select r.registry r.individuals <;> simp [Measurement.assigned?]

lemma sum_map_one {α : Type} (as : List α) :
    (nonempty? (as.map fun _ => 1)).map List.sum = (nonempty? as).map List.length := by
  rw [nonempty?_map, Option.map_map]
  congr 1
  funext as
  simp

/-- **The metrics agree** with a report in which every outcome has a namespace of its own. -/
theorem agrees (h : (r.outcomes.map (normalNamespace ·.space)).Nodup) (qs : List Requirements) :
    r.Agrees qs (.ofList (r.measurements ++ r.asked qs)) where
  atWork o ho hatWork := (o.tallied_measurements hatWork).congr fun x hx =>
    agreeOn_outcome (nodup_spaces h) ho hatWork hx
  skipped o ho hskip x n hx hn := lacks_label hx fun o' ho' hatWork hspace => by
    have hsame : normalNamespace o'.space = normalNamespace o.space := by rw [hspace, hn]
    obtain rfl := List.inj_on_of_nodup_map h ho' ho hsame
    exact hatWork hskip
  nobody x n hx hnobody := lacks_label hx hnobody
  individuals := by
    rw [(agreeOn_asked rfl).gauge, Recorder.gauge?_ofList, List.filterMap_cons, assigned_asked]
    simp [headcount, Measurement.assigned?]
  queries := by
    rw [(agreeOn_asked rfl).counter, Recorder.counter?_ofList, List.filterMap_cons, added_queries]
    exact sum_map_one qs
  candidates := by
    rw [(agreeOn_asked rfl).samples, Recorder.samples?_ofList, List.filterMap_cons,
      sampled_candidates]
    exact nonempty?_map _ qs
  found := by
    rw [(agreeOn_asked rfl).samples, Recorder.samples?_ofList, List.filterMap_cons, sampled_found]
    exact nonempty?_map _ qs
  unsatisfiable := by
    rw [(agreeOn_asked rfl).counter, Recorder.counter?_ofList, List.filterMap_cons,
      added_unsatisfiable]
    exact sum_map_one _

end Report

namespace Session

variable {settings : Settings} {archive : Option Archive} {es : List Enrolment} {s : Session}
  {today : CivilDate} {ids : IdSupply} {ms : List (CivilDate × Move)} {r : Report}

/-! ### What a run records -/

lemma recorded_opening (s : Session) (today : CivilDate) (ids : IdSupply) :
    (s.opening today ids).outcome.toList.flatMap Outcome.recorded =
      ((s.opening today ids).outcome.map (·.measurements)).getD [] := by
  cases hp : s.primary with
  | none => simp [opening, hp]
  | some p =>
    obtain ⟨o, ho, -, hatWork⟩ := primary_outcome hp today ids
    simp [ho, Outcome.recorded_of_atWork hatWork]

lemma length_individuals (hr : s.MayReport today ids ms r) :
    r.individuals.length = (s.opening today ids).store.size := by
  have hids := congrArg List.length (ids_report hr)
  simpa [Report.individuals, Store.individuals, Store.size, Store.ids] using hids

/-- The secondary collectors are all recorded if there is somebody, and none of them otherwise. -/
lemma recorded_secondaries (hr : s.MayReport today ids ms r) :
    r.secondaries.flatMap Outcome.recorded =
      if (s.opening today ids).store.isEmpty then [] else
        r.secondaries.flatMap (·.measurements) := by
  have hempty : (s.opening today ids).store.isEmpty = true ↔ r.individuals = [] := by
    rw [← List.length_eq_zero_iff, length_individuals hr]
    simp [Store.isEmpty, Store.size]
  have hskipped := skipped_iff hr
  split
  · next h =>
    exact List.flatMap_eq_nil_iff.mpr fun o ho =>
      Outcome.recorded_of_skipped ((hskipped o ho).mpr (hempty.mp h))
  · next h =>
    refine List.flatMap_congr fun o ho => Outcome.recorded_of_atWork fun hskip => ?_
    exact h (hempty.mpr ((hskipped o ho).mp hskip))

lemma measurements_runSealed (s : Session) (today : CivilDate) (ids : IdSupply) :
    (s.runSealed today ids).measurements = (s.runSealed today ids).report.measurements := by
  obtain ⟨ms, hr, -⟩ := s.runSealed_reports today ids
  rw [Report.measurements, Report.headcount, hr.primary_eq, recorded_opening, length_individuals hr,
    recorded_secondaries hr]
  unfold runSealed
  by_cases hempty : (s.opening today ids).store.isEmpty = true <;> simp [hempty]

/-- **Metrics agree with reports.** What a session and the queries on its report leave in a recorder
that was empty agrees with the report; and so it is for every report that the session may end with,
whenever its collectors come to act. -/
theorem metrics_agree (h : Configured settings archive es s) (today : CivilDate) (ids : IdSupply)
    (qs : List Requirements) :
    (∃ run, s.run today ids = .ok run ∧
      run.report.Agrees qs (.ofList (run.measurements ++ run.report.asked qs))) ∧
    ∀ ms r, s.Reports today ids ms r → r.Agrees qs (.ofList (r.measurements ++ r.asked qs)) := by
  have hreports : ∀ ms r, s.Reports today ids ms r →
      r.Agrees qs (.ofList (r.measurements ++ r.asked qs)) := by
    rintro ms r ⟨t, hseal, hr⟩
    exact Report.agrees (nodup_outcomes (h.sealRegistry hseal).knows hr) qs
  refine ⟨?_, hreports⟩
  obtain ⟨t, hseal, hrun⟩ := h.runs today ids
  refine ⟨_, hrun, ?_⟩
  obtain ⟨ms, hms⟩ := run_reports hrun
  rw [measurements_runSealed]
  exact hreports _ _ hms

/-- One collector at work, whose namespace has blanks around it, and one query. -/
theorem visitors_agree : ∃ (s : Session) (run : Run),
    Configured .default none [.secondary padded, .primary visitors] s ∧
      s.run ⟨2024, 1, 1, by decide⟩ (.fresh fun _ => visitorId) = .ok run ∧
      run.report.Agrees [.forEvent (some "gala")]
        (.ofList (run.measurements ++ run.report.asked [.forEvent (some "gala")])) := by
  obtain ⟨s, hs⟩ : ∃ s, Configured .default none [.secondary padded, .primary visitors] s :=
    ⟨_, .enrol (.enrol .fresh rfl) rfl⟩
  obtain ⟨⟨run, hrun, hagrees⟩, -⟩ := metrics_agree hs ⟨2024, 1, 1, by decide⟩
    (.fresh fun _ => visitorId) [.forEvent (some "gala")]
  exact ⟨s, run, hs, hrun, hagrees⟩

end Session

end Dossier
