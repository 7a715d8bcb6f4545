import Dossier.Proofs.Session.Isolation
import Dossier.Proofs.Session.Outcomes
import Dossier.Proofs.Strokes

/-!
Reports of a session whose collectors write in strokes. Such a report is put together while others
may still be at work: the tallies of a collector are read at some time after its outcome was
settled, and not both at once. There is always a report with whole calls that says the same, except
that the tallies may miss one write, if it was under way when the outcome was settled.
-/

namespace Dossier

/-- An outcome that was put together under a schedule. -/
structure Strands.Tells (c : Strands) (i : ℕ) (ms : List (CivilDate × Move)) (o : Outcome) :
    Prop where
  ended : ∃ v, (c.schedule ms).strands[i]? = some v ∧ o.space = v.task.writer.space ∧
    v.task.status = some o.status
  written : ∃ u, c.Passes i ms u ∧ o.written = u.task.writer.written
  rejected : ∃ u, c.Passes i ms u ∧ o.rejected = u.task.writer.rejected

/-- An outcome `o` that is as `o'`, but if `late` it may miss the last write in its tallies. -/
structure Outcome.Misses (late : Prop) (o o' : Outcome) : Prop where
  space : o'.space = o.space
  status : o'.status = o.status
  written : o'.written = o.written ∨ late ∧ o'.written = o.written + 1
  rejected : o'.rejected = o.rejected ∨ late ∧ ∃ e, o'.rejected = o.rejected ++ [e]

namespace Session

variable {s : Session} {today : CivilDate} {ids : IdSupply} {ms : List (CivilDate × Move)}
  {r : Report} {store : Store}

/-- A session whose registry is sealed may end with this report, if its secondary collectors make
their strokes in this order. -/
inductive MayReportInStrokes (s : Session) (today : CivilDate) (ids : IdSupply) :
    List (CivilDate × Move) → Report → Prop where
  | skipped (h : (s.opening today ids).store.isEmpty = true) :
    MayReportInStrokes s today ids []
      ⟨(s.opening today ids).outcome, s.secondaries.map skip, (s.opening today ids).store⟩
  | enriched (ms : List (CivilDate × Move)) {outcomes : List Outcome}
      (h : (s.opening today ids).store.isEmpty = false)
      (hall : outcomes.length = s.secondaries.length)
      (hs : ∀ i o, outcomes[i]? = some o →
        (Strands.atRest (s.crew (s.opening today ids).store)).Tells i ms o) :
    MayReportInStrokes s today ids ms
      ⟨(s.opening today ids).outcome, outcomes,
        ((Strands.atRest (s.crew (s.opening today ids).store)).schedule ms).store⟩

def ReportsInStrokes (s : Session) (today : CivilDate) (ids : IdSupply)
    (ms : List (CivilDate × Move)) (r : Report) : Prop :=
  ∃ s', s.sealRegistry = .ok s' ∧ s'.MayReportInStrokes today ids ms r

lemma sound_atRest (s : Session) (store : Store) : (Strands.atRest (s.crew store)).Sound := by
  refine Strands.sound_atRest fun t ht => ?_
  obtain ⟨c, -, rfl⟩ := List.mem_map.mp ht
  rfl

lemma tells_of_settles {c : Strands} {c' : Crew} {t : Task} {i : ℕ} {o : Outcome}
    (hms : c.schedule ms = .atRest c') (ht : c'.tasks[i]? = some t) (h : t.Settles o) :
    c.Tells i ms o := by
  have hu : (c.schedule ms).strands[i]? = some ⟨t, .rest⟩ := by
    rw [hms]
    simp [Strands.atRest, ht]
  have hpasses : c.Passes i ms ⟨t, .rest⟩ := ⟨ms, [], by simp, hu, by simp [h.status]⟩
  exact ⟨⟨_, hu, h.space, h.status⟩, ⟨_, hpasses, h.written⟩, ⟨_, hpasses, h.rejected⟩⟩

/-- Reports with whole calls are among those in strokes. -/
theorem Reports.inStrokes (h : s.Reports today ids ms r) :
    ∃ ms', s.ReportsInStrokes today ids ms' r := by
  obtain ⟨s, hseal, h⟩ := h
  cases h with
  | skipped h => exact ⟨[], s, hseal, .skipped h⟩
  | @enriched ms outcomes h hs =>
    obtain ⟨ms', hms⟩ := Strands.exists_strokes (s.crew (s.opening today ids).store) ms
    have hlength : outcomes.length = s.secondaries.length := by
      rw [← hs.length_eq]
      exact (s.worksIn_schedule (s.opening today ids).store ms).length_eq.symm
    have hreport := MayReportInStrokes.enriched ms' h hlength fun i o ho => by
      obtain ⟨hi, rfl⟩ := List.getElem?_eq_some_iff.mp ho
      have hi' := hs.length_eq.symm ▸ hi
      exact tells_of_settles hms (List.getElem?_eq_getElem hi') (hs.get hi' hi)
    rw [hms] at hreport
    exact ⟨ms', s, hseal, hreport⟩

lemma MayReportInStrokes.primary_eq (h : s.MayReportInStrokes today ids ms r) :
    r.primary = (s.opening today ids).outcome := by
  cases h <;> rfl

lemma MayReportInStrokes.length_secondaries (h : s.MayReportInStrokes today ids ms r) :
    r.secondaries.length = s.secondaries.length := by
  cases h with
  | skipped => exact List.length_map _
  | enriched _ _ hall _ => exact hall

/-! ### Reports with whole calls -/

def outcomeAfter (t : Task) : Outcome :=
  ⟨t.writer.space, t.status.getD .skipped, t.writer.written, t.writer.rejected, 0⟩

lemma settles_outcomeAfter {t : Task} {st : Status} (h : t.status = some st) :
    t.Settles (outcomeAfter t) :=
  ⟨rfl, by simp [outcomeAfter, h], rfl, rfl⟩

lemma misses_expire_whole {c : Strands} {i : ℕ} {o : Outcome} (hc : c.Sound)
    (h : c.Tells i ms o) {v : Strand} (hv : (c.schedule ms).strands[i]? = some v) :
    v.whole.expire.status = some o.status ∧
      o.Misses (c.Overlaps i ms) (outcomeAfter v.whole.expire) := by
  obtain ⟨v', hv', hspace, hst⟩ := h.ended
  obtain rfl : v' = v := Option.some.inj (hv'.symm.trans hv)
  have hsound := (Strands.exists_whole_schedule hc ms).1 v' (List.mem_of_getElem? hv)
  have hstatus := Strand.status_expire_whole hsound hst
  refine ⟨hstatus, ?_, by simp [outcomeAfter, hstatus], ?_, ?_⟩
  · exact (v'.whole.space_expire.trans v'.space_whole).trans hspace.symm
  · obtain ⟨u, hu, hwritten⟩ := h.written
    rw [hwritten]
    exact (hu.misses hc hv).written
  · obtain ⟨u, hu, hrejected⟩ := h.rejected
    rw [hrejected]
    exact (hu.misses hc hv).rejected

/-- **A report in strokes** has the people of a report with whole calls in which all get the same
answers, and tells of every collector what that one tells, but for a write that was under way. -/
theorem exists_whole_report (h : s.MayReportInStrokes today ids ms r) :
    ∃ calls r', s.MayReport today ids calls r' ∧ r'.store = r.store ∧ r'.primary = r.primary ∧
      ((Strands.atRest (s.crew (s.opening today ids).store)).schedule ms).whole.journals =
        ((s.crew (s.opening today ids).store).schedule calls).journals ∧
      ∀ (i : ℕ) (o' : Outcome), r'.secondaries[i]? = some o' → ∃ o : Outcome,
        r.secondaries[i]? = some o ∧
          o.Misses ((Strands.atRest (s.crew (s.opening today ids).store)).Overlaps i ms) o' := by
  cases h with
  | skipped h =>
    refine ⟨[], _, .skipped h, rfl, rfl, ?_, fun i o ho => ⟨o, ho, rfl, rfl, .inl rfl, .inl rfl⟩⟩
    exact congrArg Crew.journals (Strands.whole_atRest _)
  | @enriched ms outcomes h hall hs =>
    have hc := s.sound_atRest (s.opening today ids).store
    have hcrew := Strands.whole_atRest (s.crew (s.opening today ids).store)
    have hcount : (Strands.atRest (s.crew (s.opening today ids).store)).strands.length =
        outcomes.length := by
      simp [Strands.atRest, crew, hall]
    generalize Strands.atRest (s.crew (s.opening today ids).store) = c at hs hc hcrew hcount ⊢
    obtain ⟨-, calls, hcalls⟩ := Strands.exists_whole_schedule hc ms
    obtain ⟨expiries, hexpiries⟩ := (c.whole.schedule calls).exists_expired today
    rw [← Crew.schedule_append, ← hcalls, hcrew] at hexpiries
    have hlength := (c.length_schedule ms).trans hcount
    have htells : ∀ i (hi : i < outcomes.length), ∃ v, (c.schedule ms).strands[i]? = some v ∧
        v.whole.expire.status = some outcomes[i].status ∧
        outcomes[i].Misses (c.Overlaps i ms) (outcomeAfter v.whole.expire) := by
      intro i hi
      have hget := List.getElem?_eq_getElem (hlength.symm ▸ hi)
      exact ⟨_, hget, misses_expire_whole hc (hs i _ (List.getElem?_eq_getElem hi)) hget⟩
    have hsettles : List.Forall₂ Task.Settles
        ((s.crew (s.opening today ids).store).schedule (calls ++ expiries)).tasks
        (((s.crew (s.opening today ids).store).schedule (calls ++ expiries)).tasks.map
          outcomeAfter) := by
      rw [List.forall₂_map_right_iff, List.forall₂_same]
      intro t ht
      rw [hexpiries] at ht
      obtain ⟨i, hi, rfl⟩ := List.mem_iff_getElem.mp ht
      have hi' : i < outcomes.length := by simpa [Strands.whole, hlength] using hi
      obtain ⟨v, hv, hst, -⟩ := htells i hi'
      obtain ⟨hlt, rfl⟩ := List.getElem?_eq_some_iff.mp hv
      simp only [Strands.whole, List.getElem_map]
      exact settles_outcomeAfter hst
    refine ⟨_, _, .enriched (calls ++ expiries) h hsettles, ?_, rfl, ?_, fun i o' ho' => ?_⟩
    · simp only [hexpiries]
      rfl
    · simp [hexpiries, Crew.journals, Function.comp_def]
    · obtain ⟨hi', -⟩ := List.getElem?_eq_some_iff.mp ho'
      have hi : i < outcomes.length := by simpa [hexpiries, Strands.whole, hlength] using hi'
      obtain ⟨v, hv, -, hmisses⟩ := htells i hi
      have hsame : outcomeAfter v.whole.expire = o' := by
        simpa [hexpiries, Strands.whole, hv] using ho'
      exact ⟨_, List.getElem?_eq_getElem hi, hsame ▸ hmisses⟩

end Session

end Dossier
