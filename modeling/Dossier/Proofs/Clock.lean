import Dossier.Clock
import Mathlib.Data.List.Basic

/-!
The clock and its crew. The clock picks one move after the other, and its crew makes it; as long as
there is at least one place, it stops only when every collector has its status.
-/

namespace Dossier

/-! ### The clock moves its crew -/

namespace Clock

lemma crew_refill (cap : ℕ) (c : Clock) : (c.refill cap).crew = c.crew := by
  have hstore : (c.refill cap).store = c.store := rfl
  simp only [crew, task_refill, hstore]

lemma actAt_tasks (today : CivilDate) (now i : ℕ) (ts : List TimedTask) (s : Store) :
    ((actAt today now i ts s).1.map (·.task), (actAt today now i ts s).2) =
      Crew.actAt today i (ts.map (·.task)) s := by
  induction ts generalizing i with
  | nil => cases i <;> rfl
  | cons t ts ih =>
    cases i with
    | zero => rfl
    | succ i =>
      simp only [actAt, List.map_cons, Crew.actAt, ← ih i]

lemma expireAt_tasks (now i : ℕ) (ts : List TimedTask) :
    (expireAt now i ts).map (·.task) = Crew.expireAt i (ts.map (·.task)) := by
  induction ts generalizing i with
  | nil => cases i <;> rfl
  | cons t ts ih =>
    cases i with
    | zero => rfl
    | succ i => simp [expireAt, Crew.expireAt, ih i]

lemma crew_step (today : CivilDate) (c : Clock) (now : ℕ) (m : Move) :
    (c.step today now m).crew = c.crew.step today m := by
  cases m with
  | act i =>
    have h := actAt_tasks today now i c.tasks c.store
    simp only [step, crew, Crew.step, ← h]
  | expire i => simp [step, crew, Crew.step, expireAt_tasks]

/-! ### The clock stops when all is settled -/

/-- The sooner of the best moment so far and the next one. -/
def sooner (best : Option (ℕ × ℕ)) (e : Option ℕ × ℕ) : Option (ℕ × ℕ) :=
  match e.1, best with
  | none, best => best
  | some m, none => some (m, e.2)
  | some m, some (b, j) => if m < b then some (m, e.2) else some (b, j)

lemma foldl_sooner_none {es : List (Option ℕ × ℕ)} {best : Option (ℕ × ℕ)}
    (h : es.foldl sooner best = none) : best = none ∧ ∀ e ∈ es, e.1 = none := by
  induction es generalizing best with
  | nil => exact ⟨h, by simp⟩
  | cons e es ih =>
    obtain ⟨m, i⟩ := e
    obtain ⟨hbest, hes⟩ := ih h
    cases m with
    | none => exact ⟨hbest, by simpa using hes⟩
    | some m =>
      rcases best with _ | ⟨b, j⟩
      · cases hbest
      · simp only [sooner] at hbest
        split at hbest <;> cases hbest

lemma foldl_sooner_some {es : List (Option ℕ × ℕ)} {best : Option (ℕ × ℕ)} {m i : ℕ}
    (h : es.foldl sooner best = some (m, i)) : best = some (m, i) ∨ (some m, i) ∈ es := by
  induction es generalizing best with
  | nil => exact .inl h
  | cons e es ih =>
    rcases ih h with hbest | hmem
    · obtain ⟨a, j⟩ := e
      rcases a with _ | a
      · exact .inl hbest
      · rcases best with _ | ⟨b, k⟩
        · right
          simp only [sooner, Option.some.injEq, Prod.mk.injEq] at hbest
          obtain ⟨rfl, rfl⟩ := hbest
          exact List.mem_cons_self
        · simp only [sooner] at hbest
          split at hbest
          · right
            simp only [Option.some.injEq, Prod.mk.injEq] at hbest
            obtain ⟨rfl, rfl⟩ := hbest
            exact List.mem_cons_self
          · exact .inl hbest
    · exact .inr (List.mem_cons_of_mem _ hmem)

lemma earliest?_eq_foldl (moments : List (Option ℕ)) :
    earliest? moments = moments.zipIdx.foldl sooner none := rfl

lemma earliest?_none {moments : List (Option ℕ)} (h : earliest? moments = none) :
    ∀ m ∈ moments, m = none := by
  intro m hm
  obtain ⟨i, hi, rfl⟩ := List.getElem_of_mem hm
  rw [earliest?_eq_foldl] at h
  have hget := List.getElem?_eq_getElem hi
  exact (foldl_sooner_none h).2 _ (List.mk_mem_zipIdx_iff_getElem?.mpr hget)

lemma earliest?_some {moments : List (Option ℕ)} {m i : ℕ} (h : earliest? moments = some (m, i)) :
    moments[i]? = some (some m) := by
  rw [earliest?_eq_foldl] at h
  rcases foldl_sooner_some h with h | h
  · cases h
  · exact List.mk_mem_zipIdx_iff_getElem?.mp h

lemma next?_spec {c : Clock} {now : ℕ} {m : Move} (h : c.next? = some (now, m)) :
    c.allows m = true ∧
      ∀ i, (m = .act i ∨ m = .expire i) → ∀ t, c.tasks[i]? = some t → t.startedAt.isSome := by
  have hact : ∀ m j, earliest? (c.tasks.map (·.nextCall?)) = some (m, j) →
      c.allows (.act j) = true ∧ ∀ t, c.tasks[j]? = some t → t.startedAt.isSome := by
    intro m j hj
    have hget := earliest?_some hj
    rw [List.getElem?_map, Option.map_eq_some_iff] at hget
    obtain ⟨t, ht, hcall⟩ := hget
    simp only [TimedTask.nextCall?, Bool.and_eq_true] at hcall
    split at hcall
    · next hs => exact ⟨by simp [allows, ht, hs.2], by simp [ht, hs.1]⟩
    · cases hcall
  have hexpire : ∀ d i, earliest? (c.tasks.map (·.deadline?)) = some (d, i) →
      c.allows (.expire i) = true ∧ ∀ t, c.tasks[i]? = some t → t.startedAt.isSome := by
    intro d i hi
    have hget := earliest?_some hi
    rw [List.getElem?_map, Option.map_eq_some_iff] at hget
    obtain ⟨t, ht, hdead⟩ := hget
    simp only [TimedTask.deadline?] at hdead
    split at hdead
    · next hstart hstatus => exact ⟨by simp [allows, ht, hstatus], by simp [ht, hstart]⟩
    · cases hdead
  have hchoice : (∃ i, m = .act i ∧ ∃ d, earliest? (c.tasks.map (·.nextCall?)) = some (d, i)) ∨
      ∃ i, m = .expire i ∧ ∃ d, earliest? (c.tasks.map (·.deadline?)) = some (d, i) := by
    unfold next? at h
    split at h
    · next d i e j hd he =>
      split at h
      · cases h; exact .inr ⟨i, rfl, _, hd⟩
      · cases h; exact .inl ⟨j, rfl, _, he⟩
    · next d i hd he => cases h; exact .inr ⟨i, rfl, _, hd⟩
    · next e j hd he => cases h; exact .inl ⟨j, rfl, _, he⟩
    · cases h
  rcases hchoice with ⟨i, rfl, d, hd⟩ | ⟨i, rfl, d, hd⟩
  · refine ⟨(hact d i hd).1, ?_⟩
    rintro j (hj | hj)
    · cases hj; exact (hact d i hd).2
    · cases hj
  · refine ⟨(hexpire d i hd).1, ?_⟩
    rintro j (hj | hj)
    · cases hj
    · cases hj; exact (hexpire d i hd).2

/-- Whoever has not been started has no status yet. -/
def Fresh (ts : List TimedTask) : Prop := ∀ t ∈ ts, t.startedAt = none → t.task.status = none

lemma mem_actAt {today : CivilDate} {now i : ℕ} {ts : List TimedTask} {s : Store} {u : TimedTask}
    (h : u ∈ (actAt today now i ts s).1) :
    u ∈ ts ∨ ∃ t, ts[i]? = some t ∧ u.startedAt = t.startedAt := by
  induction ts generalizing i with
  | nil => cases i <;> cases h
  | cons t ts ih =>
    cases i with
    | zero =>
      rcases List.mem_cons.mp h with rfl | h
      · exact .inr ⟨t, rfl, rfl⟩
      · exact .inl (List.mem_cons_of_mem _ h)
    | succ i =>
      rcases List.mem_cons.mp h with rfl | h
      · exact .inl List.mem_cons_self
      · exact (ih h).imp (List.mem_cons_of_mem _) fun ⟨t, ht, he⟩ => ⟨t, by simpa using ht, he⟩

lemma mem_expireAt {now i : ℕ} {ts : List TimedTask} {u : TimedTask} (h : u ∈ expireAt now i ts) :
    u ∈ ts ∨ ∃ t, ts[i]? = some t ∧ u.startedAt = t.startedAt := by
  induction ts generalizing i with
  | nil => cases i <;> cases h
  | cons t ts ih =>
    cases i with
    | zero =>
      rcases List.mem_cons.mp h with rfl | h
      · exact .inr ⟨t, rfl, rfl⟩
      · exact .inl (List.mem_cons_of_mem _ h)
    | succ i =>
      rcases List.mem_cons.mp h with rfl | h
      · exact .inl List.mem_cons_self
      · exact (ih h).imp (List.mem_cons_of_mem _) fun ⟨t, ht, he⟩ => ⟨t, by simpa using ht, he⟩

lemma fresh_step {c : Clock} {now : ℕ} {m : Move} (today : CivilDate) (hc : Fresh c.tasks)
    (hm : c.next? = some (now, m)) : Fresh (c.step today now m).tasks := by
  have hstarted := (next?_spec hm).2
  have key : ∀ (i : ℕ) (u : TimedTask), (m = .act i ∨ m = .expire i) →
      (u ∈ c.tasks ∨ ∃ t, c.tasks[i]? = some t ∧ u.startedAt = t.startedAt) →
      u.startedAt = none → u.task.status = none := by
    rintro i u hi (hu | ⟨t, ht, he⟩) hnone
    · exact hc u hu hnone
    · have hs := hstarted i hi t ht
      rw [← he, hnone] at hs
      cases hs
  intro u hu
  cases m with
  | act i => exact key i u (.inl rfl) (mem_actAt hu)
  | expire i => exact key i u (.inr rfl) (mem_expireAt hu)

lemma mem_fill {now places : ℕ} {ts : List TimedTask} {u : TimedTask} (h : u ∈ fill now places ts) :
    u ∈ ts ∨ ∃ t ∈ ts, t.isWaiting = true ∧ u = t.startAt now := by
  induction ts generalizing places with
  | nil => cases places <;> cases h
  | cons t ts ih =>
    cases places with
    | zero => exact .inl h
    | succ places =>
      simp only [fill] at h
      split at h
      · next hw =>
        rcases List.mem_cons.mp h with rfl | h
        · exact .inr ⟨t, List.mem_cons_self, hw, rfl⟩
        · rcases ih h with hu | ⟨v, hv, hr⟩
          · exact .inl (List.mem_cons_of_mem _ hu)
          · exact .inr ⟨v, List.mem_cons_of_mem _ hv, hr⟩
      · rcases List.mem_cons.mp h with rfl | h
        · exact .inl List.mem_cons_self
        · rcases ih h with hu | ⟨v, hv, hr⟩
          · exact .inl (List.mem_cons_of_mem _ hu)
          · exact .inr ⟨v, List.mem_cons_of_mem _ hv, hr⟩

lemma fresh_refill {c : Clock} (cap : ℕ) (hc : Fresh c.tasks) : Fresh (c.refill cap).tasks := by
  intro u hu hnone
  rcases mem_fill hu with hu | ⟨t, -, -, rfl⟩
  · exact hc u hu hnone
  · cases hnone

lemma exists_startAt {ts : List TimedTask} {t : TimedTask} (ht : t ∈ ts)
    (hw : t.isWaiting = true) (now places : ℕ) :
    ∃ u ∈ ts, u.isWaiting = true ∧ u.startAt now ∈ fill now (places + 1) ts := by
  induction ts with
  | nil => cases ht
  | cons v ts ih =>
    simp only [fill]
    split
    · next hv => exact ⟨v, List.mem_cons_self, hv, List.mem_cons_self⟩
    · next hv =>
      rcases List.mem_cons.mp ht with rfl | ht
      · exact absurd hw hv
      · obtain ⟨u, hu, huw, hmem⟩ := ih ht
        exact ⟨u, List.mem_cons_of_mem _ hu, huw, List.mem_cons_of_mem _ hmem⟩

lemma exists_running {cap : ℕ} (hcap : 0 < cap) {c : Clock} (hc : Fresh c.tasks) {t : TimedTask}
    (ht : t ∈ (c.refill cap).tasks) (hw : t.startedAt = none) :
    ∃ u ∈ (c.refill cap).tasks, u.isRunning = true := by
  have hold : t ∈ c.tasks := by
    rcases mem_fill ht with ht | ⟨u, -, -, rfl⟩
    · exact ht
    · cases hw
  set running := (c.tasks.filter (·.isRunning)).length with hrunning
  have htasks : (c.refill cap).tasks = fill c.now (cap - running) c.tasks := rfl
  rw [htasks]
  obtain hfull | ⟨places, hplaces⟩ : cap - running = 0 ∨ ∃ places, cap - running = places + 1 := by
    rcases h : cap - running with _ | places
    · exact .inl rfl
    · exact .inr ⟨places, rfl⟩
  · have hpos : 0 < (c.tasks.filter (·.isRunning)).length := by omega
    obtain ⟨u, hu⟩ := List.exists_mem_of_length_pos hpos
    obtain ⟨hu, hr⟩ := List.mem_filter.mp hu
    have hfill : fill c.now 0 c.tasks = c.tasks := by cases c.tasks <;> rfl
    rw [hfull, hfill]
    exact ⟨u, hu, hr⟩
  · have hwaits : t.isWaiting = true := by simp [TimedTask.isWaiting, hw]
    obtain ⟨u, hu, huw, hmem⟩ := exists_startAt hold hwaits c.now places
    rw [hplaces]
    refine ⟨_, hmem, ?_⟩
    have hstatus : u.task.status = none := hc u hu (by simpa [TimedTask.isWaiting] using huw)
    simp [TimedTask.isRunning, TimedTask.startAt, hstatus]

lemma settled_of_next?_none {cap : ℕ} (hcap : 0 < cap) {c : Clock} (hc : Fresh c.tasks)
    (hnext : (c.refill cap).next? = none) :
    ∀ t ∈ (c.refill cap).tasks, t.task.status.isSome = true := by
  have hdead : ∀ t ∈ (c.refill cap).tasks, t.deadline? = none := by
    intro t ht
    unfold next? at hnext
    split at hnext
    · split at hnext <;> cases hnext
    · cases hnext
    · cases hnext
    · next hd _ => exact earliest?_none hd _ (List.mem_map_of_mem ht)
  have hidle : ∀ t ∈ (c.refill cap).tasks, t.isRunning = false := by
    intro t ht
    have h := hdead t ht
    cases hs : t.startedAt with
    | none => simp [TimedTask.isRunning, hs]
    | some start =>
      cases hst : t.task.status with
      | none => simp [TimedTask.deadline?, hs, hst] at h
      | some st => simp [TimedTask.isRunning, hst]
  intro t ht
  by_contra hnone
  have hstatus : t.task.status = none := by simpa using hnone
  have hwait : t.startedAt = none := by
    by_contra hs
    have hrun := hidle t ht
    simp [TimedTask.isRunning, hstatus, hs] at hrun
  obtain ⟨u, hu, hr⟩ := exists_running hcap hc ht hwait
  rw [hidle u hu] at hr
  cases hr

/-- **Every run settles**: in the end all collectors have their status. -/
theorem settled_run (today : CivilDate) {cap : ℕ} (hcap : 0 < cap) (c : Clock)
    (hc : Fresh c.tasks) : ∀ t ∈ (c.run today cap).tasks, t.task.status.isSome = true := by
  fun_induction run today cap c with
  | case1 c hnext => exact settled_of_next?_none hcap hc hnext
  | case2 c now m hnext hallows ih => exact ih (fresh_step today (fresh_refill cap hc) hnext)
  | case3 c now m hnext hallows => exact absurd (next?_spec hnext).1 hallows

end Clock

end Dossier
