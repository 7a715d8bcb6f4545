import Dossier.Proofs.Clock
import Dossier.Proofs.Deeds

/-!
The clock as a scheduler, and its budgets. Of a collector that has started, the next call is due
when the time of its deeds and of that call have passed; its budget runs out first if they exceed
it. So the clock's schedule is on time: a collector at work performs its next call if it stays
within the budget, and is broken off otherwise.
-/

namespace Dossier

/-- How long deeds took, in nanoseconds. -/
def Deed.total (ds : List Deed) : ℕ := (ds.map Deed.nanos).sum

namespace Crew

variable {c : Crew} {i : ℕ}

/-- The next move about a collector at work is a call if the collector stays within its budget with
it, and else its budget runs out. Collectors may have `spent` some of it before. -/
def OnTime (spent : ℕ → ℕ) (c : Crew) (ms : List (CivilDate × Move)) : Prop :=
  ∀ before today m after, ms = before ++ (today, m) :: after →
    ∀ t, (c.schedule before).tasks[m.index]? = some t → t.status = none →
      (m = .expire m.index ↔ t.budget.toNanos ≤
        spent m.index + Deed.total (c.deeds m.index before) + TimedTask.delay t)

/-- What a collector has spent after a move. -/
def spend (c : Crew) (today : CivilDate) (m : Move) (spent : ℕ → ℕ) (i : ℕ) : ℕ :=
  spent i + Deed.total (c.deed? i today m).toList

lemma onTime_nil (spent : ℕ → ℕ) (c : Crew) : c.OnTime spent [] :=
  fun before day m after hms => absurd hms (by simp)

lemma OnTime.cons {spent : ℕ → ℕ} {today : CivilDate} {m : Move} {ms : List (CivilDate × Move)}
    (hnow : ∀ t, c.tasks[m.index]? = some t → t.status = none →
      (m = .expire m.index ↔ t.budget.toNanos ≤ spent m.index + TimedTask.delay t))
    (h : OnTime (c.spend today m spent) (c.step today m) ms) :
    OnTime spent c ((today, m) :: ms) := by
  intro before day m' after hms t ht hst
  cases before with
  | nil =>
    obtain ⟨⟨rfl, rfl⟩, rfl⟩ := by simpa using hms
    simpa [deeds, Deed.total] using hnow t ht hst
  | cons first before =>
    obtain ⟨rfl, rfl⟩ := by simpa using hms
    have hlater := h before day m' after rfl t ht hst
    simpa [deeds, spend, Deed.total, Nat.add_assoc] using hlater

lemma budget_schedule {t u : Task} (ht : c.tasks[i]? = some t) {ms : List (CivilDate × Move)}
    (hu : (c.schedule ms).tasks[i]? = some u) : u.budget = t.budget := by
  have hact (a t : Task) (today : CivilDate) (s : Store) (h : t.budget = a.budget) :
      (t.act today s).1.budget = a.budget := by
    rw [← h]
    unfold Task.act
    split <;> first | rfl | (split <;> rfl)
  have hexpire (a t : Task) (h : t.budget = a.budget) : t.expire.budget = a.budget := by
    rw [← h]
    unfold Task.expire
    split <;> rfl
  have hall := forall₂_schedule hact hexpire
    (List.forall₂_same.mpr fun t _ => rfl : List.Forall₂ (fun a t => t.budget = a.budget) c.tasks _)
    ms
  obtain ⟨hlt, rfl⟩ := List.getElem?_eq_some_iff.mp ht
  obtain ⟨hlt', rfl⟩ := List.getElem?_eq_some_iff.mp hu
  exact hall.get hlt hlt'

/-- **On time**, a budget runs out just when it is spent by the end of the next call. -/
theorem expired_iff {k : Course} {ms : List (CivilDate × Move)} {t : Task} (hk : c.Takes i ms k)
    (h : c.OnTime (fun _ => 0) ms) (ht : c.tasks[i]? = some t) :
    k.expired = true ↔ t.budget.toNanos ≤ Deed.total k.deeds + k.next.delay := by
  obtain ⟨before, today, after, u, rfl, hu, hnone, hrest, -, hdeeds, -⟩ := hk
  have hindex : (k.settling i).index = i := by
    unfold Course.settling
    split <;> rfl
  have hexpire : k.settling i = .expire i ↔ k.expired = true := by
    unfold Course.settling
    split <;> simp_all
  have hdelay : TimedTask.delay u = k.next.delay := by
    unfold TimedTask.delay Activity.delay
    rw [hrest]
    cases k.next <;> rfl
  have htime := h before today (k.settling i) after rfl u (hindex.symm ▸ hu) hnone
  rwa [hindex, hexpire, budget_schedule ht hu, hdeeds, hdelay, Nat.zero_add] at htime

end Crew

lemma Task.nanos_deed? (t : Task) (today : CivilDate) (s : Store) :
    Deed.total (t.deed? today s).toList = TimedTask.delay t := by
  unfold Task.deed? TimedTask.delay
  split <;> simp_all [Deed.total, Deed.nanos]

namespace Clock

variable {c : Clock} {cap : ℕ}

/-! ### What is due first -/

lemma foldl_sooner_le {es : List (Option ℕ × ℕ)} {best : Option (ℕ × ℕ)} {m i : ℕ}
    (h : es.foldl sooner best = some (m, i)) :
    (∀ b j, best = some (b, j) → m ≤ b) ∧ ∀ x j, (some x, j) ∈ es → m ≤ x := by
  induction es generalizing best with
  | nil =>
    obtain rfl : best = some (m, i) := h
    exact ⟨fun b j hb => by cases hb; exact le_rfl, fun x j hx => absurd hx List.not_mem_nil⟩
  | cons e es ih =>
    obtain ⟨hbest, hes⟩ := ih h
    have hsooner : (∀ b j, best = some (b, j) → ∃ b' j', sooner best e = some (b', j') ∧ b' ≤ b) ∧
        ∀ x j, e = (some x, j) → ∃ b' j', sooner best e = some (b', j') ∧ b' ≤ x := by
      obtain ⟨_ | a, k⟩ := e <;> rcases best with _ | ⟨b, l⟩ <;> simp only [sooner]
      · simp
      · simp
      · simp
      · split <;> simp <;> omega
    refine ⟨fun b j hb => ?_, fun x j hx => ?_⟩
    · obtain ⟨b', j', hb', hle⟩ := hsooner.1 b j hb
      exact (hbest b' j' hb').trans hle
    · rcases List.mem_cons.mp hx with rfl | hx
      · obtain ⟨b', j', hb', hle⟩ := hsooner.2 x j rfl
        exact (hbest b' j' hb').trans hle
      · exact hes x j hx

lemma earliest?_le {moments : List (Option ℕ)} {m i j x : ℕ}
    (h : earliest? moments = some (m, i)) (hx : moments[j]? = some (some x)) : m ≤ x := by
  rw [earliest?_eq_foldl] at h
  exact (foldl_sooner_le h).2 x j (List.mk_mem_zipIdx_iff_getElem?.mpr hx)

/-- The next move is about a collector whose moment has come, before that of all others; a budget
that runs out at the same moment as a call comes first. -/
lemma next?_due {now : ℕ} {m : Move} (h : c.next? = some (now, m)) :
    ∃ t, c.tasks[m.index]? = some t ∧
      ((m = .act m.index ∧ t.nextCall? = some now ∧
        ∀ (j : ℕ) (u : TimedTask) (d : ℕ),
          c.tasks[j]? = some u → u.deadline? = some d → now < d) ∨
      (m = .expire m.index ∧ t.deadline? = some now ∧
        ∀ (j : ℕ) (u : TimedTask) (e : ℕ),
          c.tasks[j]? = some u → u.nextCall? = some e → now ≤ e)) := by
  have hat {f : TimedTask → Option ℕ} {e i : ℕ} (he : earliest? (c.tasks.map f) = some (e, i)) :
      ∃ t, c.tasks[i]? = some t ∧ f t = some e := by
    have hget := earliest?_some he
    rwa [List.getElem?_map, Option.map_eq_some_iff] at hget
  have hle {f : TimedTask → Option ℕ} {e i j x : ℕ} {u : TimedTask}
      (he : earliest? (c.tasks.map f) = some (e, i)) (hu : c.tasks[j]? = some u)
      (hx : f u = some x) : e ≤ x :=
    earliest?_le he (by rw [List.getElem?_map, hu, Option.map_some, hx])
  have hnone {f : TimedTask → Option ℕ} {j x : ℕ} {u : TimedTask}
      (he : earliest? (c.tasks.map f) = none) (hu : c.tasks[j]? = some u) : f u ≠ some x := by
    rw [earliest?_none he _ (List.mem_map_of_mem (List.mem_of_getElem? hu))]
    simp
  unfold next? at h
  split at h
  · next d i e j hd he =>
    split at h <;> cases h
    · next hde =>
      obtain ⟨t, ht, htd⟩ := hat hd
      exact ⟨t, ht, .inr ⟨rfl, htd, fun k u x hu hx => hde.trans (hle he hu hx)⟩⟩
    · next hde =>
      obtain ⟨t, ht, hte⟩ := hat he
      exact ⟨t, ht, .inl ⟨rfl, hte, fun k u x hu hx => (not_le.mp hde).trans_le (hle hd hu hx)⟩⟩
  · next d i hd he =>
    cases h
    obtain ⟨t, ht, htd⟩ := hat hd
    exact ⟨t, ht, .inr ⟨rfl, htd, fun k u x hu hx => absurd hx (hnone he hu)⟩⟩
  · next e j hd he =>
    cases h
    obtain ⟨t, ht, hte⟩ := hat he
    exact ⟨t, ht, .inl ⟨rfl, hte, fun k u x hu hx => absurd hx (hnone hd hu)⟩⟩
  · cases h

/-! ### The clock keeps account -/

structure Accounted (spent : ℕ) (t : TimedTask) : Prop where
  due : ∀ start, t.startedAt = some start → t.dueAt = start + spent + TimedTask.delay t.task
  waiting : t.startedAt = none → spent = 0
  working : t.task.status = none → t.task.rest.isSome = true

/-- The clock knows what every collector has spent. -/
def Accounts (spent : ℕ → ℕ) (c : Clock) : Prop :=
  ∀ (i : ℕ) (t : TimedTask), c.tasks[i]? = some t → Accounted (spent i) t

lemma getElem?_fill {now places i : ℕ} {ts : List TimedTask} {u : TimedTask}
    (h : (fill now places ts)[i]? = some u) :
    ∃ t, ts[i]? = some t ∧ (u = t ∨ t.startedAt = none ∧ u = t.startAt now) := by
  induction ts generalizing places i with
  | nil => cases places <;> cases h
  | cons t ts ih =>
    cases places with
    | zero => exact ⟨u, h, .inl rfl⟩
    | succ places =>
      simp only [fill] at h
      split at h
      · next hw =>
        cases i with
        | zero =>
          obtain rfl := Option.some.inj h
          exact ⟨t, rfl, .inr ⟨by simpa [TimedTask.isWaiting] using hw, rfl⟩⟩
        | succ i => exact ih h
      · cases i with
        | zero =>
          obtain rfl := Option.some.inj h
          exact ⟨t, rfl, .inl rfl⟩
        | succ i => exact ih h

lemma Accounts.refill {spent : ℕ → ℕ} (h : Accounts spent c) (cap : ℕ) :
    Accounts spent (c.refill cap) := by
  intro i u hu
  obtain ⟨t, ht, rfl | ⟨hwaiting, rfl⟩⟩ := getElem?_fill hu
  · exact h i _ ht
  · obtain ⟨-, hspent, hworking⟩ := h i t ht
    refine ⟨fun start hstart => ?_, fun hnone => (by cases hnone), hworking⟩
    obtain rfl : c.now = start := Option.some.inj hstart
    rw [hspent hwaiting]
    rfl

lemma actAt_of_getElem? {ts : List TimedTask} {i : ℕ} {t : TimedTask} (h : ts[i]? = some t)
    (today : CivilDate) (now : ℕ) (s : Store) :
    actAt today now i ts s = (ts.set i (t.act today now s).1, (t.act today now s).2) := by
  induction ts generalizing i with
  | nil => cases h
  | cons u ts ih =>
    cases i with
    | zero => cases h; rfl
    | succ i => simp only [actAt, ih (i := i) h, List.set_cons_succ]

lemma expireAt_of_getElem? {ts : List TimedTask} {i : ℕ} {t : TimedTask} (h : ts[i]? = some t)
    (now : ℕ) : expireAt now i ts = ts.set i (t.expire now) := by
  induction ts generalizing i with
  | nil => cases h
  | cons u ts ih =>
    cases i with
    | zero => cases h; rfl
    | succ i => simp only [expireAt, ih (i := i) h, List.set_cons_succ]

lemma crew_getElem? {i : ℕ} {t : TimedTask} (ht : c.tasks[i]? = some t) :
    c.crew.tasks[i]? = some t.task := by
  rw [crew, List.getElem?_map, ht]
  rfl

lemma nextCall?_eq_some {t : TimedTask} {now : ℕ} (h : t.nextCall? = some now) :
    (∃ start, t.startedAt = some start) ∧ t.dueAt = now := by
  unfold TimedTask.nextCall? at h
  split at h
  · next hs =>
    simp only [Bool.and_eq_true, Option.isSome_iff_exists] at hs
    exact ⟨hs.1, Option.some.inj h⟩
  · cases h

lemma deadline?_eq_some {t : TimedTask} {now : ℕ} (h : t.deadline? = some now) :
    ∃ start, t.startedAt = some start ∧ t.task.status = none ∧
      start + t.task.budget.toNanos = now := by
  unfold TimedTask.deadline? at h
  split at h
  · next start hstart hstatus => exact ⟨start, hstart, hstatus, Option.some.inj h⟩
  · cases h

lemma onTime_next {spent : ℕ → ℕ} (h : Accounts spent c) {now : ℕ} {m : Move}
    (hm : c.next? = some (now, m)) {t : Task} (ht : c.crew.tasks[m.index]? = some t)
    (hst : t.status = none) :
    m = .expire m.index ↔ t.budget.toNanos ≤ spent m.index + TimedTask.delay t := by
  obtain ⟨u, hu, hmove⟩ := next?_due hm
  obtain rfl : u.task = t := Option.some.inj ((crew_getElem? hu).symm.trans ht)
  obtain ⟨hdue, -, hworking⟩ := h _ u hu
  rcases hmove with ⟨hact, hcall, hlast⟩ | ⟨hexpire, hdead, hlast⟩
  · obtain ⟨⟨start, hstart⟩, hnow⟩ := nextCall?_eq_some hcall
    have hlt := hlast _ u (start + u.task.budget.toNanos) hu
      (by simp [TimedTask.deadline?, hstart, hst])
    have hdue := hdue start hstart
    have hne : m ≠ .expire m.index := by
      rw [hact]
      simp
    simp only [hne, false_iff]
    omega
  · obtain ⟨start, hstart, -, hnow⟩ := deadline?_eq_some hdead
    have hle := hlast _ u u.dueAt hu (by simp [TimedTask.nextCall?, hstart, hworking hst])
    have hdue := hdue start hstart
    refine ⟨fun _ => ?_, fun _ => hexpire⟩
    omega

lemma rest_act_of_unsettled {t : Task} (h : t.rest.isSome = true) (today : CivilDate) (s : Store)
    (hst : (t.act today s).1.status = none) : (t.act today s).1.rest.isSome = true := by
  have hnone : t.status = none := by
    by_contra hsome
    obtain ⟨st, hsome⟩ := Option.ne_none_iff_exists'.mp hsome
    rw [Task.status_act hsome] at hst
    cases hst
  obtain ⟨a, ha⟩ := Option.isSome_iff_exists.mp h
  cases a with
  | done | fail | crash => simp [Task.act, ha, Task.finish] at hst
  | ready | put | putObservation | look => simp [Task.act, ha, Task.answered]
  | pause => simp [Task.act, ha, hnone]

lemma Accounted.act {spent now : ℕ} {t : TimedTask} (h : Accounted spent t)
    (hcall : t.nextCall? = some now) (today : CivilDate) (s : Store) :
    Accounted (spent + TimedTask.delay t.task) (t.act today now s).1 := by
  obtain ⟨⟨start, hstart⟩, hnow⟩ := nextCall?_eq_some hcall
  have hrest : t.task.rest.isSome = true := by
    by_contra hnone
    simp [TimedTask.nextCall?, hnone] at hcall
  refine ⟨fun start' hstart' => ?_, fun hnone => ?_,
    fun hst => rest_act_of_unsettled hrest today s hst⟩
  · obtain rfl : start = start' := Option.some.inj (hstart.symm.trans hstart')
    have hdue := h.due start hstart
    show now + TimedTask.delay (t.task.act today s).1 =
      start + (spent + TimedTask.delay t.task) + TimedTask.delay (t.task.act today s).1
    omega
  · have hnone : t.startedAt = none := hnone
    rw [hstart] at hnone
    cases hnone

lemma Accounted.expire {spent now : ℕ} {t : TimedTask} (h : Accounted spent t)
    (hdead : t.deadline? = some now) : Accounted spent (t.expire now) := by
  obtain ⟨start, hstart, hstatus, -⟩ := deadline?_eq_some hdead
  obtain ⟨hsettled, hrest⟩ := t.task.status_expire (by simp [hstatus])
  have hdelay : TimedTask.delay t.task.expire = TimedTask.delay t.task := by
    simp only [TimedTask.delay, hrest]
  refine ⟨fun start' hstart' => ?_, fun hnone => ?_, fun hst => ?_⟩
  · exact (h.due start' hstart').trans (by rw [← hdelay]; rfl)
  · have hnone : t.startedAt = none := hnone
    rw [hstart] at hnone
    cases hnone
  · have hst : t.task.expire.status = none := hst
    simp [hst] at hsettled

lemma Accounts.set {spent spent' : ℕ → ℕ} (h : Accounts spent c) {c' : Clock} {i : ℕ}
    {t t' : TimedTask} (ht : c.tasks[i]? = some t) (htasks : c'.tasks = c.tasks.set i t')
    (hother : ∀ j, i ≠ j → spent' j = spent j) (hown : Accounted (spent' i) t') :
    Accounts spent' c' := by
  intro j u hu
  rw [htasks] at hu
  by_cases hj : i = j
  · subst hj
    obtain ⟨hlt, -⟩ := List.getElem?_eq_some_iff.mp ht
    rw [List.getElem?_set_self hlt] at hu
    exact Option.some.inj hu ▸ hown
  · rw [List.getElem?_set_ne hj] at hu
    rw [hother j hj]
    exact h j u hu

lemma Accounts.step {spent : ℕ → ℕ} (h : Accounts spent c) {now : ℕ} {m : Move}
    (hm : c.next? = some (now, m)) (today : CivilDate) :
    Accounts (c.crew.spend today m spent) (c.step today now m) := by
  obtain ⟨t, ht, hmove⟩ := next?_due hm
  have hother : ∀ j, m.index ≠ j → c.crew.spend today m spent j = spent j := by
    intro j hj
    simp [Crew.spend, Crew.deed?_of_ne hj, Deed.total]
  rcases hmove with ⟨hact, hcall, -⟩ | ⟨hexpire, hdead, -⟩
  · generalize m.index = i at *
    subst hact
    have hspend : c.crew.spend today (.act i) spent i = spent i + TimedTask.delay t.task := by
      rw [Crew.spend, Crew.deed?_act (crew_getElem? ht), Task.nanos_deed?]
    exact h.set ht (by simp only [Clock.step, actAt_of_getElem? ht]) hother
      (hspend ▸ (h i t ht).act hcall today c.store)
  · generalize m.index = i at *
    subst hexpire
    have hspend : c.crew.spend today (.expire i) spent i = spent i := by
      simp [Crew.spend, Crew.deed?, Deed.total]
    exact h.set ht (by simp only [Clock.step, expireAt_of_getElem? ht]) hother
      (hspend ▸ (h i t ht).expire hdead)

/-- **The clock is a scheduler** that is on time: its crew is one that such an order of moves leads
to. -/
theorem exists_play (today : CivilDate) (cap : ℕ) (c : Clock) {spent : ℕ → ℕ}
    (h : Accounts spent c) :
    ∃ ms : List Move, (c.run today cap).crew = c.crew.play today ms ∧
      c.crew.OnTime spent (ms.map fun m => (today, m)) := by
  fun_induction run today cap c generalizing spent with
  | case1 c hnext => exact ⟨[], crew_refill cap c, Crew.onTime_nil _ _⟩
  | case2 c now m hnext hallows ih =>
    have hrefill := h.refill cap
    obtain ⟨ms, hms, htime⟩ := ih (hrefill.step hnext today)
    rw [crew_step, crew_refill] at hms htime
    refine ⟨m :: ms, hms, .cons (fun t ht hst => ?_) htime⟩
    rw [← crew_refill cap c] at ht
    exact onTime_next hrefill hnext ht hst
  | case3 c now m hnext hallows => exact ⟨[], crew_refill cap c, Crew.onTime_nil _ _⟩

lemma accounts_ofCrew (c : Crew) (h : ∀ t ∈ c.tasks, t.rest.isSome = true) :
    Accounts (fun _ => 0) (ofCrew c) := by
  intro i u hu
  obtain ⟨t, ht, rfl⟩ := List.mem_map.mp (List.mem_of_getElem? hu)
  exact ⟨fun _ hstart => (by cases hstart), fun _ => rfl, fun _ => h t ht⟩

end Clock

end Dossier
