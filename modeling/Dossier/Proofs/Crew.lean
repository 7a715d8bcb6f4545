import Dossier.Proofs.Task
import Mathlib.Data.List.Forall2

/-!
Collectors among others. The crew takes moves in any order; what becomes of one collector depends on
its own calls, on the days on which they are made, and on whether its budget runs out. The others
only come in between, in other namespaces.
-/

namespace Dossier

def Move.index : Move → ℕ
  | act i => i
  | expire i => i

namespace Crew

variable {c : Crew} {t : Task} {i : ℕ}

/-! ### One move -/

lemma actAt_of_getElem? {ts : List Task} (h : ts[i]? = some t) (today : CivilDate) (s : Store) :
    actAt today i ts s = (ts.set i (t.act today s).1, (t.act today s).2) := by
  induction ts generalizing i with
  | nil => cases h
  | cons u ts ih =>
    cases i with
    | zero => cases h; rfl
    | succ i => simp only [actAt, ih (i := i) h, List.set_cons_succ]

lemma actAt_of_none {ts : List Task} (h : ts[i]? = none) (today : CivilDate) (s : Store) :
    actAt today i ts s = (ts, s) := by
  induction ts generalizing i with
  | nil => cases i <;> rfl
  | cons u ts ih =>
    cases i with
    | zero => cases h
    | succ i => simp only [actAt, ih (i := i) h]

lemma expireAt_eq_modify (i : ℕ) (ts : List Task) : expireAt i ts = ts.modify i Task.expire := by
  induction ts generalizing i with
  | nil => cases i <;> rfl
  | cons u ts ih =>
    cases i with
    | zero => rfl
    | succ i => simp [expireAt, ih i]

lemma step_act (h : c.tasks[i]? = some t) (today : CivilDate) :
    c.step today (.act i) = ⟨(t.act today c.store).2, c.tasks.set i (t.act today c.store).1⟩ := by
  simp [step, actAt_of_getElem? h]

lemma step_act_of_none (h : c.tasks[i]? = none) (today : CivilDate) :
    c.step today (.act i) = c := by
  simp [step, actAt_of_none h]

lemma step_expire (c : Crew) (today : CivilDate) (i : ℕ) :
    c.step today (.expire i) = ⟨c.store, c.tasks.modify i Task.expire⟩ := by
  simp [step, expireAt_eq_modify]

lemma getElem?_step_act (ht : c.tasks[i]? = some t) (today : CivilDate) :
    (c.step today (.act i)).tasks[i]? = some (t.act today c.store).1 := by
  obtain ⟨hlt, -⟩ := List.getElem?_eq_some_iff.mp ht
  simp [step_act ht, hlt]

lemma getElem?_step_expire (ht : c.tasks[i]? = some t) (today : CivilDate) :
    (c.step today (.expire i)).tasks[i]? = some t.expire := by
  obtain ⟨hlt, rfl⟩ := List.getElem?_eq_some_iff.mp ht
  simp [step_expire, hlt]

lemma getElem?_step_of_ne (c : Crew) (today : CivilDate) {m : Move} (hm : m.index ≠ i) :
    (c.step today m).tasks[i]? = c.tasks[i]? := by
  cases m with
  | act j =>
    have hj : j ≠ i := hm
    cases h : c.tasks[j]? with
    | none => rw [step_act_of_none h]
    | some u => simp [step_act h, hj]
  | expire j =>
    have hj : j ≠ i := hm
    simp [step_expire, hj]

/-- A move reaches the store through a writer, if at all. -/
lemma store_step (c : Crew) (today : CivilDate) (m : Move) :
    (c.step today m).store = c.store ∨
      ∃ (w : Writer) (call : WriterCall),
        (c.step today m).store = (w.perform c.store today call).store := by
  cases m with
  | act i =>
    cases h : c.tasks[i]? with
    | none =>
      rw [step_act_of_none h]
      exact .inl rfl
    | some t =>
      rw [step_act h]
      exact (t.store_act today c.store).imp_right fun ⟨call, hcall⟩ => ⟨t.writer, call, hcall⟩
  | expire i => exact .inl rfl

/-! ### Namespaces -/

def spaceAt? (c : Crew) (i : ℕ) : Option String := (c.tasks[i]?).map (·.writer.space)

lemma spaceAt?_step (c : Crew) (today : CivilDate) (m : Move) (i : ℕ) :
    (c.step today m).spaceAt? i = c.spaceAt? i := by
  unfold spaceAt?
  by_cases hm : m.index = i
  · cases m with
    | act j =>
      obtain rfl : j = i := hm
      cases ht : c.tasks[j]? with
      | none => rw [step_act_of_none ht, ht]
      | some t => rw [getElem?_step_act ht, Option.map_some, Option.map_some, t.space_act]
    | expire j =>
      obtain rfl : j = i := hm
      cases ht : c.tasks[j]? with
      | none => simpa [step_expire] using ht
      | some t => rw [getElem?_step_expire ht, Option.map_some, Option.map_some, t.space_expire]
  · rw [getElem?_step_of_ne c today hm]

/-- Every collector has a namespace of its own, in normal form. -/
structure Apart (c : Crew) : Prop where
  normal : ∀ i n, c.spaceAt? i = some n → IsNormal n
  distinct : ∀ i j n, c.spaceAt? i = some n → c.spaceAt? j = some n → i = j

lemma Apart.step (h : c.Apart) (today : CivilDate) (m : Move) : (c.step today m).Apart := by
  refine ⟨fun i n => ?_, fun i j n => ?_⟩
  · rw [spaceAt?_step]
    exact h.normal i n
  · rw [spaceAt?_step, spaceAt?_step]
    exact h.distinct i j n

/-- A move of another collector goes unnoticed in the namespace of the collector. -/
lemma Apart.agree_step (h : c.Apart) (ht : c.tasks[i]? = some t) (today : CivilDate) {m : Move}
    (hm : m.index ≠ i) : Store.Agree (Within t.writer.space) c.store (c.step today m).store := by
  cases m with
  | act j =>
    cases hu : c.tasks[j]? with
    | none =>
      rw [step_act_of_none hu]
      exact .refl _ _
    | some u =>
      have hspace : c.spaceAt? j = some u.writer.space := by simp [spaceAt?, hu]
      rw [step_act hu]
      refine (Task.act_frame (h.normal j _ hspace) today c.store).mono fun k hk hk' => hm ?_
      refine h.distinct j i _ hspace ?_
      simp only [spaceAt?, ht, Option.map_some, Option.some.injEq]
      exact hk.symm.trans hk'
  | expire j => exact .refl _ _

/-! ### Any order of moves -/

/-- The answers that everybody got so far. -/
def journals (c : Crew) : List (List JournalEntry) := c.tasks.map (·.journal)

/-- The crew after moves that are each made on a day of their own. -/
def schedule (c : Crew) (ms : List (CivilDate × Move)) : Crew :=
  ms.foldl (fun c m => c.step m.1 m.2) c

lemma schedule_cons (c : Crew) (today : CivilDate) (m : Move) (ms : List (CivilDate × Move)) :
    c.schedule ((today, m) :: ms) = (c.step today m).schedule ms := rfl

lemma schedule_append (c : Crew) (ms ms' : List (CivilDate × Move)) :
    c.schedule (ms ++ ms') = (c.schedule ms).schedule ms' := List.foldl_append

lemma play_eq_schedule (today : CivilDate) (c : Crew) (ms : List Move) :
    c.play today ms = c.schedule (ms.map fun m => (today, m)) := by
  rw [play, schedule, List.foldl_map]

lemma exists_expired (c : Crew) (today : CivilDate) :
    ∃ ms, c.schedule ms = ⟨c.store, c.tasks.map Task.expire⟩ := by
  have hplaces (is : List ℕ) (c : Crew) :
      (c.schedule (is.map fun i => (today, .expire i))).store = c.store ∧
        ∀ j, (c.schedule (is.map fun i => (today, .expire i))).tasks[j]? =
          (c.tasks[j]?).map fun t => if j ∈ is then t.expire else t := by
    induction is generalizing c with
    | nil => exact ⟨rfl, fun j => by simp [schedule]⟩
    | cons i is ih =>
      obtain ⟨hstore, htasks⟩ := ih (c.step today (.expire i))
      refine ⟨hstore, fun j => (htasks j).trans ?_⟩
      rw [step_expire, List.getElem?_modify, Option.map_eq_map, Option.map_map]
      refine congrArg (Option.map · _) (funext fun t => ?_)
      by_cases hj : i = j <;> by_cases hmem : j ∈ is <;>
        simp [hj, hmem, Task.expire_expire, eq_comm]
  obtain ⟨hstore, htasks⟩ := hplaces (List.range c.tasks.length) c
  refine ⟨_, congrArg₂ Crew.mk hstore (List.ext_getElem? fun j => (htasks j).trans ?_)⟩
  by_cases hj : j < c.tasks.length
  · simp [hj]
  · simp [hj]

/-- The days on which the collector in one place is to perform a call. -/
def callDays (i : ℕ) (ms : List (CivilDate × Move)) : List CivilDate :=
  ms.filterMap fun m =>
    match m.2 with
    | .act j => if j = i then some m.1 else none
    | .expire _ => none

lemma callDays_act (i : ℕ) (today : CivilDate) (ms : List (CivilDate × Move)) :
    callDays i ((today, .act i) :: ms) = today :: callDays i ms := by
  simp [callDays]

lemma callDays_expire (i j : ℕ) (today : CivilDate) (ms : List (CivilDate × Move)) :
    callDays i ((today, .expire j) :: ms) = callDays i ms := by
  simp [callDays]

lemma callDays_of_ne {m : Move} (hm : m.index ≠ i) (today : CivilDate)
    (ms : List (CivilDate × Move)) : callDays i ((today, m) :: ms) = callDays i ms := by
  cases m with
  | act j =>
    have hj : j ≠ i := hm
    simp [callDays, hj]
  | expire j => exact callDays_expire i j today ms

lemma status_schedule {st : Status} (ht : c.tasks[i]? = some t) (hst : t.status = some st)
    (ms : List (CivilDate × Move)) :
    ∃ u, (c.schedule ms).tasks[i]? = some u ∧ u.status = some st := by
  induction ms generalizing c t with
  | nil => exact ⟨t, ht, hst⟩
  | cons m ms ih =>
    obtain ⟨today, m⟩ := m
    rw [schedule_cons]
    by_cases hm : m.index = i
    · cases m with
      | act j =>
        obtain rfl : j = i := hm
        exact ih (getElem?_step_act ht today) (Task.status_act hst today c.store)
      | expire j =>
        obtain rfl : j = i := hm
        have htask := getElem?_step_expire ht today
        rw [Task.expire_of_some hst] at htask
        exact ih htask hst
    · rw [← getElem?_step_of_ne c today hm] at ht
      exact ih ht hst

/-- What holds between collectors and what they came from, and is kept by a call and by an expiry,
is kept by a move. -/
lemma forall₂_step {α : Type} {R : α → Task → Prop} {as : List α}
    (hact : ∀ a t today s, R a t → R a (Task.act t today s).1)
    (hexpire : ∀ a t, R a t → R a t.expire) (h : List.Forall₂ R as c.tasks) (today : CivilDate)
    (m : Move) : List.Forall₂ R as (c.step today m).tasks := by
  cases m with
  | act i =>
    show List.Forall₂ R as (actAt today i c.tasks c.store).1
    generalize c.tasks = ts at h ⊢
    induction h generalizing i with
    | nil => cases i <;> exact .nil
    | cons ha has ih =>
      cases i with
      | zero => exact .cons (hact _ _ today c.store ha) has
      | succ i => exact .cons ha (ih i)
  | expire i =>
    show List.Forall₂ R as (expireAt i c.tasks)
    generalize c.tasks = ts at h ⊢
    induction h generalizing i with
    | nil => cases i <;> exact .nil
    | cons ha has ih =>
      cases i with
      | zero => exact .cons (hexpire _ _ ha) has
      | succ i => exact .cons ha (ih i)

lemma forall₂_schedule {α : Type} {R : α → Task → Prop} {as : List α}
    (hact : ∀ a t today s, R a t → R a (Task.act t today s).1)
    (hexpire : ∀ a t, R a t → R a t.expire) (h : List.Forall₂ R as c.tasks)
    (ms : List (CivilDate × Move)) : List.Forall₂ R as (c.schedule ms).tasks := by
  induction ms generalizing c with
  | nil => exact h
  | cons m ms ih => exact ih (forall₂_step hact hexpire h m.1 m.2)

lemma forall_schedule {P : Task → Prop} (hact : ∀ t today s, P t → P (Task.act t today s).1)
    (hexpire : ∀ t, P t → P t.expire) (h : ∀ t ∈ c.tasks, P t) (ms : List (CivilDate × Move)) :
    ∀ t ∈ (c.schedule ms).tasks, P t := by
  have hall := forall₂_schedule (R := fun (_ : Task) t => P t)
    (fun _ t today s ht => hact t today s ht) (fun _ t ht => hexpire t ht)
    (List.forall₂_same.mpr h) ms
  exact ((List.forall₂_and_left (R := fun _ _ => True) _ _).mp
    (hall.flip.imp fun _ _ ht => ⟨ht, trivial⟩)).1

/-- What every call on a writer keeps of a store, every schedule keeps. -/
lemma holds_schedule {P : Store → Prop}
    (hcall : ∀ w s today call, P s → P (Writer.perform w s today call).store) (h : P c.store)
    (ms : List (CivilDate × Move)) : P (c.schedule ms).store := by
  induction ms generalizing c with
  | nil => exact h
  | cons m ms ih =>
    refine ih (c := c.step m.1 m.2) ?_
    rcases c.store_step m.1 m.2 with hs | ⟨w, call, hs⟩
    · rw [hs]
      exact h
    · rw [hs]
      exact hcall w c.store m.1 call h

lemma store_schedule {α : Type} {f : Store → α}
    (hf : ∀ w s today call, f (Writer.perform w s today call).store = f s) (c : Crew)
    (ms : List (CivilDate × Move)) : f (c.schedule ms).store = f c.store :=
  holds_schedule (P := fun s => f s = f c.store)
    (fun w s today call h => (hf w s today call).trans h) rfl ms

lemma registry_schedule (c : Crew) (ms : List (CivilDate × Move)) :
    (c.schedule ms).store.registry = c.store.registry :=
  c.store_schedule Writer.registry_perform ms

def Unowned (c : Crew) (k : Key) : Prop := ∀ i, c.spaceAt? i ≠ some k.space

/-- What lies in no collector's namespace is as it was. -/
lemma Apart.agree_schedule (h : c.Apart) (ms : List (CivilDate × Move)) :
    Store.Agree c.Unowned c.store (c.schedule ms).store := by
  induction ms generalizing c with
  | nil => exact .refl _ _
  | cons m ms ih =>
    obtain ⟨today, m⟩ := m
    have hspaces : (c.step today m).Unowned = c.Unowned := by
      funext k
      simp only [Unowned, spaceAt?_step]
    have hstep : Store.Agree c.Unowned c.store (c.step today m).store := by
      cases m with
      | act j =>
        cases hu : c.tasks[j]? with
        | none =>
          rw [step_act_of_none hu]
          exact .refl _ _
        | some u =>
          have hspace : c.spaceAt? j = some u.writer.space := by simp [spaceAt?, hu]
          rw [step_act hu]
          refine (Task.act_frame (h.normal j _ hspace) today c.store).mono fun k hk hk' => ?_
          exact hk j (hk' ▸ hspace)
      | expire j => exact .refl _ _
    rw [schedule_cons]
    exact hstep.trans (hspaces ▸ ih (h.step today m))

/-- **A collector among others** fares as it would alone, unless its budget runs out. -/
theorem alone {n : String} {s : Store} (hc : c.Apart) (ht : c.tasks[i]? = some t)
    (hp : t.IsPrivate n) (hs : Store.Agree (Within n) c.store s) (ms : List (CivilDate × Move)) :
    ∃ u, (c.schedule ms).tasks[i]? = some u ∧
      ((∃ budget, u.status = some (.failed (.timeout budget))) ∨
        u = (t.acts s (callDays i ms)).1 ∧
          Store.Agree (Within n) (c.schedule ms).store (t.acts s (callDays i ms)).2) := by
  induction ms generalizing c t s with
  | nil => exact ⟨t, ht, .inr ⟨rfl, hs⟩⟩
  | cons m ms ih =>
    obtain ⟨today, m⟩ := m
    rw [schedule_cons]
    have hapart := hc.step today m
    by_cases hm : m.index = i
    · cases m with
      | act j =>
        obtain rfl : j = i := hm
        obtain ⟨hsame, hagree⟩ := Task.act_same hp today hs
        have htask := getElem?_step_act ht today
        have hstore : (c.step today (.act j)).store = (t.act today c.store).2 := by rw [step_act ht]
        rw [callDays_act, Task.acts_cons, ← hsame]
        exact ih hapart htask (hp.act today c.store) (hstore ▸ hagree)
      | expire j =>
        obtain rfl : j = i := hm
        rw [callDays_expire]
        have htask := getElem?_step_expire ht today
        cases hst : t.status with
        | none =>
          -- the budget runs out here, and nothing changes that status later
          obtain ⟨u, hu, hstatus⟩ := status_schedule htask (Task.status_expire_of_none hst) ms
          exact ⟨u, hu, .inl ⟨_, hstatus⟩⟩
        | some st =>
          rw [Task.expire_of_some hst] at htask
          exact ih hapart htask hp hs
    · have hquiet := hc.agree_step ht today hm
      rw [hp.space] at hquiet
      rw [← getElem?_step_of_ne c today hm] at ht
      rw [callDays_of_ne hm]
      exact ih hapart ht hp (hquiet.symm.trans hs)

end Crew

end Dossier
