import Dossier.Proofs.Crew
import Dossier.Proofs.Deeds

/-!
Writes in three strokes. A collector does not write at one go: its writer is found open, then the
store is asked, and last the answer is counted. Between these strokes the others may act, and its
budget may run out. Whatever the order of strokes is, it comes to the same as an order of whole
calls, in which a write that was under way as the budget ran out comes first. Only who reads the
tallies meanwhile may miss that one write.
-/

namespace Dossier

namespace Writer

variable {w : Writer} {call : WriterCall}

/-- What the store answers to a call that has found the writer open. -/
def ask (w : Writer) (s : Store) (today : CivilDate) (call : WriterCall) :
    Store × Except StoreError Unit :=
  match w.request? call with
  | none => (s, .ok ())
  | some (.error e) => (s, .error e)
  | some (.ok a) => s.putStep (today, a)

/-- Counts an answer, even if the writer was closed in the meantime. -/
def count (w : Writer) : Except StoreError Unit → Writer
  | .ok () => { w with written := w.written + 1 }
  | .error e => { w with rejected := w.rejected ++ [e] }

lemma perform_eq_count (hopen : w.isClosed = false) (hcall : call ≠ .close) (s : Store)
    (today : CivilDate) :
    w.perform s today call =
      ⟨(w.ask s today call).1, w.count (w.ask s today call).2, (w.ask s today call).2⟩ := by
  obtain ⟨r, hr⟩ := request?_of_ne_close hcall w
  rw [perform_eq, hr, ask, hr]
  cases r with
  | error e => simp [hopen, handle, reject, count]
  | ok a =>
    simp only [hopen, handle, Store.putStep]
    cases s.write today a <;> rfl

end Writer

/-- The write that some work starts with, and how the work goes on. -/
def Activity.write? : Activity → Option (WriterCall × (Except StoreError Unit → Activity))
  | put id l v r next => some (.put id l v r, next)
  | putObservation id k o next => some (.putObservation id k o, next)
  | _ => none

namespace Task

variable {t : Task} {call : WriterCall} {next : Except StoreError Unit → Activity}

/-- The write that a collector is to make next. -/
def write? (t : Task) : Option (WriterCall × (Except StoreError Unit → Activity)) :=
  t.rest.bind Activity.write?

/-- The answer to a write is counted, and the work goes on. -/
def count (t : Task) (answer : Except StoreError Unit)
    (next : Except StoreError Unit → Activity) : Task :=
  { t with
    writer := t.writer.count answer
    rest := some (next answer)
    journal := t.journal ++ [.wrote answer (t.writer.count answer).written] }

lemma act_of_write? (h : t.write? = some (call, next)) (today : CivilDate) (s : Store) :
    t.act today s = t.answered (t.writer.perform s today call) next ∧ call ≠ .close := by
  obtain ⟨a, ha, hwrite⟩ := Option.bind_eq_some_iff.mp h
  cases a with
  | put id l v r next =>
    cases hwrite
    exact ⟨by simp only [act, ha, Writer.perform], by simp⟩
  | putObservation id k o next =>
    cases hwrite
    exact ⟨by simp only [act, ha, Writer.perform], by simp⟩
  | done | fail | crash | ready | look | pause => cases hwrite

lemma act_eq_count (h : t.write? = some (call, next)) (hopen : t.writer.isClosed = false)
    (today : CivilDate) (s : Store) :
    t.act today s =
      (t.count (t.writer.ask s today call).2 next, (t.writer.ask s today call).1) := by
  obtain ⟨hact, hcall⟩ := act_of_write? h today s
  rw [hact, Writer.perform_eq_count hopen hcall]
  rfl

/-- The writer of a collector is closed when its outcome is settled, and not before. -/
def Closes (t : Task) : Prop := t.writer.isClosed = t.status.isSome

lemma Closes.isClosed (h : t.Closes) {st : Status} (hst : t.status = some st) :
    t.writer.isClosed = true := by
  rw [show t.writer.isClosed = t.status.isSome from h, hst]
  rfl

lemma Closes.status_eq_none (h : t.Closes) (hopen : t.writer.isClosed = false) :
    t.status = none :=
  Option.isNone_iff_eq_none.mp (Option.isSome_eq_false_iff.mp
    ((show t.writer.isClosed = t.status.isSome from h).symm.trans hopen))

lemma Closes.act (h : t.Closes) (today : CivilDate) (s : Store) : (t.act today s).1.Closes := by
  unfold Closes at h ⊢
  cases hw : t.write? with
  | some w =>
    obtain ⟨call, next⟩ := w
    obtain ⟨hact, hcall⟩ := act_of_write? hw today s
    have hkeeps : (t.writer.perform s today call).writer.isClosed = t.writer.isClosed := by
      cases hclosed : t.writer.isClosed with
      | true => rw [Writer.perform_of_closed hclosed hcall, hclosed]
      | false =>
        rw [Writer.perform_eq_count hclosed hcall]
        cases (t.writer.ask s today call).2 <;> exact hclosed
    rw [hact]
    exact hkeeps.trans h
  | none =>
    cases hr : t.rest with
    | none => simpa [Task.act, hr] using h
    | some a =>
      cases a with
      | put | putObservation => simp [write?, hr, Activity.write?] at hw
      | done | fail | crash => simp [Task.act, hr, finish, Writer.close]
      | ready | look => simpa [Task.act, hr] using h
      | pause =>
        simp only [Task.act, hr]
        split <;> exact h

lemma Closes.expire (h : t.Closes) : t.expire.Closes := by
  unfold Task.expire
  split
  · exact h
  · rfl

/-- The collector as it was before its budget ran out. -/
def reopened (t : Task) : Task :=
  { t with status := none, writer := { t.writer with isClosed := false } }

lemma reopened_of_none (h : t.Closes) (hst : t.status = none) : t.reopened = t := by
  obtain ⟨budget, writer, rest, isReady, status, journal⟩ := t
  obtain rfl : status = none := hst
  have hopen : writer.isClosed = false := h
  simp only [reopened, ← hopen]

lemma expire_reopened (h : t.Closes) (hst : t.status = some (.failed (.timeout t.budget))) :
    t.reopened.expire = t := by
  obtain ⟨budget, writer, rest, isReady, status, journal⟩ := t
  obtain rfl : status = some (.failed (.timeout budget)) := hst
  have hclosed : writer.isClosed = true := h
  simp only [reopened, Task.expire, Writer.close, ← hclosed]

/-- An answer may be counted before the budget runs out or after. -/
lemma count_of_expired (h : t.Closes) (hst : t.status = some (.failed (.timeout t.budget)))
    (answer : Except StoreError Unit) (next : Except StoreError Unit → Activity) :
    t.count answer next = (t.reopened.count answer next).expire := by
  obtain ⟨budget, writer, rest, isReady, status, journal⟩ := t
  obtain rfl : status = some (.failed (.timeout budget)) := hst
  have hclosed : writer.isClosed = true := h
  cases answer <;> simp [count, reopened, Task.expire, Writer.count, Writer.close, hclosed]

end Task

/-! ### One collector in strokes -/

/-- How far a write has come. -/
inductive Stroke where
  /-- No write is under way. -/
  | rest
  /-- The writer was found open. -/
  | entered
  /-- The store has answered. -/
  | answered (answer : Except StoreError Unit)

/-- A collector whose writes are made in strokes. -/
structure Strand where
  task : Task
  stroke : Stroke

namespace Strand

variable {u : Strand}

/-- The next stroke of a write, or else the next call. A writer that is found closed refuses the
write at once. -/
def act (u : Strand) (today : CivilDate) (s : Store) : Strand × Store :=
  match u.task.write?, u.stroke with
  | some (call, _), .entered =>
    let (s, answer) := u.task.writer.ask s today call
    (⟨u.task, .answered answer⟩, s)
  | some (_, next), .answered answer => (⟨u.task.count answer next, .rest⟩, s)
  | some _, .rest =>
    if u.task.writer.isClosed then
      let (task, s) := u.task.act today s
      (⟨task, .rest⟩, s)
    else (⟨u.task, .entered⟩, s)
  | none, _ =>
    let (task, s) := u.task.act today s
    (⟨task, .rest⟩, s)

def expire (u : Strand) : Strand := { u with task := u.task.expire }

/-- What holds of collectors between any two strokes. -/
structure Sound (u : Strand) : Prop where
  closes : u.task.Closes
  writes : u.stroke ≠ .rest → ∃ call next, u.task.write? = some (call, next)
  /-- No outcome but a timeout comes while a write is under way. -/
  late : u.stroke ≠ .rest →
    ∀ st, u.task.status = some st → st = .failed (.timeout u.task.budget)

/-- The collector as it would be with whole calls: a write is made when the store is asked, and no
budget runs out between the first stroke of a write and that. -/
def whole (u : Strand) : Task :=
  match u.stroke, u.task.write? with
  | .entered, some _ => u.task.reopened
  | .answered answer, some (_, next) => u.task.count answer next
  | _, _ => u.task

section Whole

variable {t : Task} {call : WriterCall} {next : Except StoreError Unit → Activity}

@[simp] lemma whole_rest : whole ⟨t, .rest⟩ = t := rfl

lemma whole_entered (h : t.write? = some (call, next)) : whole ⟨t, .entered⟩ = t.reopened := by
  simp [whole, h]

lemma whole_answered (h : t.write? = some (call, next)) (answer : Except StoreError Unit) :
    whole ⟨t, .answered answer⟩ = t.count answer next := by
  simp [whole, h]

lemma whole_cases (u : Strand) :
    u.whole = u.task ∨ u.stroke ≠ .rest ∧
      (u.whole = u.task.reopened ∨ ∃ answer next, u.whole = u.task.count answer next) := by
  obtain ⟨task, stroke⟩ := u
  cases hw : task.write? with
  | none => exact .inl (by cases stroke <;> simp [whole, hw])
  | some w =>
    cases stroke with
    | rest => exact .inl rfl
    | entered => exact .inr ⟨by simp, .inl (whole_entered hw)⟩
    | answered answer => exact .inr ⟨by simp, .inr ⟨answer, _, whole_answered hw answer⟩⟩

end Whole

lemma sound_of_rest {t : Task} (h : t.Closes) : Sound ⟨t, .rest⟩ :=
  ⟨h, fun hne => absurd rfl hne, fun hne => absurd rfl hne⟩

lemma Sound.act (h : u.Sound) (today : CivilDate) (s : Store) : (u.act today s).1.Sound := by
  obtain ⟨task, stroke⟩ := u
  have hact : Sound ⟨(task.act today s).1, .rest⟩ := sound_of_rest (h.closes.act today s)
  unfold Strand.act
  cases hw : task.write? with
  | none => exact hact
  | some w =>
    obtain ⟨call, next⟩ := w
    cases stroke with
    | rest =>
      cases hclosed : task.writer.isClosed with
      | true => simpa only [hclosed, if_true] using hact
      | false =>
        have hnone : task.status = none := h.closes.status_eq_none hclosed
        simp only [Bool.false_eq_true, if_false]
        exact ⟨h.closes, fun _ => ⟨call, next, hw⟩, fun _ st hst => by simp [hnone] at hst⟩
    | entered => exact ⟨h.closes, fun _ => ⟨call, next, hw⟩, fun _ => h.late (by simp)⟩
    | answered answer =>
      refine sound_of_rest ?_
      have hcloses : task.writer.isClosed = task.status.isSome := h.closes
      cases answer <;> exact hcloses

lemma Sound.expire (h : u.Sound) : u.expire.Sound := by
  obtain ⟨task, stroke⟩ := u
  refine ⟨h.closes.expire, fun hne => ?_, fun hne st hst => ?_⟩
  · obtain ⟨call, next, hw⟩ := h.writes hne
    refine ⟨call, next, ?_⟩
    show task.expire.write? = _
    unfold Task.expire
    split <;> exact hw
  · have hst : task.expire.status = some st := hst
    show st = .failed (.timeout task.expire.budget)
    cases hstatus : task.status with
    | some st' =>
      rw [Task.expire_of_some hstatus] at hst ⊢
      exact h.late hne st hst
    | none =>
      rw [Task.status_expire_of_none hstatus] at hst
      obtain rfl := Option.some.inj hst
      simp [Task.expire, hstatus]

/-! ### Strokes and whole calls -/

/-- What a stroke comes to in whole calls: nothing, a call, or a call after which the budget has run
out. -/
inductive Comes (u : Strand) (today : CivilDate) (s : Store) : Strand × Store → Prop where
  | nothing {v : Strand} (h : v.whole = u.whole) : Comes u today s (v, s)
  | call {v : Strand} (h : v.whole = (u.whole.act today s).1) :
      Comes u today s (v, (u.whole.act today s).2)
  | lastCall {v : Strand} (h : v.whole = (u.whole.act today s).1.expire) :
      Comes u today s (v, (u.whole.act today s).2)

/-- **A stroke** comes to at most one call. -/
lemma comes_act (h : u.Sound) (today : CivilDate) (s : Store) :
    Comes u today s (u.act today s) := by
  obtain ⟨task, stroke⟩ := u
  unfold Strand.act
  cases hw : task.write? with
  | none =>
    have hwhole : whole ⟨task, stroke⟩ = task := by cases stroke <;> simp [whole, hw]
    have hcall : Comes ⟨task, stroke⟩ today s
        (⟨(task.act today s).1, .rest⟩, ((whole ⟨task, stroke⟩).act today s).2) :=
      .call (by rw [hwhole]; rfl)
    rwa [hwhole] at hcall
  | some w =>
    obtain ⟨call, next⟩ := w
    cases stroke with
    | rest =>
      cases hclosed : task.writer.isClosed with
      | true => exact .call rfl
      | false =>
        have hsame := Task.reopened_of_none h.closes (h.closes.status_eq_none hclosed)
        exact .nothing ((whole_entered hw).trans hsame)
    | entered =>
      have hwhole := whole_entered hw
      -- the whole call finds the writer as it was when the write began
      have hact : task.reopened.act today s = (task.reopened.count (task.writer.ask s today call).2
          next, (task.writer.ask s today call).1) :=
        Task.act_eq_count (t := task.reopened) hw rfl today s
      have hafter := whole_answered hw (task.writer.ask s today call).2
      have hstore : (task.writer.ask s today call).1 =
          ((whole ⟨task, .entered⟩).act today s).2 := by rw [hwhole, hact]
      show Comes ⟨task, .entered⟩ today s
        (⟨task, .answered (task.writer.ask s today call).2⟩, (task.writer.ask s today call).1)
      rw [hstore]
      cases hst : task.status with
      | none =>
        refine .call ?_
        rw [hafter, hwhole, hact, Task.reopened_of_none h.closes hst]
      | some st =>
        obtain rfl := h.late (by simp) st hst
        refine .lastCall ?_
        rw [hafter, hwhole, hact]
        exact Task.count_of_expired h.closes hst _ next
    | answered answer => exact .nothing (whole_answered hw answer).symm

/-- The budget runs out, or it is too late for that in whole calls. -/
lemma whole_expire (h : u.Sound) : u.expire.whole = u.whole ∨ u.expire.whole = u.whole.expire := by
  obtain ⟨task, stroke⟩ := u
  cases hst : task.status with
  | some st =>
    left
    simp [Strand.expire, Task.expire_of_some hst]
  | none =>
    have hexpire : task.expire =
        { task with
          status := some (.failed (.timeout task.budget)), writer := task.writer.close } := by
      simp [Task.expire, hst]
    have hwrite : task.expire.write? = task.write? := by rw [hexpire]; rfl
    cases stroke with
    | rest => exact .inr rfl
    | entered =>
      obtain ⟨call, next, hw⟩ := h.writes (by simp)
      refine .inl ((whole_entered (hwrite.trans hw)).trans ?_)
      rw [whole_entered hw, hexpire]
      rfl
    | answered answer =>
      obtain ⟨call, next, hw⟩ := h.writes (by simp)
      refine .inr ((whole_answered (hwrite.trans hw) answer).trans ?_)
      rw [whole_answered hw, hexpire]
      cases answer <;> simp [Task.count, Task.expire, hst, Writer.count, Writer.close]

/-! ### After the outcome was settled -/

/-- What is left of a collector whose outcome is settled. Its tallies stay as they are, but for an
answer that it was still waiting for. -/
inductive Remains (u v : Strand) : Prop where
  | same (hw : v.task.writer = u.task.writer) (hst : v.task.status = u.task.status)
      (hs : v.stroke ≠ .rest → u.stroke ≠ .rest)
  | counted (answer : Except StoreError Unit) (hu : u.stroke ≠ .rest) (hv : v.stroke = .rest)
      (hw : v.task.writer = u.task.writer.count answer) (hst : v.task.status = u.task.status)

variable {v : Strand} {st : Status}

lemma Remains.status (h : Remains u v) : v.task.status = u.task.status := by
  cases h <;> assumption

lemma Remains.act (h : Remains u v) (hv : v.Sound) (hst : v.task.status = some st)
    (today : CivilDate) (s : Store) : Remains u (v.act today s).1 := by
  obtain ⟨task, stroke⟩ := v
  have hclosed : task.writer.isClosed = true := hv.closes.isClosed hst
  have hidle := Task.act_settled (n := task.writer.space) ⟨hst, rfl, hclosed⟩ today s
  -- a whole call is refused, if it is a write at all
  have hcall : Remains u ⟨(task.act today s).1, .rest⟩ := by
    have hstatus := (Task.status_act hst today s).trans (hst.symm.trans h.status)
    cases h with
    | same hw _ _ => exact .same (hidle.writer.trans hw) hstatus fun hne => absurd rfl hne
    | counted answer hu _ hw _ => exact .counted answer hu rfl (hidle.writer.trans hw) hstatus
  unfold Strand.act
  cases hwrite : task.write? with
  | none => exact hcall
  | some w =>
    obtain ⟨call, next⟩ := w
    cases stroke with
    | rest => simpa only [hclosed, if_true] using hcall
    | entered =>
      cases h with
      | same hw hstatus hs => exact .same hw hstatus fun _ => hs (by simp)
      | counted _ _ hrest => cases hrest
    | answered answer =>
      cases h with
      | same hw hstatus hs =>
        have hw : task.writer = u.task.writer := hw
        exact .counted answer (hs (by simp)) rfl (congrArg (·.count answer) hw) hstatus
      | counted _ _ hrest => cases hrest

lemma Remains.expire (h : Remains u v) (hst : v.task.status = some st) : Remains u v.expire := by
  have hsame : v.expire = v := by rw [Strand.expire, Task.expire_of_some hst]
  rwa [hsame]

end Strand

/-- The tallies of a writer as they were read, and as they are in the end. If they were read while a
write was under way, this write may be missing. -/
structure Writer.Misses (late : Prop) (w w' : Writer) : Prop where
  written : w'.written = w.written ∨ late ∧ w'.written = w.written + 1
  rejected : w'.rejected = w.rejected ∨ late ∧ ∃ e, w'.rejected = w.rejected ++ [e]

namespace Strand

variable {u v : Strand} {st : Status}

lemma misses_count {late : Prop} (hlate : late) (w : Writer) (answer : Except StoreError Unit) :
    w.Misses late (w.count answer) := by
  cases answer with
  | ok => exact ⟨.inr ⟨hlate, rfl⟩, .inl rfl⟩
  | error e => exact ⟨.inl rfl, .inr ⟨hlate, e, rfl⟩⟩

/-- Tallies that are read late enough miss nothing but a write that is under way then. -/
lemma Remains.misses (h : Remains u v) :
    u.task.writer.Misses (u.stroke ≠ .rest) v.whole.writer := by
  cases h with
  | same hw _ hs =>
    rcases v.whole_cases with hv | ⟨hstroke, hv | ⟨answer, next, hv⟩⟩
    · rw [hv, hw]
      exact ⟨.inl rfl, .inl rfl⟩
    · rw [hv, ← hw]
      exact ⟨.inl rfl, .inl rfl⟩
    · rw [hv, Task.count, hw]
      exact misses_count (hs hstroke) _ answer
  | counted answer hu hv hw _ =>
    obtain ⟨task, stroke⟩ := v
    obtain rfl : stroke = .rest := hv
    have hw : task.writer = u.task.writer.count answer := hw
    rw [whole_rest, hw]
    exact misses_count hu _ answer

/-- A settled outcome is the same in whole calls, once the budget has run out there too. -/
lemma status_expire_whole (h : v.Sound) (hst : v.task.status = some st) :
    v.whole.expire.status = some st := by
  rcases v.whole_cases with hv | ⟨hstroke, hv | ⟨answer, next, hv⟩⟩
  · rw [hv, Task.expire_of_some hst, hst]
  · obtain rfl := h.late hstroke st hst
    rw [hv, Task.expire_reopened h.closes hst, hst]
  · have hcount : v.whole.status = some st := by rw [hv]; exact hst
    rw [Task.expire_of_some hcount, hcount]

lemma space_whole (v : Strand) : v.whole.writer.space = v.task.writer.space := by
  rcases v.whole_cases with hv | ⟨-, hv | ⟨answer, next, hv⟩⟩
  · rw [hv]
  · rw [hv]
    rfl
  · rw [hv]
    cases answer <;> rfl

end Strand

/-! ### All collectors in strokes -/

/-- The secondary collectors of a session in strokes, and the store they write into. -/
structure Strands where
  store : Store
  strands : List Strand

namespace Strands

variable {c : Strands} {i : ℕ} {u : Strand} {ms : List (CivilDate × Move)}

def step (today : CivilDate) (c : Strands) : Move → Strands
  | .act i =>
    match c.strands[i]? with
    | none => c
    | some u => ⟨(u.act today c.store).2, c.strands.set i (u.act today c.store).1⟩
  | .expire i => { c with strands := c.strands.modify i Strand.expire }

def schedule (c : Strands) (ms : List (CivilDate × Move)) : Strands :=
  ms.foldl (fun c m => c.step m.1 m.2) c

/-- The crew as it would be with whole calls. -/
def whole (c : Strands) : Crew := ⟨c.store, c.strands.map (·.whole)⟩

def Sound (c : Strands) : Prop := ∀ u ∈ c.strands, u.Sound

lemma schedule_append (c : Strands) (ms ms' : List (CivilDate × Move)) :
    c.schedule (ms ++ ms') = (c.schedule ms).schedule ms' := List.foldl_append

lemma step_act (h : c.strands[i]? = some u) (today : CivilDate) :
    c.step today (.act i) =
      ⟨(u.act today c.store).2, c.strands.set i (u.act today c.store).1⟩ := by
  simp [step, h]

lemma step_expire (h : c.strands[i]? = some u) (today : CivilDate) :
    c.step today (.expire i) = ⟨c.store, c.strands.set i u.expire⟩ := by
  simp [step, List.modify_eq_set_getElem?, h]

lemma getElem?_step_of_ne (c : Strands) (today : CivilDate) {m : Move} (hm : m.index ≠ i) :
    (c.step today m).strands[i]? = c.strands[i]? := by
  cases m with
  | act j =>
    have hj : j ≠ i := hm
    simp only [step]
    split
    · rfl
    · simp [hj]
  | expire j =>
    have hj : j ≠ i := hm
    simp [step, hj]

lemma Sound.step (h : c.Sound) (today : CivilDate) (m : Move) : (c.step today m).Sound := by
  cases m with
  | act i =>
    cases hu : c.strands[i]? with
    | none => simpa only [Strands.step, hu] using h
    | some u =>
      rw [step_act hu]
      intro v hv
      rcases List.mem_or_eq_of_mem_set hv with hv | rfl
      · exact h v hv
      · exact (h u (List.mem_of_getElem? hu)).act today c.store
  | expire i =>
    intro v hv
    obtain ⟨j, hj, rfl⟩ := List.mem_iff_getElem.mp hv
    simp only [Strands.step, List.getElem_modify]
    split
    · exact (h _ (List.getElem_mem _)).expire
    · exact h _ (List.getElem_mem _)

lemma whole_set (c : Strands) (s : Store) (i : ℕ) (v : Strand) :
    whole ⟨s, c.strands.set i v⟩ = ⟨s, c.whole.tasks.set i v.whole⟩ := by
  simp [whole, List.map_set]

lemma whole_set_of_eq (hu : c.strands[i]? = some u) {v : Strand} (hv : v.whole = u.whole) :
    whole ⟨c.store, c.strands.set i v⟩ = c.whole := by
  have htask : c.whole.tasks[i]? = some v.whole := by simp [whole, hu, hv]
  obtain ⟨hlt, hget⟩ := List.getElem?_eq_some_iff.mp htask
  rw [whole_set, ← hget, List.set_getElem_self]
  rfl

lemma exists_whole_step (h : c.Sound) (today : CivilDate) (m : Move) :
    ∃ ms, (c.step today m).whole = c.whole.schedule ms := by
  cases m with
  | act i =>
    cases hu : c.strands[i]? with
    | none => exact ⟨[], by simp [step, hu, Crew.schedule]⟩
    | some u =>
      have htask : c.whole.tasks[i]? = some u.whole := by simp [whole, hu]
      have hcomes := u.comes_act (h u (List.mem_of_getElem? hu)) today c.store
      rw [step_act hu]
      generalize u.act today c.store = w at hcomes
      cases hcomes with
      | nothing hv => exact ⟨[], whole_set_of_eq hu hv⟩
      | call hv =>
        refine ⟨[(today, .act i)], ?_⟩
        rw [whole_set, hv]
        exact (Crew.step_act htask today).symm
      | lastCall hv =>
        refine ⟨[(today, .act i), (today, .expire i)], ?_⟩
        have hact := Crew.getElem?_step_act htask today
        rw [whole_set, hv, Crew.schedule_cons, Crew.schedule_cons, Crew.step_expire,
          List.modify_eq_set_getElem?, hact, Crew.step_act htask]
        simp [Crew.schedule, whole]
  | expire i =>
    cases hu : c.strands[i]? with
    | none => exact ⟨[], by simp [step, List.modify_eq_set_getElem?, hu, Crew.schedule]⟩
    | some u =>
      have htask : c.whole.tasks[i]? = some u.whole := by simp [whole, hu]
      rw [step_expire hu]
      rcases u.whole_expire (h u (List.mem_of_getElem? hu)) with hv | hv
      · exact ⟨[], whole_set_of_eq hu hv⟩
      · refine ⟨[(today, .expire i)], ?_⟩
        rw [whole_set, hv, Crew.schedule_cons, Crew.step_expire, List.modify_eq_set_getElem?, htask]
        simp [Crew.schedule, whole]

/-- **Any order of strokes** comes to some order of whole calls. -/
theorem exists_whole_schedule (h : c.Sound) (ms : List (CivilDate × Move)) :
    (c.schedule ms).Sound ∧ ∃ ms', (c.schedule ms).whole = c.whole.schedule ms' := by
  induction ms generalizing c with
  | nil => exact ⟨h, [], rfl⟩
  | cons m ms ih =>
    obtain ⟨first, hfirst⟩ := exists_whole_step h m.1 m.2
    obtain ⟨hsound, rest, hrest⟩ := ih (h.step m.1 m.2)
    refine ⟨hsound, first ++ rest, ?_⟩
    rw [Crew.schedule_append, ← hfirst]
    exact hrest

/-! ### Whole calls in strokes -/

def atRest (c : Crew) : Strands := ⟨c.store, c.tasks.map (⟨·, .rest⟩)⟩

@[simp] lemma whole_atRest (c : Crew) : (atRest c).whole = c := by
  simp [atRest, whole, Function.comp_def]

lemma sound_atRest {c : Crew} (h : ∀ t ∈ c.tasks, t.Closes) : (atRest c).Sound := by
  intro u hu
  obtain ⟨t, ht, rfl⟩ := List.mem_map.mp hu
  exact Strand.sound_of_rest (h t ht)

lemma step_act_set (hlt : i < c.strands.length) (u : Strand) (today : CivilDate) (s : Store) :
    step today ⟨s, c.strands.set i u⟩ (.act i) =
      ⟨(u.act today s).2, c.strands.set i (u.act today s).1⟩ := by
  rw [step_act (u := u) (by simp [hlt])]
  simp

lemma exists_strokes_act {c : Crew} {t : Task} (ht : c.tasks[i]? = some t) (today : CivilDate) :
    ∃ ms, (atRest c).schedule ms = atRest (c.step today (.act i)) := by
  have hu : (atRest c).strands[i]? = some ⟨t, .rest⟩ := by simp [atRest, ht]
  obtain ⟨hlt, -⟩ := List.getElem?_eq_some_iff.mp hu
  -- a call that is no write, or that a closed writer refuses
  have hcall (h : (⟨t, .rest⟩ : Strand).act today c.store =
      (⟨(t.act today c.store).1, .rest⟩, (t.act today c.store).2)) :
      ∃ ms, (atRest c).schedule ms = atRest (c.step today (.act i)) := by
    refine ⟨[(today, .act i)], (step_act hu today).trans ?_⟩
    rw [show (atRest c).store = c.store from rfl, h, Crew.step_act ht]
    simp [atRest, List.map_set]
  cases hw : t.write? with
  | none => exact hcall (by simp [Strand.act, hw])
  | some w =>
    obtain ⟨call, next⟩ := w
    cases hclosed : t.writer.isClosed with
    | true => exact hcall (by simp [Strand.act, hw, hclosed])
    | false =>
      refine ⟨[(today, .act i), (today, .act i), (today, .act i)], ?_⟩
      simp only [schedule, List.foldl_cons, List.foldl_nil]
      rw [step_act hu, step_act_set hlt, step_act_set hlt, Crew.step_act ht,
        Task.act_eq_count hw hclosed]
      simp [Strand.act, hw, hclosed, atRest, List.map_set]

/-- Whole calls are among the orders of strokes. -/
theorem exists_strokes (c : Crew) (ms : List (CivilDate × Move)) :
    ∃ ms', (atRest c).schedule ms' = atRest (c.schedule ms) := by
  induction ms generalizing c with
  | nil => exact ⟨[], rfl⟩
  | cons m ms ih =>
    obtain ⟨today, m⟩ := m
    have hfirst : ∃ ms', (atRest c).schedule ms' = atRest (c.step today m) := by
      cases m with
      | act i =>
        cases ht : c.tasks[i]? with
        | none => exact ⟨[], by rw [Crew.step_act_of_none ht]; rfl⟩
        | some t => exact exists_strokes_act ht today
      | expire i =>
        refine ⟨[(today, .expire i)], ?_⟩
        show (atRest c).step today (.expire i) = _
        rw [Crew.step_expire]
        cases ht : c.tasks[i]? with
        | none => simp [step, atRest, List.modify_eq_set_getElem?, ht]
        | some t =>
          simp [step, atRest, List.modify_eq_set_getElem?, ht, Strand.expire, List.map_set]
    obtain ⟨first, hfirst⟩ := hfirst
    obtain ⟨rest, hrest⟩ := ih (c.step today m)
    exact ⟨first ++ rest, by rw [schedule_append, hfirst, hrest]; rfl⟩

/-! ### Tallies that were read on the way -/

lemma length_step (c : Strands) (today : CivilDate) (m : Move) :
    (c.step today m).strands.length = c.strands.length := by
  cases m with
  | act i =>
    simp only [step]
    split <;> simp
  | expire i => simp [step]

lemma length_schedule (c : Strands) (ms : List (CivilDate × Move)) :
    (c.schedule ms).strands.length = c.strands.length := by
  induction ms generalizing c with
  | nil => rfl
  | cons m ms ih => exact (ih (c.step m.1 m.2)).trans (c.length_step m.1 m.2)

lemma exists_remains {v : Strand} {st : Status} (h : c.Sound) (hst : u.task.status = some st)
    (hv : c.strands[i]? = some v) (hr : u.Remains v) (ms : List (CivilDate × Move)) :
    ∃ w, (c.schedule ms).strands[i]? = some w ∧ u.Remains w := by
  induction ms generalizing c v with
  | nil => exact ⟨v, hv, hr⟩
  | cons m ms ih =>
    obtain ⟨today, m⟩ := m
    have hsound := h.step today m
    have hvst : v.task.status = some st := hr.status.trans hst
    obtain ⟨hlt, -⟩ := List.getElem?_eq_some_iff.mp hv
    by_cases hm : m.index = i
    · cases m with
      | act j =>
        obtain rfl : j = i := hm
        refine ih hsound ?_ (hr.act (h v (List.mem_of_getElem? hv)) hvst today c.store)
        simp [step_act hv, hlt]
      | expire j =>
        obtain rfl : j = i := hm
        refine ih hsound ?_ (hr.expire hvst)
        simp [step_expire hv, hlt]
    · exact ih hsound ((getElem?_step_of_ne c today hm).trans hv) hr

/-- At some time under the schedule the collector in one place was `u`, with its outcome settled. -/
def Passes (c : Strands) (i : ℕ) (ms : List (CivilDate × Move)) (u : Strand) : Prop :=
  ∃ before after, ms = before ++ after ∧ (c.schedule before).strands[i]? = some u ∧
    u.task.status.isSome = true

lemma Passes.exists_remains (h : c.Passes i ms u) (hc : c.Sound) :
    ∃ v, (c.schedule ms).strands[i]? = some v ∧ u.Remains v := by
  obtain ⟨before, after, rfl, hu, hst⟩ := h
  obtain ⟨st, hst⟩ := Option.isSome_iff_exists.mp hst
  rw [schedule_append]
  exact Strands.exists_remains (exists_whole_schedule hc before).1 hst hu (.same rfl rfl id) after

/-- A write of the collector in one place was still under way when its outcome was settled. -/
def Overlaps (c : Strands) (i : ℕ) (ms : List (CivilDate × Move)) : Prop :=
  ∃ u, c.Passes i ms u ∧ u.stroke ≠ .rest

lemma Passes.misses {v : Strand} (h : c.Passes i ms u) (hc : c.Sound)
    (hv : (c.schedule ms).strands[i]? = some v) :
    u.task.writer.Misses (c.Overlaps i ms) v.whole.expire.writer := by
  obtain ⟨w, hw, hremains⟩ := h.exists_remains hc
  obtain rfl : w = v := Option.some.inj (hw.symm.trans hv)
  have hoverlaps : u.stroke ≠ .rest → c.Overlaps i ms := fun hs => ⟨u, h, hs⟩
  obtain ⟨hwritten, hrejected⟩ := hremains.misses
  refine ⟨?_, ?_⟩
  · rw [w.whole.written_expire]
    exact hwritten.imp_right (And.imp_left hoverlaps)
  · rw [w.whole.rejected_expire]
    exact hrejected.imp_right (And.imp_left hoverlaps)

end Strands

end Dossier
