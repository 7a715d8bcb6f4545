import Dossier.Task

/-!
When the collectors of a crew act. Only so many of them may be at work at the same time; the
others wait in their order, and a budget counts from the moment at which its collector starts.
Waiting takes time, all other calls take none. What is due first happens first, a budget that runs
out before a call at the same moment, and of two collectors the one before the other.
-/

namespace Dossier

/-! ## Calls run out -/

/-- `Shorter a b`: the work `a` is left when the first call of `b` was performed. -/
inductive Shorter : Option Activity → Option Activity → Prop where
  | over (a : Activity) : Shorter none (some a)
  | ready (next : Activity) : Shorter (some next) (some (.ready next))
  | put (id : Uuid) (l : String) (v : Value) (r : Float) (next : Except StoreError Unit → Activity)
      (answer : Except StoreError Unit) : Shorter (some (next answer)) (some (.put id l v r next))
  | putObservation (id : Uuid) (k : Key) (o : Observation)
      (next : Except StoreError Unit → Activity) (answer : Except StoreError Unit) :
      Shorter (some (next answer)) (some (.putObservation id k o next))
  | look (id : Uuid) (k : Key) (next : Option Observation → Activity)
      (answer : Option Observation) : Shorter (some (next answer)) (some (.look id k next))
  | pause (ms : Nat) (holding : Bool) (next : Activity) :
      Shorter (some next) (some (.pause ms holding next))

theorem acc_shorter_none : Acc Shorter none := ⟨_, fun _ h => by cases h⟩

theorem acc_shorter (a : Activity) : Acc Shorter (some a) := by
  induction a with
  | done => exact ⟨_, fun _ h => by cases h; exact acc_shorter_none⟩
  | fail => exact ⟨_, fun _ h => by cases h; exact acc_shorter_none⟩
  | crash => exact ⟨_, fun _ h => by cases h; exact acc_shorter_none⟩
  | ready next ih => exact ⟨_, fun _ h => by cases h <;> first | exact acc_shorter_none | exact ih⟩
  | put id l v r next ih =>
    exact ⟨_, fun _ h => by cases h <;> first | exact acc_shorter_none | exact ih _⟩
  | putObservation id k o next ih =>
    exact ⟨_, fun _ h => by cases h <;> first | exact acc_shorter_none | exact ih _⟩
  | look id k next ih =>
    exact ⟨_, fun _ h => by cases h <;> first | exact acc_shorter_none | exact ih _⟩
  | pause ms holding next ih =>
    exact ⟨_, fun _ h => by cases h <;> first | exact acc_shorter_none | exact ih⟩

theorem wellFounded_shorter : WellFounded Shorter :=
  ⟨fun a => by cases a with | none => exact acc_shorter_none | some a => exact acc_shorter a⟩

/-- One of the works in a list was shortened by a call, the others are as they were. -/
inductive OneShorter : List (Option Activity) → List (Option Activity) → Prop where
  | head {a b : Option Activity} (h : Shorter a b) (l : List (Option Activity)) :
      OneShorter (a :: l) (b :: l)
  | tail (a : Option Activity) {l m : List (Option Activity)} (h : OneShorter l m) :
      OneShorter (a :: l) (a :: m)

theorem acc_oneShorter_cons {a : Option Activity} {l : List (Option Activity)} (ha : Acc Shorter a)
    (hl : Acc OneShorter l) : Acc OneShorter (a :: l) := by
  induction ha generalizing l with
  | intro a _ iha =>
    induction hl with
    | intro l hl ihl =>
      refine ⟨_, fun m h => ?_⟩
      cases h with
      | head h => exact iha _ h ⟨l, hl⟩
      | tail _ h => exact ihl _ h

theorem wellFounded_oneShorter : WellFounded OneShorter := by
  refine ⟨fun l => ?_⟩
  induction l with
  | nil => exact ⟨_, fun _ h => by cases h⟩
  | cons a l ih => exact acc_oneShorter_cons (wellFounded_shorter.apply a) ih

/-! ## The clock -/

/-- A task with its times, in nanoseconds from the start of the crew. -/
structure TimedTask where
  task : Task
  /-- Nothing as long as the collector waits for its turn. -/
  startedAt : Option Nat
  /-- When the next call is due. -/
  dueAt : Nat
  /-- When the status was settled. -/
  endedAt : Option Nat

structure Clock where
  now : Nat
  store : Store
  tasks : List TimedTask

namespace TimedTask

def delay (t : Task) : Nat :=
  match t.rest with
  | some (.pause millis _ _) => millis * Span.nanosPerMilli
  | _ => 0

def isRunning (t : TimedTask) : Bool := t.startedAt.isSome && t.task.status.isNone

def isWaiting (t : TimedTask) : Bool := t.startedAt.isNone

/-- The moment of the next call, if the collector has started and has something left to do. -/
def nextCall? (t : TimedTask) : Option Nat :=
  if t.startedAt.isSome && t.task.rest.isSome then some t.dueAt else none

def deadline? (t : TimedTask) : Option Nat :=
  match t.startedAt, t.task.status with
  | some start, none => some (start + t.task.budget.toNanos)
  | _, _ => none

def startAt (now : Nat) (t : TimedTask) : TimedTask :=
  { t with startedAt := some now, dueAt := now + delay t.task }

/-- The end of a task that has a status now and has no end yet. -/
def endAfter (now : Nat) (t : TimedTask) (task : Task) : Option Nat :=
  if t.endedAt.isNone && task.status.isSome then some now else t.endedAt

def act (today : CivilDate) (now : Nat) (t : TimedTask) (s : Store) : TimedTask × Store :=
  let (task, s) := t.task.act today s
  ({ t with task, dueAt := now + delay task, endedAt := t.endAfter now task }, s)

def expire (now : Nat) (t : TimedTask) : TimedTask :=
  { t with task := t.task.expire, endedAt := t.endAfter now t.task.expire }

def elapsed (t : TimedTask) : Nat := t.endedAt.getD 0 - t.startedAt.getD 0

end TimedTask

namespace Clock

def ofCrew (c : Crew) : Clock := ⟨0, c.store, c.tasks.map fun t => ⟨t, none, 0, none⟩⟩

def crew (c : Clock) : Crew := ⟨c.store, c.tasks.map (·.task)⟩

/-- Starts waiting collectors, in their order, while there are places. -/
def fill (now : Nat) : Nat → List TimedTask → List TimedTask
  | _, [] => []
  | 0, ts => ts
  | places + 1, t :: ts =>
    if t.isWaiting then t.startAt now :: fill now places ts else t :: fill now (places + 1) ts

/-- Lets collectors start up to the number that may be at work together. -/
def refill (cap : Nat) (c : Clock) : Clock :=
  let running := (c.tasks.filter (·.isRunning)).length
  { c with tasks := fill c.now (cap - running) c.tasks }

/-- The least moment in a list and the first index at which it stands. -/
def earliest? (moments : List (Option Nat)) : Option (Nat × Nat) :=
  (moments.zipIdx.foldl fun best (m, i) =>
    match m, best with
    | none, best => best
    | some m, none => some (m, i)
    | some m, some (b, j) => if m < b then some (m, i) else some (b, j)) none

/-- The next move and its moment. -/
def next? (c : Clock) : Option (Nat × Move) :=
  match earliest? (c.tasks.map (·.deadline?)), earliest? (c.tasks.map (·.nextCall?)) with
  | some (d, i), some (m, j) => if d ≤ m then some (d, .expire i) else some (m, .act j)
  | some (d, i), none => some (d, .expire i)
  | none, some (m, j) => some (m, .act j)
  | none, none => none

def actAt (today : CivilDate) (now : Nat) : Nat → List TimedTask → Store → List TimedTask × Store
  | _, [], s => ([], s)
  | 0, t :: ts, s => let (t, s) := t.act today now s; (t :: ts, s)
  | i + 1, t :: ts, s => let (ts, s) := actAt today now i ts s; (t :: ts, s)

def expireAt (now : Nat) : Nat → List TimedTask → List TimedTask
  | _, [] => []
  | 0, t :: ts => t.expire now :: ts
  | i + 1, t :: ts => t :: expireAt now i ts

def step (today : CivilDate) (c : Clock) (now : Nat) : Move → Clock
  | .act i => let (tasks, store) := actAt today now i c.tasks c.store; ⟨now, store, tasks⟩
  | .expire i => { c with now, tasks := expireAt now i c.tasks }

def work (c : Clock) : List (Option Activity) := c.tasks.map (·.task.rest)

def unsettled (c : Clock) : Nat := (c.tasks.filter (·.task.status.isNone)).length

/-- Whether a move changes anything. -/
def allows (c : Clock) : Move → Bool
  | .act i => ((c.tasks[i]?).bind (·.task.rest)).isSome
  | .expire i => ((c.tasks[i]?).map (·.task.status.isNone)).getD false

/-! ## Every run comes to an end -/

theorem work_fill (now places : Nat) (ts : List TimedTask) :
    (fill now places ts).map (·.task) = ts.map (·.task) := by
  induction ts generalizing places with
  | nil => cases places <;> rfl
  | cons t ts ih =>
    cases places with
    | zero => rfl
    | succ places =>
      simp only [fill]
      split <;> simp [ih, TimedTask.startAt]

theorem task_refill (cap : Nat) (c : Clock) :
    (c.refill cap).tasks.map (·.task) = c.tasks.map (·.task) := work_fill _ _ _

theorem work_eq (c : Clock) : c.work = (c.tasks.map (·.task)).map (·.rest) := by
  simp [work, Function.comp_def]

theorem unsettled_eq (c : Clock) :
    c.unsettled = ((c.tasks.map (·.task)).filter (·.status.isNone)).length := by
  simp [unsettled, List.filter_map, Function.comp_def]

end Clock

theorem Task.shorter_act (t : Task) (today : CivilDate) (s : Store) (h : t.rest.isSome = true) :
    Shorter (t.act today s).1.rest t.rest := by
  obtain ⟨a, ha⟩ := Option.isSome_iff_exists.1 h
  cases a <;> simp only [Task.act, ha]
  case pause =>
    split
    · exact .over _
    · exact .pause _ _ _
  all_goals constructor

theorem Task.status_expire (t : Task) (h : t.status.isNone = true) :
    t.expire.status.isNone = false ∧ t.expire.rest = t.rest := by
  obtain ⟨budget, writer, rest, isReady, status, journal⟩ := t
  cases status <;> simp_all [Task.expire]

namespace Clock

theorem oneShorter_actAt (today : CivilDate) (now i : Nat) (ts : List TimedTask) (s : Store)
    (h : ((ts[i]?).bind (·.task.rest)).isSome = true) :
    OneShorter ((actAt today now i ts s).1.map (·.task.rest)) (ts.map (·.task.rest)) := by
  induction ts generalizing i with
  | nil => simp at h
  | cons t ts ih =>
    cases i with
    | zero => exact .head (t.task.shorter_act today s (by simpa using h)) _
    | succ i => exact .tail _ (ih i (by simpa using h))

theorem expireAt_spec (now i : Nat) (ts : List TimedTask)
    (h : ((ts[i]?).map (·.task.status.isNone)).getD false = true) :
    (expireAt now i ts).map (·.task.rest) = ts.map (·.task.rest) ∧
      ((expireAt now i ts).filter (·.task.status.isNone)).length <
        (ts.filter (·.task.status.isNone)).length := by
  induction ts generalizing i with
  | nil => simp at h
  | cons t ts ih =>
    cases i with
    | zero =>
      have ht : t.task.status.isNone = true := by simpa using h
      have he := t.task.status_expire ht
      simp [expireAt, TimedTask.expire, he.1, he.2, ht]
    | succ i =>
      have hi := ih i (by simpa using h)
      refine ⟨by simp [expireAt, hi.1], ?_⟩
      simp only [expireAt, List.filter_cons]
      split <;> simp [hi.2]

end Clock

structure Effort where
  work : List (Option Activity)
  unsettled : Nat

instance : WellFoundedRelation Effort :=
  invImage (fun e => (e.work, e.unsettled))
    (Prod.lex ⟨OneShorter, wellFounded_oneShorter⟩ inferInstance)

namespace Clock

def effort (c : Clock) : Effort := ⟨c.work, c.unsettled⟩

theorem effort_refill (cap : Nat) (c : Clock) : (c.refill cap).effort = c.effort := by
  simp only [effort, work_eq, unsettled_eq, task_refill]

theorem effort_step (today : CivilDate) (c : Clock) (now : Nat) (m : Move)
    (h : c.allows m = true) : WellFoundedRelation.rel (c.step today now m).effort c.effort := by
  cases m with
  | act i => exact Prod.Lex.left _ _ (oneShorter_actAt today now i c.tasks c.store h)
  | expire i =>
    obtain ⟨hw, hu⟩ := expireAt_spec now i c.tasks h
    show Prod.Lex _ _ ((c.step today now (.expire i)).work, _) (c.work, _)
    have hw' : (c.step today now (.expire i)).work = c.work := hw
    rw [hw']
    exact Prod.Lex.right _ hu

def run (today : CivilDate) (cap : Nat) (c : Clock) : Clock :=
  match next? (c.refill cap) with
  | none => c.refill cap
  | some (now, m) =>
    if (c.refill cap).allows m then run today cap ((c.refill cap).step today now m)
    else c.refill cap
termination_by c.effort
decreasing_by
  rw [← effort_refill cap c]
  exact effort_step _ _ _ _ ‹_›

end Clock

end Dossier
