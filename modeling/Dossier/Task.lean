import Dossier.Collector
import Dossier.Writer

/-!
A secondary collector at work. It performs one call at a time; when its work ends, or its budget
runs out before, its status is settled and its writer closed. Work that goes on after that is
refused every write, and stops at the first wait that can be interrupted. A call is a single step
here; the steps of a write, between which a budget may run out as well, are those of `Strand`. Every
collector can be started: one for which there is no thread is left out.
-/

namespace Dossier

inductive Status where
  | success
  | failed (failure : CollectorFailure)
  | skipped
deriving DecidableEq

/-- What a collector was shown or answered. A write comes with the number of writes accepted
so far. -/
inductive JournalEntry where
  | shown (individuals : List Individual)
  | wrote (answer : Except StoreError Unit) (written : Nat)
  | looked (answer : Option Observation)

structure Task where
  budget : Span
  writer : Writer
  /-- What is left to do; nothing if the work is over. -/
  rest : Option Activity
  /-- Whether the setup is over. -/
  isReady : Bool
  /-- Nothing as long as the collector is in time and at work. -/
  status : Option Status
  journal : List JournalEntry

namespace Task

/-- A collector is shown the individuals and starts its work. -/
def start (space : String) (budget : Span) (work : List Individual → Activity)
    (shown : List Individual) : Task :=
  ⟨budget, .ofNamespace space, some (work shown), false, none, [.shown shown]⟩

/-- The work is over. A status that was settled before stays. -/
def finish (t : Task) (s : Status) : Task :=
  { t with rest := none, status := some (t.status.getD s), writer := t.writer.close }

def expire (t : Task) : Task :=
  match t.status with
  | some _ => t
  | none => { t with status := some (.failed (.timeout t.budget)), writer := t.writer.close }

def answered (t : Task) (w : Written) (next : Except StoreError Unit → Activity) : Task × Store :=
  ({ t with
    writer := w.writer
    rest := some (next w.answer)
    journal := t.journal ++ [.wrote w.answer w.writer.written] }, w.store)

def act (t : Task) (today : CivilDate) (s : Store) : Task × Store :=
  match t.rest with
  | none => (t, s)
  | some .done => (t.finish .success, s)
  | some (.fail causes) =>
    let failure : CollectorFailure :=
      if t.isReady then .failed (chain causes) else .setupFailed (chain causes)
    (t.finish (.failed failure), s)
  | some (.crash message) => (t.finish (.failed (.ofCrash message)), s)
  | some (.ready next) => ({ t with isReady := true, rest := some next }, s)
  | some (.put id localName v r next) => t.answered (t.writer.put s today id localName v r) next
  | some (.putObservation id k o next) => t.answered (t.writer.putObservation s today id k o) next
  | some (.look id k next) =>
    let answer := s.get? id k
    ({ t with rest := some (next answer), journal := t.journal ++ [.looked answer] }, s)
  | some (.pause _ holding next) =>
    if t.status.isSome && !holding then ({ t with rest := none }, s)
    else ({ t with rest := some next }, s)

end Task

/-! ## All collectors at work -/

/-- The secondary collectors of a session and the store they write into. -/
structure Crew where
  store : Store
  tasks : List Task

/-- One step of the crew: a collector performs its next call as a whole, or its budget runs out. -/
inductive Move where
  | act (index : Nat)
  | expire (index : Nat)

namespace Crew

def actAt (today : CivilDate) : Nat → List Task → Store → List Task × Store
  | _, [], s => ([], s)
  | 0, t :: ts, s => let (t, s) := t.act today s; (t :: ts, s)
  | i + 1, t :: ts, s => let (ts, s) := actAt today i ts s; (t :: ts, s)

def expireAt : Nat → List Task → List Task
  | _, [] => []
  | 0, t :: ts => t.expire :: ts
  | i + 1, t :: ts => t :: expireAt i ts

def step (today : CivilDate) (c : Crew) : Move → Crew
  | .act i => let (tasks, store) := actAt today i c.tasks c.store; ⟨store, tasks⟩
  | .expire i => { c with tasks := expireAt i c.tasks }

/-- The crew after any number of moves, in whatever order the collectors come to act. -/
def play (today : CivilDate) (c : Crew) (ms : List Move) : Crew := ms.foldl (step today) c

end Crew

end Dossier
