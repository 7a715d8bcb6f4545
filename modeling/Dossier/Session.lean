import Dossier.Archive
import Dossier.Clock
import Dossier.Report

/-!
Sessions. Collectors are registered while a session is being configured; then the registry is
sealed, the primary collector brings the individuals in, the secondary collectors enrich them, and
the session is completed. No session runs twice, and no stage is entered again.
-/

namespace Dossier

inductive Stage where
  | configuring
  | registrySealed
  | primaryRunning
  | secondariesRunning
  | completed
deriving DecidableEq

def Stage.name : Stage → String
  | configuring => "configuring"
  | registrySealed => "registry_sealed"
  | primaryRunning => "primary_running"
  | secondariesRunning => "secondaries_running"
  | completed => "completed"

/-- A session is not in the stage in which it would have to be. -/
structure StageError where
  expected : Stage
  actual : Stage
deriving DecidableEq

def StageError.message (e : StageError) : String :=
  "Session is " ++ e.actual.name ++ ", expected " ++ e.expected.name

structure Settings where
  /-- The budget of collectors that have none of their own. -/
  collectorTimeout : Span
  /-- How many secondary collectors may be at work together; nothing if all of them may. -/
  maxConcurrency : Option Nat
deriving DecidableEq

def Settings.default : Settings := ⟨.ofSecs 60, none⟩

structure Session where
  settings : Settings
  stage : Stage
  registry : Registry
  /-- Whether somebody outside holds the registry, which cannot be changed then. -/
  isShared : Bool
  primary : Option Primary
  secondaries : List Secondary
  archive : Option Archive

structure Run where
  report : Report
  session : Session
  measurements : List Measurement
  /-- What each secondary collector was shown and answered; empty for those that were skipped. -/
  journals : List (List JournalEntry)
  /-- When the primary collector was through, in nanoseconds from the start. -/
  primaryDoneAt : Nat
  /-- When the last collector was through. -/
  doneAt : Nat
  ids : IdSupply

/-- Whether a run is over before a moment. One without a primary collector has nobody to wait for
and is over at once. -/
def Run.isOverBefore (r : Run) (moment : Nat) : Bool :=
  r.report.primary.isNone || r.doneAt < moment

namespace Session

def ofSettings (settings : Settings) : Session :=
  ⟨settings, .configuring, .empty, false, none, [], none⟩

/-! ## Configuring -/

def declare (s : Session) (space : String) (ds : List Declaration) : Except SchemaError Session :=
  if s.stage != .configuring then .error .closed
  else if s.isShared then .error .closed
  else
    match s.registry.register space ds with
    | .error e => .error e
    | .ok registry => .ok { s with registry }

def registerPrimary (s : Session) (p : Primary) : Except SchemaError Session :=
  if s.stage != .configuring then .error .closed
  else
    match s.primary with
    | some existing => .error (.secondPrimary existing.space p.space)
    | none =>
      match s.declare p.space p.declarations with
      | .error e => .error e
      | .ok s => .ok { s with primary := some p }

def registerSecondary (s : Session) (c : Secondary) : Except SchemaError Session :=
  match s.declare c.space c.declarations with
  | .error e => .error e
  | .ok s => .ok { s with secondaries := s.secondaries ++ [c] }

/-- Ends the configuration. Sealing again before a run changes nothing. -/
def sealRegistry (s : Session) : Except StageError Session :=
  match s.stage with
  | .configuring =>
    let registry := if s.isShared then s.registry else s.registry.close
    .ok { s with registry, stage := .registrySealed }
  | .registrySealed => .ok s
  | actual => .error ⟨.configuring, actual⟩

/-! ## The primary collector -/

/-- The namespace under which a collector runs: in normal form if it has one. -/
def runningNamespace (space : String) : String :=
  match normalNamespace space with
  | .ok n => n
  | .error _ => Text.lower space

/-- Stores the individuals that have no identifier, up to the first that cannot be stored. -/
def persistNew (a : Archive) (ids : IdSupply) :
    List Individual → Except ArchiveError (List Individual) × Archive × IdSupply
  | [] => (.ok [], a, ids)
  | i :: is =>
    match i.id with
    | some _ =>
      let (rest, a, ids) := persistNew a ids is
      (rest.map (i :: ·), a, ids)
    | none =>
      match a.persist ids i with
      | (.error e, ids) => (.error e, a, ids)
      | (.ok (a, i), ids) =>
        let (rest, a, ids) := persistNew a ids is
        (rest.map (i :: ·), a, ids)

/-- Takes the individuals into the store in their order. Those whose identifier is there already
are dropped; each of the others keeps the attributes it came with for later. -/
def takeIn (s : Store) (ids : IdSupply) :
    List Individual → Store × IdSupply × List (Uuid × SortedMap Key Observation) × List StoreError
  | [] => (s, ids, [], [])
  | i :: is =>
    match s.add ids i with
    | (.error e, ids) =>
      let (s, ids, kept, dropped) := takeIn s ids is
      (s, ids, kept, e :: dropped)
    | (.ok (id, s), ids) =>
      let (s, ids, kept, dropped) := takeIn s ids is
      (s, ids, (id, i.attributes) :: kept, dropped)

/-- The calls that write the attributes of individuals, in their order and that of the keys. -/
def attributeCalls (kept : List (Uuid × SortedMap Key Observation)) : List WriterCall :=
  kept.flatMap fun (id, attributes) =>
    attributes.toList.map fun (k, o) => .putObservation id k o

def performAll (today : CivilDate) (w : Writer) (s : Store) : List WriterCall → Writer × Store
  | [] => (w, s)
  | call :: calls =>
    let after := w.perform s today call
    performAll today after.writer after.store calls

structure PrimaryRun where
  outcome : Outcome
  store : Store
  archive : Option Archive
  ids : IdSupply

/-- A store with the individuals that the primary collector came back with. -/
def materialise (registry : Registry) (space : String) (today : CivilDate) (elapsed : Nat)
    (archive : Option Archive) (ids : IdSupply) (is : List Individual) : PrimaryRun :=
  let (store, ids, kept, dropped) := takeIn (.ofRegistry registry) ids is
  let (writer, store) := performAll today (.ofNamespace space) store (attributeCalls kept)
  ⟨⟨space, .success, writer.written, dropped ++ writer.rejected, elapsed⟩, store, archive, ids⟩

def runPrimary (s : Session) (p : Primary) (today : CivilDate) (ids : IdSupply) : PrimaryRun :=
  let space := runningNamespace p.space
  let budget := p.timeout.getD s.settings.collectorTimeout
  let (collected, elapsed) := p.collect.settle budget 0
  let fail (failure : CollectorFailure) (archive : Option Archive) (ids : IdSupply) : PrimaryRun :=
    ⟨⟨space, .failed failure, 0, [], elapsed⟩, .ofRegistry s.registry, archive, ids⟩
  match collected with
  | .error failure => fail failure s.archive ids
  | .ok is =>
    match s.archive with
    | none => materialise s.registry space today elapsed none ids is
    | some archive =>
      match persistNew archive ids is with
      | (.error e, archive, ids) => fail (.persistence e.message) (some archive) ids
      | (.ok is, archive, ids) => materialise s.registry space today elapsed (some archive) ids is

/-! ## The secondary collectors -/

def skip (c : Secondary) : Outcome := ⟨Text.lower c.space, .skipped, 0, [], 0⟩

/-- The secondary collectors, each before its first call. -/
def crew (s : Session) (store : Store) : Crew :=
  ⟨store, s.secondaries.map fun c =>
    .start (runningNamespace c.space) (c.timeout.getD s.settings.collectorTimeout) c.work
      store.individuals⟩

/-- The most places that there can be. A session that is told to have more breaks off before any
secondary collector starts, without a report. That is left out of `run`, so what is said of a run
holds up to this many places. -/
def maxPlaces : Nat := Nat.pow 2 61 - 1

/-- How many secondary collectors may be at work together: at least one. -/
def places (s : Session) : Nat := max 1 (s.settings.maxConcurrency.getD s.secondaries.length)

def outcomeOf (t : TimedTask) : Outcome :=
  let w := t.task.writer
  ⟨w.space, t.task.status.getD .success, w.written, w.rejected, t.elapsed⟩

/-! ## A whole run -/

/-- What there is before the secondary collectors come to work. -/
structure Opening where
  /-- Nothing if there is no primary collector. -/
  outcome : Option Outcome
  store : Store
  archive : Option Archive
  ids : IdSupply

/-- The primary collector's part of a run. Without one there are no individuals. -/
def opening (s : Session) (today : CivilDate) (ids : IdSupply) : Opening :=
  match s.primary with
  | none => ⟨none, .ofRegistry s.registry, s.archive, ids⟩
  | some p =>
    let r := s.runPrimary p today ids
    ⟨some r.outcome, r.store, r.archive, r.ids⟩

def runSealed (s : Session) (today : CivilDate) (ids : IdSupply) : Run :=
  let ⟨primary, store, archive, ids⟩ := s.opening today ids
  let primaryDoneAt := (primary.map (·.elapsed)).getD 0
  let first := (primary.map (·.measurements)).getD [] ++
    [.set ⟨.individuals, []⟩ (Float.ofNat store.size)]
  let after : Session := { s with stage := .completed, primary := none, secondaries := [], archive }
  if store.isEmpty then
    ⟨⟨primary, s.secondaries.map skip, store⟩, after, first, s.secondaries.map fun _ => [],
      primaryDoneAt, primaryDoneAt, ids⟩
  else
    let clock := (Clock.ofCrew (s.crew store)).run today s.places
    let outcomes := clock.tasks.map outcomeOf
    let last := (clock.tasks.map fun t => t.endedAt.getD 0).foldl max 0
    ⟨⟨primary, outcomes, clock.store⟩, after, first ++ outcomes.flatMap (·.measurements),
      clock.tasks.map (·.task.journal), primaryDoneAt, primaryDoneAt + last, ids⟩

def run (s : Session) (today : CivilDate) (ids : IdSupply) : Except StageError Run :=
  match s.sealRegistry with
  | .error e => .error e
  | .ok s => .ok (s.runSealed today ids)

/-- The session that is left when a run is broken off at a moment before its end. -/
def brokenOff (s : Session) (r : Run) (moment : Nat) : Session :=
  if moment ≤ r.primaryDoneAt then
    { s with
      registry := r.session.registry
      stage := .primaryRunning
      primary := none }
  else { r.session with stage := .secondariesRunning }

end Session

end Dossier
