import Dossier.Metrics
import Dossier.Task

/-!
The report of a session: one outcome per collector, and the store as the session left it.
-/

namespace Dossier

structure Outcome where
  space : String
  status : Status
  written : Nat
  rejected : List StoreError
  /-- How long the collector was at work, in nanoseconds. -/
  elapsed : Nat

structure Report where
  primary : Option Outcome
  secondaries : List Outcome
  store : Store

namespace Outcome

def isFailure (o : Outcome) : Bool :=
  match o.status with
  | .failed _ => true
  | _ => false

def statusFields : Status → List (String × Data)
  | .success => [("status", .string "success")]
  | .failed failure => [("status", .string "failed"), ("error", failure.data)]
  | .skipped => [("status", .string "skipped")]

def fields (o : Outcome) : List (String × Data) :=
  ("namespace", .string o.space) :: statusFields o.status ++
    [("written", .integer o.written), ("rejected", .array (o.rejected.map (·.data)))]

def data (o : Outcome) : Data :=
  .object (o.fields ++ [("duration_ms", .integer (o.elapsed / Span.nanosPerMilli : Nat))])

/-- What a collector that was at work adds to the metrics. -/
def measurements (o : Outcome) : List Measurement :=
  let seconds := Float.ofNat o.elapsed / 1000000000.0
  [.add ⟨.observationsWritten, [o.space]⟩ o.written,
    .add ⟨.observationsRejected, [o.space]⟩ o.rejected.length,
    match o.status with
    | .failed failure => .add ⟨.collectorsFailed, [o.space, failure.tag]⟩ 1
    | _ => .add ⟨.collectorsSucceeded, [o.space]⟩ 1,
    .sample ⟨.collectorDuration, [o.space]⟩ seconds]

end Outcome

namespace Report

def outcomes (r : Report) : List Outcome := r.primary.toList ++ r.secondaries

/-- The outcome of a namespace, whose letters may be of either case. -/
def outcome? (r : Report) (space : String) : Option Outcome :=
  r.outcomes.find? (·.space == Text.lower space)

def failed (r : Report) : List Outcome := r.outcomes.filter (·.isFailure)

def individuals (r : Report) : List Individual := r.store.individuals

def registry (r : Report) : Registry := r.store.registry

/-- The individuals of the report who meet requirements. -/
def select (r : Report) (q : Requirements) : Except Unsatisfiable (List Individual) :=
  q.select r.registry r.individuals

end Report

/-- What a query adds to the metrics. -/
def Requirements.measurements (q : Requirements) (registry : Registry) (is : List Individual) :
    List Measurement :=
  let found := (q.select registry is).toOption.getD []
  [.add ⟨.queries, []⟩ 1,
    .sample ⟨.candidates, []⟩ (Float.ofNat (q.candidates is).length),
    .sample ⟨.found, []⟩ (Float.ofNat found.length)] ++
    match q.select registry is with
    | .ok _ => []
    | .error _ => [.add ⟨.unsatisfiable, []⟩ 1]

end Dossier
