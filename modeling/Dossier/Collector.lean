import Dossier.Coding
import Dossier.Span
import Dossier.Store

/-!
Collectors. The primary collector of a session brings the individuals in; secondary collectors
add what they know of them. What a collector does is data: a tree whose calls branch on what they
are answered.
-/

namespace Dossier

/-- Texts of an error and its causes, the outermost first, in one line. -/
def chain (causes : List String) : String := ": ".intercalate causes

inductive CollectorFailure where
  | timeout (budget : Span)
  | crashed (reason : String)
  | setupFailed (reason : String)
  | failed (reason : String)
  | cancelled
  | persistence (reason : String)
deriving DecidableEq

namespace CollectorFailure

def message : CollectorFailure → String
  | timeout budget => "Collector timed out after " ++ budget.text
  | crashed reason => "Collector panicked: " ++ reason
  | setupFailed reason => "Collector setup failed: " ++ reason
  | failed reason => "Collector failed: " ++ reason
  | cancelled => "Collector task was cancelled"
  | persistence reason => "Persistence error: " ++ reason

/-- A word for the way of failing. -/
def tag : CollectorFailure → String
  | timeout _ => "timeout"
  | crashed _ => "panic"
  | setupFailed _ => "setup_failed"
  | failed _ => "failed"
  | cancelled => "cancelled"
  | persistence _ => "persistence"

def detail? : CollectorFailure → Option Data
  | timeout budget =>
    some (.object [("secs", .integer budget.secs), ("nanos", .integer budget.nanos)])
  | crashed reason | setupFailed reason | failed reason | persistence reason =>
    some (.string reason)
  | cancelled => none

def data (e : CollectorFailure) : Data :=
  .object (("reason", .string e.tag) :: (e.detail?.map fun d => ("detail", d)).toList)

/-- A collector that breaks off gives its reason as a text, if it gives one. -/
def ofCrash (message : Option String) : CollectorFailure :=
  .crashed (message.getD "non-string panic payload")

end CollectorFailure

/-- What a secondary collector does, and how it goes on by what it is answered. It starts with
its setup, which ends with `ready`. -/
inductive Activity where
  | done
  | fail (causes : List String)
  | crash (message : Option String)
  | ready (next : Activity)
  | put (id : Uuid) (localName : String) (value : Value) (reliability : Float)
      (next : Except StoreError Unit → Activity)
  | putObservation (id : Uuid) (key : Key) (observation : Observation)
      (next : Except StoreError Unit → Activity)
  | look (id : Uuid) (key : Key) (next : Option Observation → Activity)
  /-- Waits; one that holds its thread cannot be interrupted while it waits. -/
  | pause (millis : Nat) (holding : Bool) (next : Activity)

structure Secondary where
  space : String
  declarations : List Declaration
  /-- The collector's own budget; if there is none, that of the session. -/
  timeout : Option Span
  work : List Individual → Activity

/-- How a primary collector comes to its individuals. -/
inductive Collection where
  | individuals (is : List Individual)
  | fail (causes : List String)
  | crash (message : Option String)
  | pause (millis : Nat) (holding : Bool) (next : Collection)

structure Primary where
  space : String
  declarations : List Declaration
  timeout : Option Span
  collect : Collection

/-- The result of a collection and the time it took, in nanoseconds. A collection that is not
over before its budget is spent has no other result. -/
def Collection.settle (budget : Span) (elapsed : Nat) :
    Collection → Except CollectorFailure (List Individual) × Nat
  | individuals is =>
    if budget.toNanos ≤ elapsed then (.error (.timeout budget), budget.toNanos)
    else (.ok is, elapsed)
  | fail causes =>
    if budget.toNanos ≤ elapsed then (.error (.timeout budget), budget.toNanos)
    else (.error (.failed (chain causes)), elapsed)
  | crash message =>
    if budget.toNanos ≤ elapsed then (.error (.timeout budget), budget.toNanos)
    else (.error (.ofCrash message), elapsed)
  | pause millis _ next => next.settle budget (elapsed + millis * Span.nanosPerMilli)

end Dossier
