import Dossier.Decimal.Layout
import Dossier.Registry

/-!
Requirements on individuals: the event they attend, and per category the least reliability that
some observation of it must have. A query selects those who meet them all.
-/

namespace Dossier

structure Requirements where
  event : Option String
  thresholds : SortedMap Category Reliability
deriving DecidableEq

inductive RequirementError where
  | outOfRange (threshold : Float)
  | conflict (category : Category) (existing requested : Float)
deriving DecidableEq

def RequirementError.message : RequirementError → String
  | outOfRange threshold => "Threshold " ++ Decimal.messageText threshold ++ " is outside [0, 1]"
  | conflict category existing requested =>
    category.name ++ " already required at " ++ Decimal.messageText existing ++ ", refusing " ++
      Decimal.messageText requested

/-- Nobody meets the requirements; how many categories were required, and of how many
candidates. -/
structure Unsatisfiable where
  requirements : Nat
  candidates : Nat
deriving DecidableEq

def Unsatisfiable.message (u : Unsatisfiable) : String :=
  "No individual out of " ++ toString u.candidates ++ " satisfies " ++ toString u.requirements ++
    " requirement(s)"

namespace Requirements

def forEvent (event : Option String) : Requirements := ⟨event, ∅⟩

/-- Adds a threshold. One that is there already stays, and only an equal one may be asked for
again. -/
def require (r : Requirements) (c : Category) (min : Float) :
    Except RequirementError Requirements :=
  match Reliability.ofFloat? min with
  | none => .error (.outOfRange min)
  | some threshold =>
    match r.thresholds.get? c with
    | none => .ok { r with thresholds := r.thresholds.insert c threshold }
    | some existing =>
      if existing.value == min then .ok r else .error (.conflict c existing.value min)

/-- Adds thresholds one after the other, up to the first that is refused. -/
def requireAll (r : Requirements) : List (Category × Float) → Except RequirementError Requirements
  | [] => .ok r
  | (c, min) :: more =>
    match r.require c min with
    | .error e => .error e
    | .ok r => r.requireAll more

def size (r : Requirements) : Nat := r.thresholds.size

def isEmpty (r : Requirements) : Bool := r.thresholds.isEmpty

/-- Whether every required category has an observation that reaches its threshold. The event does
not matter here. -/
def isMetBy (r : Requirements) (registry : Registry) (i : Individual) : Bool :=
  r.thresholds.toList.all fun (c, min) =>
    (i.categoryValues registry c).any fun o => o.reliability.reaches min

def candidates (r : Requirements) (is : List Individual) : List Individual :=
  is.filter fun i => i.attends r.event

/-- The candidates who meet the requirements; it is an error if a category is required and nobody
is left. -/
def select (r : Requirements) (registry : Registry) (is : List Individual) :
    Except Unsatisfiable (List Individual) :=
  let found := (r.candidates is).filter (r.isMetBy registry)
  if !r.isEmpty && found.isEmpty then .error ⟨r.size, (r.candidates is).length⟩ else .ok found

end Requirements

end Dossier
