import Dossier.Fault

/-!
Queries: requirements whose categories are given by name.
-/

namespace Dossier

structure Query where
  event : Option String
  thresholds : List (String × Float)

/-- Adds the threshold of a category that is given by name. -/
def Requirements.requireNamed (r : Requirements) (name : String) (min : Float) :
    Except Fault Requirements :=
  match Category.parse name with
  | .error e => .error (.schema e)
  | .ok c =>
    match r.require c min with
    | .error e => .error (.requirement e)
    | .ok r => .ok r

namespace Query

def empty : Query := ⟨none, []⟩

/-- The requirements of a query, or the first thing that is wrong with it. -/
def requirements (q : Query) : Except Fault Requirements :=
  q.thresholds.foldlM (fun r (name, min) => r.requireNamed name min) (.forEvent q.event)

end Query

end Dossier
