import Dossier.Category
import Dossier.Individual

/-!
The registry of attributes. Every collector declares its attributes under a namespace of its own
before a session starts; then the registry is sealed, and from there on it only answers.
-/

namespace Dossier

structure Declaration where
  localName : String
  category : Category
deriving DecidableEq

structure Registry where
  attributes : SortedMap Key Category
  spaces : SortedMap String Unit
  isSealed : Bool
deriving DecidableEq

namespace Registry

def empty : Registry := ⟨∅, ∅, false⟩

/-- The keys of declarations, in their order: the first that is no key, or was there before, is
an error. The namespace is in normal form. -/
def stage (space : String) (seen : List Key) :
    List Declaration → Except SchemaError (List (Key × Category))
  | [] => .ok []
  | d :: ds =>
    match Key.make space d.localName with
    | .error e => .error e
    | .ok k =>
      if seen.contains k then .error (.duplicateLocalName space d.localName)
      else
        match stage space (k :: seen) ds with
        | .error e => .error e
        | .ok es => .ok ((k, d.category) :: es)

/-- Declares the attributes of a namespace, all of them or none. -/
def register (r : Registry) (space : String) (ds : List Declaration) :
    Except SchemaError Registry :=
  if r.isSealed then .error .closed
  else
    match normalNamespace space with
    | .error e => .error e
    | .ok n =>
      if r.spaces.contains n then .error (.duplicateNamespace n)
      else
        match stage n [] ds with
        | .error e => .error e
        | .ok es => .ok { r with
            attributes := r.attributes.insertAll es
            spaces := r.spaces.insert n () }

def close (r : Registry) : Registry := { r with isSealed := true }

def resolve (r : Registry) (k : Key) : Option Category := r.attributes.get? k

/-- Whether a namespace is registered, under any spelling of it. -/
def containsNamespace (r : Registry) (space : String) : Bool :=
  match normalNamespace space with
  | .ok n => r.spaces.contains n
  | .error _ => false

def namespaces (r : Registry) : List String := r.spaces.keys

def keysFor (r : Registry) (c : Category) : List Key :=
  (r.attributes.toList.filter fun e => e.2 == c).map (·.1)

def declarations (r : Registry) : List (Key × Category) := r.attributes.toList

def size (r : Registry) : Nat := r.attributes.size

end Registry

/-- The observations of an individual in one category, in the order of their keys. -/
def Individual.categoryValues (i : Individual) (r : Registry) (c : Category) : List Observation :=
  (i.attributes.toList.filter fun e => r.resolve e.1 == some c).map (·.2)

end Dossier
