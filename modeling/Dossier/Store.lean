import Dossier.Ids
import Dossier.Registry
import Dossier.StoreError

/-!
The store of a session: its individuals, in the order in which they were brought in, and for each
of them the last observation accepted under every key. An observation is accepted when its key is
declared, its value fits the category of the key, and the individual is in the store. Order and
content are one list here; `Ledger` keeps them in two structures.
-/

namespace Dossier

structure Entry where
  id : Uuid
  person : Person
  attributes : SortedMap Key Observation
deriving DecidableEq

/-- The entry as an individual that carries its own identifier. -/
def Entry.individual (e : Entry) : Individual :=
  { e.person with id := some e.id, attributes := e.attributes }

structure Store where
  registry : Registry
  entries : List Entry
deriving DecidableEq

namespace Store

def ofRegistry (registry : Registry) : Store := ⟨registry, []⟩

def find? (s : Store) (id : Uuid) : Option Entry := s.entries.find? (·.id == id)

def contains (s : Store) (id : Uuid) : Bool := (s.find? id).isSome

/-- Takes an individual in under an identifier, without the attributes it comes with. -/
def insert (s : Store) (id : Uuid) (p : Person) : Except StoreError Store :=
  if s.contains id then .error (.duplicateIndividual id)
  else .ok { s with entries := s.entries ++ [⟨id, p, ∅⟩] }

/-- Takes an individual in, under the identifier that it has or else a fresh one. -/
def add (s : Store) (ids : IdSupply) (i : Individual) :
    Except StoreError (Uuid × Store) × IdSupply :=
  let (id, ids) := ids.complete i.id
  match s.insert id i.toPerson with
  | .error e => (.error e, ids)
  | .ok s => (.ok (id, s), ids)

def update (s : Store) (id : Uuid) (f : SortedMap Key Observation → SortedMap Key Observation) :
    Store :=
  { s with
    entries := s.entries.map fun e =>
      if e.id == id then { e with attributes := f e.attributes } else e }

/-- Writes an observation on the day `today`. -/
def put (s : Store) (today : CivilDate) (id : Uuid) (k : Key) (o : Observation) :
    Except StoreError Store :=
  match s.registry.resolve k with
  | none => .error (.unknownAttribute k)
  | some c =>
    if !c.accepts today o.value then .error (.typeMismatch k c o.value.kind)
    else if !s.contains id then .error (.unknownIndividual id)
    else .ok (s.update id (·.insert k o))

def get? (s : Store) (id : Uuid) (k : Key) : Option Observation :=
  (s.find? id).bind (·.attributes.get? k)

/-- The observations of an individual in one category, in the order of their keys. -/
def categoryValues (s : Store) (id : Uuid) (c : Category) : List Observation :=
  match s.find? id with
  | none => []
  | some e => (e.attributes.toList.filter fun a => s.registry.resolve a.1 == some c).map (·.2)

def snapshot? (s : Store) (id : Uuid) : Option Individual := (s.find? id).map (·.individual)

def individuals (s : Store) : List Individual := s.entries.map (·.individual)

def ids (s : Store) : List Uuid := s.entries.map (·.id)

def attributeCount (s : Store) (id : Uuid) : Nat :=
  match s.find? id with
  | none => 0
  | some e => e.attributes.size

def size (s : Store) : Nat := s.entries.length

def isEmpty (s : Store) : Bool := s.entries.isEmpty

end Store

end Dossier
