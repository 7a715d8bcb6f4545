import Dossier.Key
import Dossier.Reliability
import Dossier.SortedMap
import Dossier.Value

/-!
Individuals and what is known of them. The identity of an individual is given by whoever brings
the individual in; attributes are observations, each a value and how far to rely on it.
-/

namespace Dossier

structure Observation where
  value : Value
  reliability : Reliability
deriving DecidableEq

/-- The identity fields. The event is the one that the individual attends. -/
structure Person where
  firstName : String
  lastName : String
  email : Option String
  event : Option String
  seat : Option String
deriving DecidableEq

structure Individual extends Person where
  id : Option Uuid
  attributes : SortedMap Key Observation
deriving DecidableEq

namespace Person

/-- First and last name, without blanks at the ends. -/
def displayName (p : Person) : String := Text.trim (p.firstName ++ " " ++ p.lastName)

/-- A person of whom the name alone is known. -/
def named (firstName lastName : String) : Person := ⟨firstName, lastName, none, none, none⟩

/-- Whether the person attends the event, if one is asked for. -/
def attends (p : Person) : Option String → Bool
  | none => true
  | some event => p.event == some event

theorem attends_iff {p : Person} {event : Option String} :
    p.attends event = true ↔ ∀ e, event = some e → p.event = some e := by
  cases event <;> simp [attends]

end Person

def Individual.ofPerson (p : Person) (id : Option Uuid) : Individual :=
  { p with id, attributes := ∅ }

end Dossier
