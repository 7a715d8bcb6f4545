import Dossier.Ids
import Dossier.Individual
import Dossier.Text.Ascii

/-!
The archive in which individuals outlive a session. It holds the latest version of every
individual, in the order in which their identifiers came in first. Order and content are one list
here; `Archive.persistApart` keeps them in two structures.
-/

namespace Dossier

inductive ArchiveError where
  | notFound (id : Uuid)
  | backend (given : String)
deriving DecidableEq

def ArchiveError.message : ArchiveError → String
  | notFound id => "Individual not found: " ++ id.text
  | backend given => "Persistence backend error: " ++ given

structure Filter where
  event : Option String
  email : Option String
deriving DecidableEq

/-- An event is compared as it is, an email up to the case of ASCII letters. -/
def Filter.matchesPerson (f : Filter) (p : Person) : Bool :=
  p.attends f.event &&
    match f.email with
    | none => true
    | some wanted =>
      match p.email with
      | none => false
      | some email => Text.equalFold email wanted

/-- After how many more individuals an archive fails, and how. -/
structure Failure where
  after : Nat
  error : ArchiveError
deriving DecidableEq

structure Archive where
  people : List (Uuid × Individual)
  /-- Nothing if the archive never fails. -/
  failure : Option Failure
deriving DecidableEq

namespace Archive

def empty : Archive := ⟨[], none⟩

def failing (after : Nat) (error : ArchiveError) : Archive := ⟨[], some ⟨after, error⟩⟩

def size (a : Archive) : Nat := a.people.length

def isEmpty (a : Archive) : Bool := a.people.isEmpty

/-- Puts a version in: in the place of an earlier one, or else at the end. -/
def keep (people : List (Uuid × Individual)) (id : Uuid) (i : Individual) :
    List (Uuid × Individual) :=
  if people.any fun p => p.1 == id then people.map fun p => if p.1 == id then (id, i) else p
  else people ++ [(id, i)]

/-- Stores an individual, which gets an identifier if it has none yet. -/
def persist (a : Archive) (ids : IdSupply) (i : Individual) :
    Except ArchiveError (Archive × Individual) × IdSupply :=
  match a.failure with
  | some ⟨0, error⟩ => (.error error, ids)
  | failure =>
    let (id, ids) := ids.complete i.id
    let i := { i with id := some id }
    let failure := failure.map fun f => { f with after := f.after - 1 }
    (.ok (⟨keep a.people id i, failure⟩, i), ids)

def load (a : Archive) (f : Filter) : List Individual :=
  (a.people.map (·.2)).filter fun i => f.matchesPerson i.toPerson

end Archive

end Dossier
