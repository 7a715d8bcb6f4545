import Dossier.Collector
import Dossier.Files.Tree

/-!
Rosters. A roster is a file that lists who attends; it is the word of the organisers, so the names
and emails in it are certain.
-/

namespace Dossier

structure Roster where
  path : String
  /-- Those who do not attend this event are left out. -/
  event : Option String
deriving DecidableEq

namespace Roster

def space : String := "roster"

def firstNameKey : Key := ⟨space, "firstname"⟩

def lastNameKey : Key := ⟨space, "lastname"⟩

def emailKey : Key := ⟨space, "email"⟩

def declarations : List Declaration :=
  [⟨firstNameKey.localName, .firstName⟩, ⟨lastNameKey.localName, .lastName⟩,
    ⟨emailKey.localName, .email⟩]

/-- A line of a roster: who it is, and an identifier if there is one. -/
abbrev Line := Option Uuid × Person

def lineOfJson? (j : Json) : Option Line := (j.record? Person.fieldNames 3).bind Person.ofFields?

def linesOfText? (s : String) : Option (List Line) := (Json.ofText? s).bind (Json.list? lineOfJson?)

/-- Names and email without blanks at the ends; an email of blanks only is none. -/
def tidy (p : Person) : Person :=
  { p with
    firstName := Text.trim p.firstName
    lastName := Text.trim p.lastName
    email := (p.email.map Text.trim).filter fun e => !e.isEmpty }

/-- What a roster states of a person: those of the names and the email that are not empty. -/
def facts (p : Person) : List (Key × Observation) :=
  let stated := [(firstNameKey, p.firstName), (lastNameKey, p.lastName)] ++
    (p.email.map fun e => (emailKey, e)).toList
  (stated.filter fun f => !f.2.isEmpty).map fun (k, s) => (k, ⟨.text s, .certain⟩)

def individual (l : Line) : Individual :=
  let person := tidy l.2
  { person with id := l.1, attributes := .ofList (facts person) }

/-- The individuals of a roster with this text, in the order of its lines. -/
def individuals? (r : Roster) (s : String) : Option (List Individual) :=
  (linesOfText? s).map fun lines => (lines.filter fun l => l.2.attends r.event).map individual

def collect (r : Roster) (read : ReadFile) : Collection :=
  match read r.path with
  | .error e => .fail ["reading roster " ++ r.path, e.message]
  | .ok s =>
    match r.individuals? s with
    | none => .fail ["parsing roster " ++ r.path]
    | some is => .individuals is

/-- The collector that brings in the individuals of a roster. -/
def primary (r : Roster) (read : ReadFile) : Primary := ⟨space, declarations, none, r.collect read⟩

end Roster

end Dossier
