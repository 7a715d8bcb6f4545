import Dossier.Collector
import Dossier.Files.Tree

/-!
Files of facts. Every fact names its individual by an identifier, or else by an email, which is
compared without blanks at its ends and without regard to the case of ASCII letters.
-/

namespace Dossier

/-- A fact as it stands in a file. Whether it can be accepted is not known yet. -/
structure Fact where
  id : Option Uuid
  email : Option String
  localName : String
  value : Value
  reliability : Float

namespace Fact

def ofFields? : List (Option Json) → Option Fact
  | [id, email, localName, value, reliability] => do
    let id ← Json.optional? Uuid.ofJson? id
    let email ← Json.optional? Json.text? email
    let localName ← Json.required? Json.text? localName
    let value ← Json.required? Value.ofJson? value
    let reliability ← Json.required? Json.float? reliability
    some ⟨id, email, localName, value, reliability⟩
  | _ => none

def ofJson? (j : Json) : Option Fact :=
  (j.record? ["id", "email", "attribute", "value", "reliability"] 5).bind ofFields?

def listOfText? (s : String) : Option (List Fact) := (Json.ofText? s).bind (Json.list? ofJson?)

/-- The form in which emails are compared. -/
def addressForm (email : String) : String := Text.lower (Text.trim email)

/-- The individual that a fact is about. Of several with the same email it is the last one. -/
def subject? (f : Fact) (is : List Individual) : Option Uuid :=
  match f.id with
  | some id => some id
  | none => f.email.bind fun email =>
    let isMeant (i : Individual) : Bool :=
      i.id.isSome && i.email.map addressForm == some (addressForm email)
    (is.reverse.find? isMeant).bind (·.id)

end Fact

/-- Writes facts one after the other, whatever is answered. -/
def Activity.putFacts : List (Uuid × Fact) → Activity
  | [] => .done
  | (id, f) :: fs => .put id f.localName f.value f.reliability fun _ => putFacts fs

/-- A file of facts and how its collector is known in a session. -/
structure FactFile where
  space : String
  path : String
  declarations : List Declaration
  timeout : Option Span
deriving DecidableEq

namespace FactFile

/-- The file is read before any fact is written. Facts about nobody are passed over. -/
def work (f : FactFile) (read : ReadFile) (is : List Individual) : Activity :=
  match read f.path with
  | .error e => .fail ["reading source file " ++ f.path, e.message]
  | .ok s =>
    match Fact.listOfText? s with
    | none => .fail ["parsing source file " ++ f.path]
    | some facts =>
      .ready (.putFacts (facts.filterMap fun fact => (fact.subject? is).map fun id => (id, fact)))

def secondary (f : FactFile) (read : ReadFile) : Secondary :=
  ⟨f.space, f.declarations, f.timeout, f.work read⟩

end FactFile

end Dossier
