import Dossier.Config.Basic
import Dossier.Toml.Reading

/-!
Reading configurations. Members that mean nothing are passed over; those that are known have to be
of the right type. A section may also be an array of its members, in their order.
-/

namespace Dossier

namespace Toml

def text? : Toml → Option String
  | string s => some s
  | _ => none

def nat? : Toml → Option Nat
  | integer i => if 0 ≤ i then some i.toNat else none
  | _ => none

/-- A whole number may stand for a double. -/
def float? : Toml → Option Float
  | float x => some x
  | integer i => some (Float.ofInt i)
  | _ => none

/-- The members of a table. A date or time counts as a table that holds its text under a name of
its own. -/
def members? : Toml → Option (List (String × Toml))
  | table ms => some ms
  | moment s => some [("", .string s)]
  | _ => none

/-- The fields of a record under the given names. An array stands for a table with its items under
these names in turn; it holds at least the first `least` of them, and those beyond are passed
over. -/
def fields? (names : List String) (least : Nat) : Toml → Option (List (String × Toml))
  | array items => if least ≤ items.length then some (names.zip items) else none
  | t => t.members?

def list? {α : Type} (read : Toml → Option α) : Toml → Option (List α)
  | array items => items.mapM read
  | _ => none

def map? {α : Type} (read : Toml → Option α) (t : Toml) : Option (SortedMap String α) := do
  let ms ← t.members?
  let es ← ms.mapM fun (k, t) => (read t).map fun a => (k, a)
  some (.ofList es)

def member? (k : String) (ms : List (String × Toml)) : Option Toml :=
  (ms.find? (·.1 == k)).map (·.2)

/-- Reads a member that has to be there. -/
def required? {α : Type} (k : String) (read : Toml → Option α) (ms : List (String × Toml)) :
    Option α :=
  (member? k ms).bind read

/-- Reads a member that may be absent. -/
def optional? {α : Type} (k : String) (read : Toml → Option α) (ms : List (String × Toml)) :
    Option (Option α) :=
  match member? k ms with
  | none => some none
  | some t => (read t).map some

end Toml

open Toml (text? nat? float? list? map? required? optional?)

def Roster.ofToml? (t : Toml) : Option Roster := do
  let ms ← t.fields? ["path", "show"] 2
  let path ← required? "path" text? ms
  let event ← optional? "show" text? ms
  some ⟨path, event⟩

def Filter.ofToml? (t : Toml) : Option Filter := do
  let ms ← t.fields? ["show", "email"] 2
  let event ← optional? "show" text? ms
  let email ← optional? "email" text? ms
  some ⟨event, email⟩

def Source.ofToml? (t : Toml) : Option Source := do
  let ms ← t.fields? ["namespace", "path", "attributes", "timeout_secs"] 4
  let space ← required? "namespace" text? ms
  let path ← required? "path" text? ms
  let attributes ← optional? "attributes" (map? text?) ms
  let timeoutSecs ← optional? "timeout_secs" nat? ms
  some ⟨space, path, attributes.getD ∅, timeoutSecs⟩

/-- The thresholds of a query are taken in the order of the names they have in the text. -/
def Query.ofToml? (t : Toml) : Option Query := do
  let ms ← t.fields? ["show", "thresholds"] 1
  let event ← optional? "show" text? ms
  let thresholds ← optional? "thresholds" (map? float?) ms
  some ⟨event, (thresholds.getD ∅).toList⟩

namespace Config

/-- The budget and the number of places, with what they are if nothing is said. -/
def limitsOfToml? (t : Toml) : Option (Nat × Option Nat) := do
  let ms ← t.fields? ["collector_timeout_secs", "max_concurrency"] 2
  let timeoutSecs ← optional? "collector_timeout_secs" nat? ms
  let maxConcurrency ← optional? "max_concurrency" nat? ms
  some (timeoutSecs.getD usualTimeoutSecs, maxConcurrency)

def ofMembers? (ms : List (String × Toml)) : Option Config := do
  let limits ← optional? "session" limitsOfToml? ms
  let roster ← optional? "roster" Roster.ofToml? ms
  let stored ← optional? "stored" Filter.ofToml? ms
  let sources ← optional? "sources" (list? Source.ofToml?) ms
  let query ← optional? "requirements" Query.ofToml? ms
  let (timeoutSecs, maxConcurrency) := limits.getD (usualTimeoutSecs, none)
  some ⟨timeoutSecs, maxConcurrency, roster, stored, sources.getD [], query.getD .empty⟩

/-- Reads a configuration, and checks whether it makes sense. -/
def ofText (s : String) : Except Fault Config :=
  match (Toml.ofText? s).bind ofMembers? with
  | none => .error .malformed
  | some c => c.check.map fun _ => c

/-- Reads a configuration file. The paths in it are seen from the directory of the file. -/
def load (path : String) (content : Except FileError String) : Except Fault Config :=
  match content with
  | .error e => .error (.config (.unreadable path e))
  | .ok s => (ofText s).map fun c => ((Path.parent? path).map c.relativeTo).getD c

end Config

end Dossier
