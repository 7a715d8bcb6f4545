import Dossier.Json.Reading

/-!
Records, variants and maps in written data. A record is an object, whose unknown members are
passed over and whose known ones occur once at most, or an array of the fields in their order.
-/

namespace Dossier.Json

def text? : Json → Option String
  | string s => s
  | _ => none

def float? : Json → Option Float
  | number n => n.toFloat?
  | _ => none

def int? : Json → Option Int
  | number n => n.toInt?
  | _ => none

/-- A field that may be absent or null. -/
def optional? {α : Type} (read : Json → Option α) : Option Json → Option (Option α)
  | none => some none
  | some null => some none
  | some j => (read j).map some

/-- A field that has to be there. -/
def required? {α : Type} (read : Json → Option α) (j : Option Json) : Option α := j.bind read

/-- The names of an object, if every one can be read. -/
def names? (members : List (Option String × Json)) : Option (List (String × Json)) :=
  members.mapM fun (name, j) => name.map fun n => (n, j)

/-- The fields of a record under the given names. An array holds at least the first `least` of
them, and none besides. -/
def record? (names : List String) (least : Nat) : Json → Option (List (Option Json))
  | object members => do
    let members ← names? members
    if names.any fun n => 1 < (members.filter fun m => m.1 == n).length then none
    else some (names.map fun n => (members.find? fun m => m.1 == n).map (·.2))
  | array items =>
    if least ≤ items.length && items.length ≤ names.length then
      some (items.map some ++ List.replicate (names.length - items.length) none)
    else none
  | _ => none

/-- The name of a variant without content: a string, or an object with null under the name. -/
def variant? : Json → Option String
  | string s => s
  | object [(name, null)] => name
  | _ => none

def pairs? {κ α : Type} (key : String → Option κ) (read : Json → Option α) :
    Json → Option (List (κ × α))
  | object members => members.mapM fun (name, j) => do
    let k ← name.bind key
    let v ← read j
    some (k, v)
  | _ => none

def list? {α : Type} (read : Json → Option α) : Json → Option (List α)
  | array items => items.mapM read
  | _ => none

end Dossier.Json
