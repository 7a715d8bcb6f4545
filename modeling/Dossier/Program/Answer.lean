import Dossier.Config.Plan

/-!
What the commands answer, as data to be printed. Times belong to a run of the program and not to
its answer, so they are given from outside, and left out where they are not.
-/

namespace Dossier

namespace Data

/-- Puts a member into its place among members in the order of their names. -/
def placeMember (m : String × Data) : List (String × Data) → List (String × Data)
  | [] => [m]
  | n :: ns => if m.1 < n.1 then m :: n :: ns else n :: placeMember m ns

mutual

/-- Data with the members of every object in the order of their names. -/
def sorted : Data → Data
  | array items => array (sortedItems items)
  | object members => object (sortedMembers members)
  | null => null
  | bool b => bool b
  | integer i => integer i
  | real x => real x
  | string s => string s

def sortedItems : List Data → List Data
  | [] => []
  | d :: ds => sorted d :: sortedItems ds

def sortedMembers : List (String × Data) → List (String × Data)
  | [] => []
  | (k, d) :: ms => placeMember (k, sorted d) (sortedMembers ms)

end

end Data

structure Times where
  started : String
  finished : String

inductive Answer where
  | report (r : Report) (withIndividuals : Bool)
  | individuals (is : List Individual)
  | unsatisfiable (u : Unsatisfiable)
  | schema (r : Registry)

namespace Answer

/-- An outcome, with the time it took if times are shown. -/
def outcomeData (times : Option Times) (o : Outcome) : Data :=
  match times with
  | none => .object o.fields
  | some _ => o.data

def reportData (times : Option Times) (r : Report) (withIndividuals : Bool) : Data :=
  let individuals : Data :=
    if withIndividuals then .array (r.individuals.map Individual.data)
    else .integer r.store.size
  let clock : List (String × Data) :=
    match times with
    | none => []
    | some t => [("started_at", .string t.started), ("finished_at", .string t.finished)]
  .object ([("state", .string Stage.completed.name)] ++ clock ++ [
    ("individuals", individuals),
    ("primary", match r.primary with | none => .null | some o => outcomeData times o),
    ("secondaries", .array (r.secondaries.map (outcomeData times)))])

def categoryData (c : Category) : Data :=
  .object [("category", c.data), ("representation", c.representation.data)]

def schemaData (r : Registry) : Data :=
  .object [
    ("catalog", .array (Category.all.map categoryData)),
    ("namespaces", .array (r.namespaces.map Data.string)),
    ("attributes", .object (r.declarations.map fun (k, c) => (k.text, c.data)))]

/-- Lists of individuals keep the order of their fields; all else is in the order of names. -/
def data (times : Option Times) : Answer → Data
  | report r withIndividuals => (reportData times r withIndividuals).sorted
  | individuals is => .array (is.map Individual.data)
  | unsatisfiable u =>
    (Data.object [
      ("unsatisfiable", .bool true),
      ("requirements", .integer u.requirements),
      ("candidates", .integer u.candidates)]).sorted
  | schema r => (schemaData r).sorted

end Answer

end Dossier
