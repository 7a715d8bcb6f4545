import Dossier.Json.Record
import Dossier.Json.Writing
import Dossier.Requirements
import Dossier.StoreError

/-!
The written forms of values, observations, individuals, requirements and declarations: a reader
and a writer for each.
-/

namespace Dossier

/-! ## Names, keys and numbers -/

def Kind.ofJson? (j : Json) : Option Kind := j.variant?.bind Kind.named?

def Kind.data (k : Kind) : Data := .string k.name

def Category.ofJson? (j : Json) : Option Category := j.variant?.bind Category.named?

def Category.data (c : Category) : Data := .string c.name

def Key.read? (s : String) : Option Key := (Key.parse s).toOption

def Key.ofJson? (j : Json) : Option Key := j.text?.bind Key.read?

def Key.data (k : Key) : Data := .string k.text

def Uuid.ofJson? (j : Json) : Option Uuid := j.text?.bind Uuid.ofText?

def Uuid.data (u : Uuid) : Data := .string u.text

def Reliability.ofJson? (j : Json) : Option Reliability := j.float?.bind Reliability.ofFloat?

def Reliability.data (r : Reliability) : Data := .real r.value

/-! ## Values and observations -/

def Value.ofKind? (k : Kind) (j : Json) : Option Value :=
  match k with
  | .text => j.text?.map .text
  | .uuid => (Uuid.ofJson? j).map .uuid
  | .url => j.text?.map .url
  | .date => (j.text?.bind CivilDate.ofText?).map .date
  | .integer => do
    let i ← j.int?
    if Int64.minValue.toInt ≤ i ∧ i ≤ Int64.maxValue.toInt then some (.integer (Int64.ofInt i))
    else none

def Value.ofJson? (j : Json) : Option Value := do
  match ← j.record? ["kind", "value"] 2 with
  | [k, v] =>
    let k ← Json.required? Kind.ofJson? k
    Json.required? (Value.ofKind? k) v
  | _ => none

def Value.content : Value → Data
  | text s => .string s
  | uuid u => u.data
  | url s => .string s
  | date d => .string d.text
  | integer i => .integer i.toInt

def Value.data (v : Value) : Data := .object [("kind", v.kind.data), ("value", v.content)]

def Observation.ofJson? (j : Json) : Option Observation := do
  match ← j.record? ["value", "reliability"] 2 with
  | [v, r] =>
    let v ← Json.required? Value.ofJson? v
    let r ← Json.required? Reliability.ofJson? r
    some ⟨v, r⟩
  | _ => none

def Observation.data (o : Observation) : Data :=
  .object [("value", o.value.data), ("reliability", o.reliability.data)]

/-! ## Individuals -/

/-- The fields of an individual that say who it is, in their order. -/
def Person.fieldNames : List String := ["id", "first_name", "last_name", "email", "show", "seat"]

/-- Reads the fields that say who an individual is. -/
def Person.ofFields? : List (Option Json) → Option (Option Uuid × Person)
  | [id, firstName, lastName, email, event, seat] => do
    let id ← Json.optional? Uuid.ofJson? id
    let firstName ← Json.required? Json.text? firstName
    let lastName ← Json.required? Json.text? lastName
    let email ← Json.optional? Json.text? email
    let event ← Json.optional? Json.text? event
    let seat ← Json.optional? Json.text? seat
    some (id, ⟨firstName, lastName, email, event, seat⟩)
  | _ => none

/-- Reads a map of attributes; of those under one key the last counts. -/
def attributesOfJson? : Option Json → Option (SortedMap Key Observation)
  | none => some ∅
  | some j => (j.pairs? Key.read? Observation.ofJson?).map SortedMap.ofList

def Individual.ofJson? (j : Json) : Option Individual := do
  let fields ← j.record? (Person.fieldNames ++ ["attributes"]) 3
  let (id, person) ← Person.ofFields? (fields.take 6)
  let attributes ← attributesOfJson? ((fields.drop 6).head?.join)
  some { person with id, attributes }

def attributesData (m : SortedMap Key Observation) : Data :=
  .object (m.toList.map fun (k, o) => (k.text, o.data))

def Individual.data (i : Individual) : Data :=
  .object [
    ("id", match i.id with | none => .null | some id => id.data),
    ("first_name", .string i.firstName),
    ("last_name", .string i.lastName),
    ("email", .optional i.email),
    ("show", .optional i.event),
    ("seat", .optional i.seat),
    ("attributes", attributesData i.attributes)]

/-! ## Requirements and declarations -/

def Requirements.ofJson? (j : Json) : Option Requirements := do
  match ← j.record? ["show", "thresholds"] 2 with
  | [event, thresholds] =>
    let event ← Json.optional? Json.text? event
    let thresholds ← Json.required? (Json.pairs? Category.named? Reliability.ofJson?) thresholds
    some ⟨event, .ofList thresholds⟩
  | _ => none

def Requirements.data (r : Requirements) : Data :=
  .object [
    ("show", .optional r.event),
    ("thresholds", .object (r.thresholds.toList.map fun (c, min) => (c.name, min.data)))]

def Declaration.ofJson? (j : Json) : Option Declaration := do
  match ← j.record? ["local_name", "category"] 2 with
  | [localName, category] =>
    let localName ← Json.required? Json.text? localName
    let category ← Json.required? Category.ofJson? category
    some ⟨localName, category⟩
  | _ => none

def Declaration.data (d : Declaration) : Data :=
  .object [("local_name", .string d.localName), ("category", d.category.data)]

/-! ## Errors of the store -/

/-- The name of an error of the store, and what it is about. -/
def StoreError.data : StoreError → Data
  | unknownAttribute key => tagged "unknown_attribute" key.data
  | typeMismatch key category found =>
    tagged "type_mismatch" <| .object
      [("key", key.data), ("category", category.data), ("found", found.data)]
  | reliabilityOutOfRange given => tagged "reliability_out_of_range" (.real given)
  | unknownIndividual id => tagged "unknown_individual" id.data
  | duplicateIndividual id => tagged "duplicate_individual" id.data
  | namespaceViolation space key =>
    tagged "namespace_violation" <| .object [("namespace", .string space), ("key", key.data)]
  | writerClosed space => tagged "writer_closed" (.string space)
where
  tagged (kind : String) (detail : Data) : Data :=
    .object [("kind", .string kind), ("detail", detail)]

end Dossier
