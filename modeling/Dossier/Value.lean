import Dossier.CivilDate
import Dossier.Uuid

/-!
Values of attributes. A value is of one of five kinds, which it carries with it.
-/

namespace Dossier

inductive Kind where
  | text
  | uuid
  | url
  | date
  | integer
deriving DecidableEq

def Kind.name : Kind → String
  | text => "text"
  | uuid => "uuid"
  | url => "url"
  | date => "date"
  | integer => "integer"

def Kind.all : List Kind := [.text, .uuid, .url, .date, .integer]

def Kind.named? (s : String) : Option Kind := Kind.all.find? (·.name == s)

inductive Value where
  | text (s : String)
  | uuid (u : Uuid)
  | url (s : String)
  | date (d : CivilDate)
  | integer (i : Int64)
deriving DecidableEq

namespace Value

def kind : Value → Kind
  | text _ => .text
  | uuid _ => .uuid
  | url _ => .url
  | date _ => .date
  | integer _ => .integer

/-- How a value is shown on its own. -/
def display : Value → String
  | text s => s
  | uuid u => u.text
  | url s => s
  | date d => d.text
  | integer i => toString i.toInt

end Value

end Dossier
