import Dossier.SchemaError
import Dossier.Text.Ascii
import Dossier.Text.Pattern
import Dossier.Value

/-!
The catalog of attribute categories. A category says what an attribute means, of which kind its
values are, and which values of that kind it accepts.
-/

namespace Dossier

inductive Category where
  | firstName
  | lastName
  | email
  | phoneNumber
  | photoReference
  | profileUrl
  | birthDate
  | age
  | hometown
  | employer
deriving DecidableEq

namespace Category

/-- The catalog, in the order in which categories are listed everywhere. -/
def all : List Category :=
  [firstName, lastName, email, phoneNumber, photoReference, profileUrl, birthDate, age, hometown,
    employer]

def name : Category → String
  | firstName => "first_name"
  | lastName => "last_name"
  | email => "email"
  | phoneNumber => "phone_number"
  | photoReference => "photo_reference"
  | profileUrl => "profile_url"
  | birthDate => "birth_date"
  | age => "age"
  | hometown => "hometown"
  | employer => "employer"

def position : Category → Nat
  | firstName => 0
  | lastName => 1
  | email => 2
  | phoneNumber => 3
  | photoReference => 4
  | profileUrl => 5
  | birthDate => 6
  | age => 7
  | hometown => 8
  | employer => 9

instance : Ord Category := ⟨compareOn position⟩

theorem position_injective {a b : Category} (h : a.position = b.position) : a = b := by
  revert a b
  intro a b
  cases a <;> cases b <;> simp [position]

instance : Std.TransOrd Category := inferInstanceAs (Std.TransCmp (compareOn position))

instance : Std.LawfulEqOrd Category where
  eq_of_compare {a b} h :=
    have h : compare a.position b.position = .eq := h
    position_injective (Std.LawfulEqCmp.eq_of_compare h)

def representation : Category → Kind
  | firstName | lastName | email | phoneNumber | hometown | employer => .text
  | photoReference => .uuid
  | profileUrl => .url
  | birthDate => .date
  | age => .integer

def named? (s : String) : Option Category := all.find? (·.name == s)

/-- The category that a text names, in any case and with blanks around it. -/
def parse (s : String) : Except SchemaError Category :=
  match named? (Text.lower (Text.trim s)) with
  | some c => .ok c
  | none => .error (.unknownCategory s)

open Text (CharClass Pattern)

/-- Neither an at sign nor a blank. -/
def addressChar : CharClass := ⟨true, false, true, ['@']⟩

/-- A run of characters, an at sign, and two runs with a dot between them. -/
def emailPattern : Pattern :=
  .seq (.plus (.one addressChar)) <| .seq (.char '@') <|
    .seq (.plus (.one addressChar)) <| .seq (.char '.') (.plus (.one addressChar))

/-- A digit, a space, a bracket, a hyphen or a dot. -/
def dialChar : CharClass := ⟨false, true, false, [' ', '(', ')', '-', '.']⟩

/-- A plus sign or none, a digit, and at least five more characters of a number. -/
def phonePattern : Pattern :=
  .seq (.optional (.char '+')) <| .seq (.one ⟨false, true, false, []⟩) <| .atLeast 5 (.one dialChar)

def startsWith (start : String) (cs : List Char) : Bool := start.toList.isPrefixOf cs

/-- A web address: one of two schemes in lower case, and no blank anywhere. -/
def isWebAddress (cs : List Char) : Bool :=
  (startsWith "https://" cs || startsWith "http://" cs) && !cs.any Text.isBlank

def maxAge : Int64 := 150

/-- Whether the category accepts the value on the day `today`. Blanks around a text do not
count. -/
def accepts (today : CivilDate) : Category → Value → Bool
  | firstName, .text s | lastName, .text s | hometown, .text s | employer, .text s =>
    !(Text.trimChars s.toList).isEmpty
  | email, .text s => emailPattern.matchesAll (Text.trimChars s.toList)
  | phoneNumber, .text s => phonePattern.matchesAll (Text.trimChars s.toList)
  | photoReference, .uuid _ => true
  | profileUrl, .url s => isWebAddress (Text.trimChars s.toList)
  | birthDate, .date d => d.notAfter today
  | age, .integer n => 0 ≤ n && n ≤ maxAge
  | _, _ => false

end Category

end Dossier
