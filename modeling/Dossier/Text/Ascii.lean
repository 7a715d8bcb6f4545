/-!
ASCII case and ASCII classes. Folding touches the letters A to Z and nothing else, so a letter
outside ASCII keeps its case.
-/

namespace Dossier.Text

/-- A text with the letters A to Z in lower case. -/
def lower (s : String) : String := String.ofList (s.toList.map Char.toLower)

/-- Equality of texts up to the case of the letters A to Z. -/
def equalFold (s t : String) : Bool := lower s == lower t

/-- An ASCII letter or digit. -/
def isWordChar (c : Char) : Bool := c.isAlphanum

/-- Cuts a text at the first occurrence of `sep`, which belongs to neither part. -/
def splitFirst (sep : Char) (s : String) : Option (String × String) :=
  match s.toList.span (· != sep) with
  | (_, []) => none
  | (before, _ :: after) => some (String.ofList before, String.ofList after)

end Dossier.Text
