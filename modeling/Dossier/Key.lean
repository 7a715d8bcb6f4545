import Dossier.SchemaError
import Dossier.Text.Ascii
import Dossier.Text.Blank

/-!
Attribute keys. A key is a namespace and a local name; it is written with an underscore between
them, and as a namespace holds none, the first underscore of a written key is the one between.
-/

namespace Dossier

structure Key where
  space : String
  localName : String
deriving DecidableEq

namespace Key

instance : Ord Key :=
  ⟨compareLex (compareOn Key.space) (compareOn Key.localName)⟩

instance : Std.TransOrd Key :=
  inferInstanceAs (Std.TransCmp (compareLex (compareOn Key.space) (compareOn Key.localName)))

instance : Std.LawfulEqOrd Key where
  eq_of_compare {a b} h := by
    have h : (compare a.space b.space).then (compare a.localName b.localName) = .eq := h
    rw [Ordering.then_eq_eq] at h
    have h₁ := Std.LawfulEqCmp.eq_of_compare h.1
    have h₂ := Std.LawfulEqCmp.eq_of_compare h.2
    cases a; cases b; simp_all

def text (k : Key) : String := k.space ++ "_" ++ k.localName

end Key

/-- The normal form of a namespace: no blanks around it, letters in lower case. There is one for
the texts that hold ASCII letters and digits only, and at least one of them. -/
def normalNamespace (s : String) : Except SchemaError String :=
  let t := Text.trimChars s.toList
  if !t.isEmpty && t.all Text.isWordChar then .ok (Text.lower (String.ofList t))
  else .error (.badNamespace s)

/-- A local name holds ASCII letters, digits and underscores, and does not start with one of
the last. -/
def isLocalName (cs : List Char) : Bool :=
  !cs.isEmpty && cs.head? != some '_' && cs.all fun c => Text.isWordChar c || c == '_'

def Key.make (space localName : String) : Except SchemaError Key :=
  match normalNamespace space with
  | .error e => .error e
  | .ok n =>
    let l := Text.trimChars localName.toList
    if isLocalName l then .ok ⟨n, String.ofList l⟩
    else .error (.badLocalName n (String.ofList l))

def Key.parse (s : String) : Except SchemaError Key :=
  match Text.splitFirst '_' s with
  | none => .error (.malformedKey s)
  | some (space, localName) =>
    match Key.make space localName with
    | .ok k => .ok k
    | .error _ => .error (.malformedKey s)

end Dossier
