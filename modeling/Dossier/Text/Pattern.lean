import Dossier.Text.Blank

/-!
Regular patterns over characters. A pattern is matched by following its partial derivatives:
the state is the list of patterns that the rest of the text may still match, and a text matches
when some pattern of the last state accepts the empty text.
-/

namespace Dossier.Text

/-- A set of characters: those listed, the ASCII digits and the blanks if so marked; a negated
class holds exactly the others. -/
structure CharClass where
  negated : Bool
  digits : Bool
  blanks : Bool
  listed : List Char
deriving DecidableEq

def CharClass.contains (k : CharClass) (c : Char) : Bool :=
  k.negated != ((k.digits && c.isDigit) || (k.blanks && isBlank c) || k.listed.contains c)

inductive Pattern where
  | empty
  | one (k : CharClass)
  | seq (p q : Pattern)
  | alt (p q : Pattern)
  | star (p : Pattern)
deriving DecidableEq

namespace Pattern

def plus (p : Pattern) : Pattern := seq p (star p)

def optional (p : Pattern) : Pattern := alt p empty

def atLeast (n : Nat) (p : Pattern) : Pattern :=
  match n with
  | 0 => star p
  | n + 1 => seq p (atLeast n p)

def char (c : Char) : Pattern := one ⟨false, false, false, [c]⟩

/-- Whether the pattern accepts the empty text. -/
def nullable : Pattern → Bool
  | empty => true
  | one _ => false
  | seq p q => p.nullable && q.nullable
  | alt p q => p.nullable || q.nullable
  | star _ => true

/-- What may follow `c` in a text that matches the pattern and starts with `c`. -/
def partials (c : Char) : Pattern → List Pattern
  | empty => []
  | one k => if k.contains c then [empty] else []
  | seq p q => (p.partials c).map (seq · q) ++ if p.nullable then q.partials c else []
  | alt p q => p.partials c ++ q.partials c
  | star p => (p.partials c).map (seq · (star p))

/-- One character read by every pattern of a state; equal patterns are kept once. -/
def step (ps : List Pattern) (c : Char) : List Pattern := (ps.flatMap (partials c)).eraseDups

/-- Whether the whole text matches. -/
def matchesAll (p : Pattern) (cs : List Char) : Bool := (cs.foldl step [p]).any nullable

end Pattern

end Dossier.Text
