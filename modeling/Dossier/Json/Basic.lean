import Dossier.Decimal.Reading

/-!
Written data as a tree. A tree keeps what its readers may still ask for: the numeral of a number
as it was written, and the members of an object in their order, with those that occur again.
-/

namespace Dossier

/-- A number as written: the numeral, and whether it has neither fraction nor exponent. -/
structure JsonNumber where
  numeral : Decimal.Numeral
  isWhole : Bool
deriving DecidableEq

/-- A tree of written data. A string or a name is `none` if it has escapes that stand for half a
character: it can be passed over but not read. -/
inductive Json where
  | null
  | bool (b : Bool)
  | number (n : JsonNumber)
  | string (s : Option String)
  | array (items : List Json)
  | object (members : List (Option String × Json))

namespace JsonNumber

def ofInt (i : Int) : JsonNumber := ⟨⟨i < 0, i.natAbs, 0⟩, true⟩

/-- The double of a number; numbers beyond the range of the doubles have none. -/
def toFloat? (n : JsonNumber) : Option Float :=
  let x := n.numeral.toFloat
  if (x.toBits >>> 52) &&& 0x7FF == 0x7FF then none else some x

/-- The integer of a number that is written as one. A negative zero is no integer. -/
def toInt? (n : JsonNumber) : Option Int :=
  if !n.isWhole || (n.numeral.negative && n.numeral.digits == 0) then none
  else some (if n.numeral.negative then -(n.numeral.digits : Int) else n.numeral.digits)

end JsonNumber

end Dossier
