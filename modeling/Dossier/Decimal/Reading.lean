/-!
Reading decimal numbers. A numeral is a sign, a natural number and a power of ten; its value is
the double nearest to it.
-/

namespace Dossier.Decimal

/-- The number `digits * 10 ^ exponent`, or its negative. -/
structure Numeral where
  negative : Bool
  digits : Nat
  exponent : Int
deriving DecidableEq

def digitValue (c : Char) : Nat := c.toNat - '0'.toNat

def naturalOf (cs : List Char) : Nat := cs.foldl (fun n c => 10 * n + digitValue c) 0

/-- The nearest double. Beyond the range of the doubles lies infinity, far below the least
positive one lies zero; both are decided from the size of the number alone. A reader that computes
in doubles on the way may be one unit in the last place off; here every double that was written is
read back as it was. -/
def Numeral.toFloat (n : Numeral) : Float :=
  let top : Int := ((toString n.digits).length : Int) + n.exponent
  let magnitude : Float :=
    if n.digits == 0 || top < -400 then 0.0
    else if top > 400 then 1.0 / 0.0
    else Float.ofScientific n.digits (n.exponent < 0) n.exponent.natAbs
  if n.negative then -magnitude else magnitude

/-- The value of an exponent part, the mark and sign left out: at least one digit. -/
def exponentOf (negative : Bool) (cs : List Char) : Option Int :=
  if cs.isEmpty || !cs.all Char.isDigit then none
  else some (if negative then -(naturalOf cs : Int) else (naturalOf cs : Int))

def signedExponent : List Char → Option Int
  | '-' :: cs => exponentOf true cs
  | '+' :: cs => exponentOf false cs
  | cs => exponentOf false cs

/-- The digits before the point, those after it if there is one, and the exponent if there is
one. Which of them may be absent is for the caller to say. -/
structure Parts where
  whole : List Char
  fraction : Option (List Char)
  exponent : Option Int

def Parts.ofChars? (cs : List Char) : Option Parts :=
  let whole := cs.takeWhile Char.isDigit
  let rest := cs.dropWhile Char.isDigit
  let (fraction, rest) : Option (List Char) × List Char :=
    match rest with
    | '.' :: r => (some (r.takeWhile Char.isDigit), r.dropWhile Char.isDigit)
    | r => (none, r)
  match rest with
  | [] => some ⟨whole, fraction, none⟩
  | e :: r =>
    if e == 'e' || e == 'E' then (signedExponent r).map fun x => ⟨whole, fraction, some x⟩
    else none

def Parts.numeral (p : Parts) (negative : Bool) : Numeral :=
  let fraction := p.fraction.getD []
  ⟨negative, naturalOf (p.whole ++ fraction), p.exponent.getD 0 - (fraction.length : Int)⟩

inductive NumberError where
  | empty
  | invalid
deriving DecidableEq

def NumberError.message : NumberError → String
  | empty => "cannot parse float from empty string"
  | invalid => "invalid float literal"

/-- Reads a number as it is typed: a sign, then digits with a point anywhere among them and an
exponent, or a name of infinity or of what is no number, in any case. -/
def ofText? (s : String) : Except NumberError Float :=
  if s.isEmpty then .error .empty
  else
    let (negative, cs) : Bool × List Char :=
      match s.toList with
      | '-' :: cs => (true, cs)
      | '+' :: cs => (false, cs)
      | cs => (false, cs)
    let word := String.ofList (cs.map Char.toLower)
    if word == "inf" || word == "infinity" then .ok (if negative then -(1.0 / 0.0) else 1.0 / 0.0)
    else if word == "nan" then .ok (0.0 / 0.0)
    else
      match Parts.ofChars? cs with
      | none => .error .invalid
      | some p =>
        if p.whole.isEmpty && (p.fraction.getD []).isEmpty then .error .invalid
        else .ok (p.numeral negative).toFloat

end Dossier.Decimal
