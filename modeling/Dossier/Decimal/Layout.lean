import Dossier.Decimal.Shortest

/-!
How the digits of a double are laid out. Two layouts are in use: numbers in written data always
show that they are no integers, numbers in messages never show an exponent. A third writer rounds
to a fixed number of places.
-/

namespace Dossier.Decimal

structure Layout where
  tie : Tie
  /-- The positions of the decimal point, counted from before the first digit, at which the
  number is written without an exponent; none means all. -/
  plain : Option (Int × Int)
  /-- What follows a whole number that is written without an exponent. -/
  wholeEnd : String
  /-- What stands between the digits and an exponent that is not negative. -/
  positiveMark : String
  notANumber : String
  infinity : String

/-- Numbers in written data: without an exponent from 1e-5 to below 1e16; a half goes to the even
neighbour; what is no finite number has no written form and becomes null. -/
def dataLayout : Layout := ⟨.toEven, some (-4, 16), ".0", "e+", "null", "null"⟩

/-- Numbers in messages: never an exponent, no point in a whole number. -/
def messageLayout : Layout := ⟨.up, none, "", "e+", "NaN", "inf"⟩

def zeros (n : Nat) : String := String.ofList (List.replicate n '0')

/-- The digits with a decimal point `point` places after the first one begins. -/
def Layout.positional (l : Layout) (digits : String) (point : Int) : String :=
  let n : Int := digits.length
  if point ≤ 0 then "0." ++ zeros (-point).toNat ++ digits
  else if n ≤ point then digits ++ zeros (point - n).toNat ++ l.wholeEnd
  else
    let whole := String.ofList (digits.toList.take point.toNat)
    whole ++ "." ++ String.ofList (digits.toList.drop point.toNat)

/-- One digit, the others behind a point, and the exponent. -/
def Layout.scientific (l : Layout) (digits : String) (point : Int) : String :=
  let fraction := String.ofList (digits.toList.drop 1)
  let mantissa :=
    String.ofList (digits.toList.take 1) ++ (if fraction.isEmpty then "" else "." ++ fraction)
  let e := point - 1
  if e < 0 then mantissa ++ "e-" ++ toString e.natAbs
  else mantissa ++ l.positiveMark ++ toString e.natAbs

def Layout.magnitude (l : Layout) (x : Binary) : String :=
  if x.m == 0 then "0" ++ l.wholeEnd
  else
    let d := x.shortest l.tie
    let digits := toString d.digits
    let point := d.exponent + (digits.length : Int)
    match l.plain with
    | none => l.positional digits point
    | some (lo, hi) =>
      if lo ≤ point && point ≤ hi then l.positional digits point else l.scientific digits point

/-- The sign bit, which a zero has too. -/
def isNegative (x : Float) : Bool := x.toBits >>> 63 == 1

def isFinite (x : Float) : Bool := (x.toBits >>> 52) &&& 0x7FF != 0x7FF

def isNaN (x : Float) : Bool := !isFinite x && x.toBits &&& 0xFFFFFFFFFFFFF != 0

def Layout.text (l : Layout) (x : Float) : String :=
  if isNaN x then l.notANumber
  else if isFinite x then (if isNegative x then "-" else "") ++ l.magnitude (Binary.ofBits x.toBits)
  else if l.plain.isNone && isNegative x then "-" ++ l.infinity
  else l.infinity

def messageText (x : Float) : String := messageLayout.text x

def dataText (x : Float) : String := dataLayout.text x

/-- A quotient rounded to the nearest natural number, a half to the even neighbour. -/
def roundDiv (n d : Nat) : Nat :=
  match compare (2 * (n % d)) d with
  | .lt => n / d
  | .gt => n / d + 1
  | .eq => n / d + n / d % 2

/-- A finite double rounded to `places` digits after the point. -/
def fixed (places : Nat) (x : Float) : String :=
  let b := Binary.ofBits x.toBits
  let scaled := roundDiv (b.m * twoPow b.q.toNat * tenPow places) (twoPow (-b.q).toNat)
  let fraction := toString (scaled % tenPow places)
  (if isNegative x then "-" else "") ++ toString (scaled / tenPow places) ++ "." ++
    zeros (places - fraction.length) ++ fraction

end Dossier.Decimal
