import Dossier.Text.Blank
import Dossier.Decimal.Reading

/-!
Days of the proleptic Gregorian calendar. The year zero exists; years run from -262143 to 262142.
A day is written `YYYY-MM-DD`, and a year outside 0 to 9999 with its sign.
-/

namespace Dossier

def isLeapYear (y : Int) : Bool := y % 4 == 0 && (y % 100 != 0 || y % 400 == 0)

def daysInMonth (y : Int) (m : Nat) : Nat :=
  if m == 2 then (if isLeapYear y then 29 else 28)
  else if m == 4 || m == 6 || m == 9 || m == 11 then 30
  else 31

def isCivilDate (y : Int) (m d : Nat) : Bool :=
  -262143 ≤ y && y ≤ 262142 && 1 ≤ m && m ≤ 12 && 1 ≤ d && d ≤ daysInMonth y m

structure CivilDate where
  year : Int
  month : Nat
  day : Nat
  inCalendar : isCivilDate year month day = true
deriving DecidableEq

namespace CivilDate

def ofParts? (y : Int) (m d : Nat) : Option CivilDate :=
  if h : isCivilDate y m d = true then some ⟨y, m, d, h⟩ else none

/-- Whether the first day is not after the second. -/
def notAfter (a b : CivilDate) : Bool :=
  a.year < b.year || (a.year == b.year &&
    (a.month < b.month || (a.month == b.month && a.day ≤ b.day)))

/-- A number of at least one and at most `width` digits, all of them if there is no width, after
any blanks; with what follows. -/
def number? (width : Option Nat) (cs : List Char) : Option (Nat × List Char) :=
  let cs := Text.trimStart cs
  let digits := cs.takeWhile Char.isDigit
  let digits := match width with
    | none => digits
    | some w => digits.take w
  if digits.isEmpty then none else some (Decimal.naturalOf digits, cs.drop digits.length)

/-- A year: four digits at most, or any number of digits directly after a sign. -/
def year? (cs : List Char) : Option (Int × List Char) :=
  let signed (r : List Char) : Option (Nat × List Char) :=
    if (r.head?.map Char.isDigit).getD false then number? none r else none
  match Text.trimStart cs with
  | '-' :: r => (signed r).map fun (n, r) => (-(n : Int), r)
  | '+' :: r => (signed r).map fun (n, r) => ((n : Int), r)
  | r => (number? (some 4) r).map fun (n, r) => ((n : Int), r)

def hyphen? (cs : List Char) : Option (List Char) :=
  match Text.trimStart cs with
  | '-' :: r => some r
  | _ => none

def ofText? (s : String) : Option CivilDate := do
  let (y, r) ← year? s.toList
  let r ← hyphen? r
  let (m, r) ← number? (some 2) r
  let r ← hyphen? r
  let (d, r) ← number? (some 2) r
  if (Text.trimStart r).isEmpty then ofParts? y m d else none

def padded (width n : Nat) : String :=
  let digits := (toString n).toList
  String.ofList (List.replicate (width - digits.length) '0' ++ digits)

def yearText (y : Int) : String :=
  if y < 0 then "-" ++ padded 4 y.natAbs
  else if 9999 < y then "+" ++ padded 4 y.natAbs
  else padded 4 y.natAbs

def text (d : CivilDate) : String :=
  yearText d.year ++ "-" ++ padded 2 d.month ++ "-" ++ padded 2 d.day

/-- The day that lies `n` days behind the first of January 1970. A year is counted from March here,
so that the day that leap years add is its last. -/
def ofEpochDay? (n : Nat) : Option CivilDate :=
  let shifted := n + 719468
  let cycle := shifted / 146097
  let dayOfCycle := shifted % 146097
  let yearOfCycle :=
    (dayOfCycle - dayOfCycle / 1460 + dayOfCycle / 36524 - dayOfCycle / 146096) / 365
  let dayOfYear := dayOfCycle - (365 * yearOfCycle + yearOfCycle / 4 - yearOfCycle / 100)
  let month := (5 * dayOfYear + 2) / 153
  let day := dayOfYear - (153 * month + 2) / 5 + 1
  let year := 400 * cycle + yearOfCycle
  if month < 10 then ofParts? year (month + 3) day else ofParts? (year + 1) (month - 9) day

end CivilDate

end Dossier
