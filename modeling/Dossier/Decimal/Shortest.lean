/-!
The shortest decimal that reads back as a given double. A finite double is `m * 2 ^ q`; the reals
that round to it form an interval, whose ends belong to it exactly when `m` is even. The search
tries grids of one digit, of two digits and so on, and stops at the first grid with a point in the
interval.
-/

namespace Dossier.Decimal

/-- A finite non-negative double, `m * 2 ^ q`. -/
structure Binary where
  m : Nat
  q : Int
  /-- The gap to the value below is half the gap to the value above. -/
  narrowBelow : Bool
deriving DecidableEq

/-- Reads the bits of a finite double; the sign is left out. -/
def Binary.ofBits (b : UInt64) : Binary :=
  let e := ((b >>> 52) &&& 0x7FF).toNat
  let f := (b &&& 0xFFFFFFFFFFFFF).toNat
  if e == 0 then ⟨f, -1074, false⟩ else ⟨0x10000000000000 + f, (e : Int) - 1075, f == 0 && e > 1⟩

/-- The number `digits * 10 ^ exponent`. -/
structure Digits where
  digits : Nat
  exponent : Int
deriving DecidableEq

/-- Where a value halfway between two candidates goes. -/
inductive Tie where
  | toEven
  | up
deriving DecidableEq

def twoPow (k : Nat) : Nat := Nat.pow 2 k

def tenPow (k : Nat) : Nat := Nat.pow 10 k

/-- Compares `a * 10 ^ i` with `n * 2 ^ j`. -/
def compareScaled (a : Nat) (i : Int) (n : Nat) (j : Int) : Ordering :=
  compare (a * tenPow i.toNat * twoPow (-j).toNat) (n * twoPow j.toNat * tenPow (-i).toNat)

/-- Whether the decimal lies among the reals that round to the double. -/
def Binary.readsBack (x : Binary) (d : Digits) : Bool :=
  let low := if x.narrowBelow then 4 * x.m - 1 else 4 * x.m - 2
  let high := 4 * x.m + 2
  let inclusive := x.m % 2 == 0
  let l := compareScaled d.digits d.exponent low (x.q - 2)
  let h := compareScaled d.digits d.exponent high (x.q - 2)
  (l == .gt || (inclusive && l == .eq)) && (h == .lt || (inclusive && h == .eq))

/-- The least `k` with `m * 2 ^ q < 10 ^ k`, for `m > 0`. The binary logarithm gives an estimate
that is off by at most two. -/
def Binary.scale (x : Binary) : Int :=
  let guess := ((x.m.log2 : Int) + x.q) * 30103 / 100000
  let fits (k : Int) : Bool := compareScaled 1 k x.m x.q == .gt
  ((List.range 5).map fun (i : Nat) => guess - 1 + (i : Int)).find? fits |>.getD (guess + 4)

/-- The greatest point of the grid `10 ^ g` that is not above the value, as a multiple of it. -/
def Binary.floorOn (x : Binary) (g : Int) : Nat :=
  (x.m * twoPow x.q.toNat * tenPow (-g).toNat) / (twoPow (-x.q).toNat * tenPow g.toNat)

/-- The better of the two neighbours of the value on the grid `10 ^ g`, if one reads back. -/
def Binary.pick (x : Binary) (tie : Tie) (g : Int) : Option Digits :=
  let low : Digits := ⟨x.floorOn g, g⟩
  let high : Digits := ⟨x.floorOn g + 1, g⟩
  match x.readsBack low, x.readsBack high with
  | false, false => none
  | true, false => some low
  | false, true => some high
  | true, true =>
    match compareScaled (low.digits + high.digits) g x.m (x.q + 1) with
    | .gt => some low
    | .lt => some high
    | .eq => if tie == .toEven && low.digits % 2 == 0 then some low else some high

/-- Moves the zeros at the end of the digits into the exponent. `fuel` bounds their number. -/
def Digits.strip (fuel : Nat) (d : Digits) : Digits :=
  match fuel with
  | 0 => d
  | fuel + 1 =>
    if d.digits != 0 && d.digits % 10 == 0 then strip fuel ⟨d.digits / 10, d.exponent + 1⟩ else d

/-- The value itself, written out in full. -/
def Binary.exact (x : Binary) : Digits :=
  if x.q < 0 then ⟨x.m * Nat.pow 5 (-x.q).toNat, x.q⟩ else ⟨x.m * twoPow x.q.toNat, 0⟩

/-- The shortest decimal that reads back. Seventeen digits suffice for a double. -/
def Binary.shortest (x : Binary) (tie : Tie) : Digits :=
  if x.m == 0 then ⟨0, 0⟩
  else
    let k := x.scale
    let found := ((List.range 17).map fun (n : Nat) => k - 1 - (n : Int)).findSome? (x.pick tie)
    (found.getD x.exact).strip 800

end Dossier.Decimal
