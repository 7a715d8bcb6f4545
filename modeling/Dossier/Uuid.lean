/-!
Identifiers of 128 bits, as thirty-two hexadecimal digits. Four spellings are read; one is
written, in lower case with hyphens.
-/

namespace Dossier

structure Uuid where
  digits : List (Fin 16)
  length_eq : digits.length = 32
deriving DecidableEq

namespace Uuid

def hexChar (d : Fin 16) : Char :=
  if d.val < 10 then Char.ofNat (0x30 + d.val) else Char.ofNat (0x57 + d.val)

/-- The value of a hexadecimal digit in either case. -/
def hexValue? (c : Char) : Option (Fin 16) :=
  if '0' ≤ c ∧ c ≤ '9' then some (Fin.ofNat 16 (c.toNat - 0x30))
  else if 'a' ≤ c ∧ c ≤ 'f' then some (Fin.ofNat 16 (c.toNat - 0x57))
  else if 'A' ≤ c ∧ c ≤ 'F' then some (Fin.ofNat 16 (c.toNat - 0x37))
  else none

def ofDigits? (ds : List (Fin 16)) : Option Uuid :=
  if h : ds.length = 32 then some ⟨ds, h⟩ else none

/-- Takes away the hyphens that stand after the digits 8, 12, 16 and 20. -/
def unhyphenate? (cs : List Char) : Option (List Char) :=
  if cs.length == 36 then
    match cs.drop 8, cs.drop 13, cs.drop 18, cs.drop 23 with
    | '-' :: _, '-' :: _, '-' :: _, '-' :: last =>
      some (cs.take 8 ++ (cs.drop 9).take 4 ++ (cs.drop 14).take 4 ++ (cs.drop 19).take 4 ++ last)
    | _, _, _, _ => none
  else none

/-- The mark in front of a name of this kind, in any case. -/
def urnMark : List Char := "urn:uuid:".toList

/-- The hexadecimal digits of a spelling: plain, hyphenated, hyphenated in braces, or hyphenated
behind the mark of a name. -/
def bareDigits? (cs : List Char) : Option (List Char) :=
  if cs.length == 32 then some cs
  else if cs.length == 36 then unhyphenate? cs
  else if cs.length == 38 then
    match cs with
    | '\x7b' :: r => if r.getLast? == some '\x7d' then unhyphenate? r.dropLast else none
    | _ => none
  else if cs.length == 45 && (cs.take 9).map Char.toLower == urnMark then unhyphenate? (cs.drop 9)
  else none

def ofText? (s : String) : Option Uuid := do
  let cs ← bareDigits? s.toList
  let ds ← cs.mapM hexValue?
  ofDigits? ds

/-- Puts a hyphen after the digits 8, 12, 16 and 20. -/
def hyphenate (cs : List Char) : List Char :=
  cs.take 8 ++ '-' :: ((cs.drop 8).take 4 ++ '-' :: ((cs.drop 12).take 4 ++ '-' ::
    ((cs.drop 16).take 4 ++ '-' :: cs.drop 20)))

def text (u : Uuid) : String := String.ofList (hyphenate (u.digits.map hexChar))

/-- The last `count` hexadecimal digits of a number, the highest first. -/
def digitsOf (count n : Nat) : List (Fin 16) :=
  (List.range count).reverse.map fun i => Fin.ofNat 16 (n >>> (4 * i))

/-- The identifier whose bits are those of a number below `2 ^ 128`. -/
def ofNat (n : Nat) : Uuid := ⟨digitsOf 32 n, by simp [digitsOf]⟩

end Uuid

end Dossier
