import Dossier.CivilDate
import Dossier.Decimal.Reading
import Dossier.Toml.Basic
import Dossier.Uuid

/-!
Reading configuration text, line by line: comments, headers of tables, and keys with their values.
A reader takes what it reads off the front of a text and gives back the rest.
-/

namespace Dossier.Toml

abbrev Chars := List Char

/-! ## Blanks, line ends and comments -/

def isBlank (c : Char) : Bool := c == ' ' || c == '\t'

def skipBlanks (cs : Chars) : Chars := cs.dropWhile isBlank

/-- A character that may stand in a comment or in a string on one line. -/
def isPrintable (c : Char) : Bool := c == '\t' || (0x20 ≤ c.toNat && c.toNat != 0x7F)

def newline? : Chars → Option Chars
  | '\n' :: r => some r
  | '\r' :: '\n' :: r => some r
  | _ => none

/-- A comment up to the end of its line; no comment is fine. -/
def skipComment : Chars → Chars
  | '#' :: r => r.dropWhile isPrintable
  | cs => cs

/-- What may follow on a line when all is said, and the line end. -/
def lineEnd? (cs : Chars) : Option Chars :=
  match skipComment (skipBlanks cs) with
  | [] => some []
  | r => newline? r

/-- Blanks, line ends and comments between the items of an array. -/
def skipLines : Nat → Chars → Chars
  | 0, cs => cs
  | fuel + 1, cs =>
    match newline? (skipComment (skipBlanks cs)) with
    | some r => skipLines fuel r
    | none => skipComment (skipBlanks cs)

/-! ## Strings -/

def hexValue? (c : Char) : Option Nat := (Uuid.hexValue? c).map (·.val)

/-- The character with a code point given by some number of hexadecimal digits. -/
def codePoint? (width : Nat) (cs : Chars) : Option (Char × Chars) := do
  let digits := cs.take width
  if digits.length != width then none
  let values ← digits.mapM hexValue?
  let n := values.foldl (fun n d => 16 * n + d) 0
  if n < 0xD800 || (0xE000 ≤ n && n < 0x110000) then some (Char.ofNat n, cs.drop width) else none

/-- The character that an escape stands for; the backslash is read already. -/
def escape? : Chars → Option (Char × Chars)
  | 'b' :: r => some ('\x08', r)
  | 't' :: r => some ('\t', r)
  | 'n' :: r => some ('\n', r)
  | 'f' :: r => some ('\x0c', r)
  | 'r' :: r => some ('\r', r)
  | '"' :: r => some ('"', r)
  | '\\' :: r => some ('\\', r)
  | 'u' :: r => codePoint? 4 r
  | 'U' :: r => codePoint? 8 r
  | _ => none

/-- A string on one line with escapes, behind its first quote. -/
def basicString? : Nat → Chars → Chars → Option (Chars × Chars)
  | 0, _, _ => none
  | fuel + 1, read, cs =>
    match cs with
    | '"' :: r => some (read.reverse, r)
    | '\\' :: r => (escape? r).bind fun (c, r) => basicString? fuel (c :: read) r
    | c :: r => if isPrintable c then basicString? fuel (c :: read) r else none
    | [] => none

/-- A string on one line without escapes, behind its first quote. -/
def literalString? (cs : Chars) : Option (Chars × Chars) :=
  let content := cs.takeWhile fun c => isPrintable c && c != '\''
  match cs.drop content.length with
  | '\'' :: r => some (content, r)
  | _ => none

/-- Three quotes or more end a string over several lines; up to two of them belong to it. -/
def closing? (quote : Char) (cs : Chars) : Option (Nat × Chars) :=
  let quotes := (cs.takeWhile (· == quote)).length
  if quotes < 3 then none
  else if 5 < quotes then some (2, cs.drop 5)
  else some (quotes - 3, cs.drop quotes)

/-- The blanks and line ends behind a backslash at the end of a line. -/
def skipFold : Nat → Chars → Chars
  | 0, cs => cs
  | fuel + 1, cs =>
    match newline? (skipBlanks cs) with
    | some r => skipFold fuel r
    | none => skipBlanks cs

/-- A string over several lines, behind its first quotes. A line end is one character however it
is written. -/
def multiString? (quote : Char) (escapes : Bool) : Nat → Chars → Chars → Option (Chars × Chars)
  | 0, _, _ => none
  | fuel + 1, read, cs =>
    match closing? quote cs with
    | some (n, r) => some (read.reverse ++ List.replicate n quote, r)
    | none =>
      match newline? cs with
      | some r => multiString? quote escapes fuel ('\n' :: read) r
      | none =>
        match cs with
        | [] => none
        | c :: r =>
          if escapes && c == '\\' then
            match newline? (skipBlanks r) with
            | some r => multiString? quote escapes fuel read (skipFold r.length r)
            | none => (escape? r).bind fun (c, r) => multiString? quote escapes fuel (c :: read) r
          else if isPrintable c then multiString? quote escapes fuel (c :: read) r
          else none

/-- Over several lines, a line end right behind the first quotes does not count. -/
def skipFirstNewline (cs : Chars) : Chars := (newline? cs).getD cs

def string? : Chars → Option (Chars × Chars)
  | '"' :: '"' :: '"' :: r => multiString? '"' true (r.length + 1) [] (skipFirstNewline r)
  | '\'' :: '\'' :: '\'' :: r => multiString? '\'' false (r.length + 1) [] (skipFirstNewline r)
  | '"' :: r => basicString? (r.length + 1) [] r
  | '\'' :: r => literalString? r
  | _ => none

/-! ## Keys -/

def isKeyChar (c : Char) : Bool := c.isAlphanum || c == '_' || c == '-'

def simpleKey? : Chars → Option (String × Chars)
  | '"' :: r => (basicString? (r.length + 1) [] r).map fun (k, r) => (String.ofList k, r)
  | '\'' :: r => (literalString? r).map fun (k, r) => (String.ofList k, r)
  | cs =>
    let k := cs.takeWhile isKeyChar
    if k.isEmpty then none else some (String.ofList k, cs.drop k.length)

/-- Names with dots between them and blanks around each. -/
def dottedKey? : Nat → Chars → Option (List String × Chars)
  | 0, _ => none
  | fuel + 1, cs => do
    let (k, r) ← simpleKey? (skipBlanks cs)
    match skipBlanks r with
    | '.' :: r => (dottedKey? fuel r).map fun (ks, r) => (k :: ks, r)
    | r => some ([k], r)

/-- No key is deeper than this, and no array or table within another. -/
def depthLimit : Nat := 80

def key? (cs : Chars) : Option (List String × Chars) := do
  let (k, r) ← dottedKey? (cs.length + 1) cs
  if k.length < depthLimit then some (k, r) else none

/-! ## Numbers, dates and times -/

/-- Digits, single underscores among them; the underscores are left out. -/
def digits? (isDigit : Char → Bool) : Nat → Chars → Option (Chars × Chars)
  | 0, _ => none
  | fuel + 1, cs =>
    match cs with
    | c :: r =>
      if isDigit c then
        match r with
        | '_' :: r => (digits? isDigit fuel r).map fun (ds, r) => (c :: ds, r)
        | d :: _ =>
          if isDigit d then (digits? isDigit fuel r).map fun (ds, r) => (c :: ds, r)
          else some ([c], r)
        | [] => some ([c], [])
      else none
    | [] => none

def decimalDigits? (cs : Chars) : Option (Chars × Chars) := digits? Char.isDigit (cs.length + 1) cs

def sign : Chars → Bool × Chars
  | '-' :: r => (true, r)
  | '+' :: r => (false, r)
  | cs => (false, cs)

/-- The digits of a decimal number; a zero in front stands alone. -/
def wholeDigits? (cs : Chars) : Option (Chars × Chars) :=
  match cs with
  | '0' :: r => some (['0'], r)
  | cs => decimalDigits? cs

def boundedInteger (negative : Bool) (n : Nat) : Option Toml :=
  let i : Int := if negative then -(n : Int) else n
  if Int64.minValue.toInt ≤ i ∧ i ≤ Int64.maxValue.toInt then some (.integer i) else none

def valueIn (base : Nat) (ds : Chars) : Nat :=
  ds.foldl (fun n c => base * n + (hexValue? c).getD 0) 0

/-- An integer in another base, behind its mark. -/
def radixInteger? (base : Nat) (r : Chars) : Option (Toml × Chars) := do
  let isDigit (c : Char) : Bool := (hexValue? c).any (· < base)
  let (ds, r) ← digits? isDigit (r.length + 1) r
  let v ← boundedInteger false (valueIn base ds)
  some (v, r)

def exponent? : Chars → Option (Option Int × Chars)
  | c :: r =>
    if c == 'e' || c == 'E' then
      let (negative, r) := sign r
      (decimalDigits? r).map fun (ds, r) =>
        (some (if negative then -(Decimal.naturalOf ds : Int) else Decimal.naturalOf ds), r)
    else some (none, c :: r)
  | [] => some (none, [])

/-- A decimal integer or a number with a fraction or exponent. A number too great for a double is
refused; one too far below zero is not. -/
def decimalNumber? (cs : Chars) : Option (Toml × Chars) := do
  let (negative, r) := sign cs
  let (whole, r) ← wholeDigits? r
  let (fraction, r) ← match r with
    | '.' :: r => (decimalDigits? r).map fun (ds, r) => (some ds, r)
    | r => some (none, r)
  let (exponent, r) ← exponent? r
  if fraction.isNone && exponent.isNone then
    (boundedInteger negative (Decimal.naturalOf whole)).map fun v => (v, r)
  else
    let x := (Decimal.Parts.numeral ⟨whole, fraction, exponent⟩ negative).toFloat
    if x == 1.0 / 0.0 then none else some (.float x, r)

def specialFloat? (cs : Chars) : Option (Toml × Chars) :=
  let (negative, r) := sign cs
  match r with
  | 'i' :: 'n' :: 'f' :: r => some (.float (if negative then -(1.0 / 0.0) else 1.0 / 0.0), r)
  | 'n' :: 'a' :: 'n' :: r => some (.float (0.0 / 0.0), r)
  | _ => none

/-- A number of exactly `width` digits within bounds. -/
def fixedNumber? (width low high : Nat) (cs : Chars) : Option (Nat × Chars) :=
  let ds := cs.take width
  let n := Decimal.naturalOf ds
  if ds.length == width && ds.all Char.isDigit && low ≤ n && n ≤ high then some (n, cs.drop width)
  else none

def character? (c : Char) : Chars → Option Chars
  | d :: r => if d == c then some r else none
  | [] => none

/-- A day, as it is written, and the rest. -/
def fullDate? (cs : Chars) : Option (Chars × Chars) := do
  let (y, r) ← fixedNumber? 4 0 9999 cs
  let r ← character? '-' r
  let (m, r) ← fixedNumber? 2 1 12 r
  let r ← character? '-' r
  let (_, r) ← fixedNumber? 2 1 (daysInMonth y m) r
  some (cs.take 10, r)

/-- A fraction of a second: nine digits count, and zeros at the end do not. -/
def fractionText (ds : Chars) : Chars :=
  let kept := ((ds.take 9).reverse.dropWhile (· == '0')).reverse
  if kept.isEmpty then [] else '.' :: kept

/-- A time of day and the rest. -/
def time? (cs : Chars) : Option (Chars × Chars) := do
  let (_, r) ← fixedNumber? 2 0 23 cs
  let r ← character? ':' r
  let (_, r) ← fixedNumber? 2 0 59 r
  let r ← character? ':' r
  let (_, r) ← fixedNumber? 2 0 60 r
  match r with
  | '.' :: r =>
    let ds := r.takeWhile Char.isDigit
    if ds.isEmpty then none else some (cs.take 8 ++ fractionText ds, r.drop ds.length)
  | r => some (cs.take 8, r)

/-- The distance from universal time, if it is given, and the rest. No distance has a plus sign. -/
def offset? (cs : Chars) : Option (Chars × Chars) :=
  match cs with
  | 'Z' :: r | 'z' :: r => some (['Z'], r)
  | c :: r =>
    if c == '+' || c == '-' then do
      let (h, t) ← fixedNumber? 2 0 23 r
      let t ← character? ':' t
      let (m, t) ← fixedNumber? 2 0 59 t
      some ((if h == 0 && m == 0 then '+' else c) :: r.take 5, t)
    else some ([], cs)
  | [] => some ([], [])

/-- A date, a date with a time behind it, or a time. -/
def moment? (cs : Chars) : Option (Toml × Chars) :=
  let moment (text : Chars) : Toml := .moment (String.ofList text)
  match fullDate? cs with
  | some (date, r) =>
    match r with
    | c :: t =>
      if c == 'T' || c == 't' || c == ' ' then
        match time? t with
        | some (time, t) =>
          (offset? t).map fun (offset, t) => (moment (date ++ 'T' :: time ++ offset), t)
        | none => some (moment date, r)
      else some (moment date, r)
    | [] => some (moment date, [])
  | none => (time? cs).map fun (time, r) => (moment time, r)

def number? (cs : Chars) : Option (Toml × Chars) :=
  match cs with
  | '0' :: 'x' :: r => radixInteger? 16 r
  | '0' :: 'o' :: r => radixInteger? 8 r
  | '0' :: 'b' :: r => radixInteger? 2 r
  | cs =>
    match moment? cs with
    | some m => some m
    | none =>
      match specialFloat? cs with
      | some x => some x
      | none => decimalNumber? cs

/-! ## Values -/

def scalar? (cs : Chars) : Option (Toml × Chars) :=
  match cs with
  | 't' :: 'r' :: 'u' :: 'e' :: r => some (.bool true, r)
  | 'f' :: 'a' :: 'l' :: 's' :: 'e' :: r => some (.bool false, r)
  | c :: _ =>
    if c == '"' || c == '\'' then (string? cs).map fun (s, r) => (.string (String.ofList s), r)
    else number? cs
  | [] => none

/-- The items of an array behind its bracket, with commas between them and perhaps one behind. -/
def items? (item : Chars → Option (Toml × Chars)) : Nat → Chars → Option (List Toml × Chars)
  | 0, _ => none
  | fuel + 1, cs =>
    match skipLines cs.length cs with
    | ']' :: r => some ([], r)
    | cs => do
      let (v, r) ← item cs
      match skipLines r.length r with
      | ']' :: r => some ([v], r)
      | ',' :: r => (items? item fuel r).map fun (vs, r) => (v :: vs, r)
      | _ => none

def keyValue? (item : Chars → Option (Toml × Chars)) (cs : Chars) :
    Option ((List String × Toml) × Chars) := do
  let (k, r) ← key? cs
  let r ← character? '=' r
  let (v, r) ← item (skipBlanks r)
  some ((k, v), r)

/-- The members of a table written on one line, behind its brace; there is at least one. -/
def inlineMembers? (item : Chars → Option (Toml × Chars)) (ms : Members) :
    Nat → Chars → Option (Members × Chars)
  | 0, _ => none
  | fuel + 1, cs => do
    let ((k, v), r) ← keyValue? item cs
    let ms ← addValue k v ms
    match skipBlanks r with
    | '\x7d' :: r => some (ms, r)
    | ',' :: r => inlineMembers? item ms fuel r
    | _ => none

/-- A value, with arrays and tables up to `depth` deep in it. -/
def value? : Nat → Chars → Option (Toml × Chars)
  | 0, cs => scalar? cs
  | depth + 1, cs =>
    match cs with
    | '[' :: r => (items? (value? depth) (r.length + 1) r).map fun (vs, r) => (.array vs, r)
    | '\x7b' :: r =>
      match skipBlanks r with
      | '\x7d' :: r => some (.table [], r)
      | r => (inlineMembers? (value? depth) [] (r.length + 1) r).map fun (ms, r) =>
        (.table (ofMembers ms), r)
    | cs => scalar? cs

/-! ## Documents -/

/-- A document while it is read: the header that was opened last, and all tables. -/
structure Document where
  header : List String
  members : Members

/-- A header behind its brackets, with the brackets behind it. -/
def header? (double : Bool) (d : Document) (cs : Chars) : Option (Document × Chars) := do
  let (k, r) ← key? cs
  let r ← character? ']' r
  let r ← if double then character? ']' r else some r
  let ms ← if double then openNextTable k d.members else openTable k d.members
  let r ← lineEnd? r
  some (⟨k, ms⟩, r)

/-- One line, or more if the value of a key goes on. -/
def line? (d : Document) (cs : Chars) : Option (Document × Chars) :=
  match cs with
  | '#' :: _ => (lineEnd? cs).map fun r => (d, r)
  | '\n' :: _ => (newline? cs).map fun r => (d, r)
  | '\r' :: _ => (newline? cs).map fun r => (d, r)
  | '[' :: '[' :: r => header? true d r
  | '[' :: r => header? false d r
  | cs => do
    let ((k, v), r) ← keyValue? (value? (depthLimit - 1)) cs
    let ms ← addValueUnder d.header k v d.members
    let r ← lineEnd? r
    some (⟨d.header, ms⟩, r)

def lines? : Nat → Document → Chars → Option Document
  | 0, _, _ => none
  | fuel + 1, d, cs =>
    match skipBlanks cs with
    | [] => some d
    | cs => (line? d cs).bind fun (d, r) => lines? fuel d r

def skipMark : Chars → Chars
  | '\ufeff' :: r => r
  | cs => cs

/-- The table that a configuration text holds. -/
def ofText? (s : String) : Option (List (String × Toml)) :=
  let cs := skipMark s.toList
  (lines? (cs.length + 1) ⟨[], []⟩ cs).map fun d => ofMembers d.members

end Dossier.Toml
