import Dossier.Json.Basic

/-!
The tokens of written data. The scan reads one character at a time: it stands between tokens,
inside a string, or inside a number or a word, and gives up by standing nowhere.
-/

namespace Dossier.Json

inductive Token where
  | beginObject
  | endObject
  | beginArray
  | endArray
  | colon
  | comma
  | null
  | bool (b : Bool)
  | number (n : JsonNumber)
  | string (s : Option String)

/-- A piece of a string: a character, or the unit that an escape with four digits stands for. -/
inductive Piece where
  | char (c : Char)
  | unit (n : Nat)

/-- Puts the pieces together. A unit of the range kept for halves has to be a first half with a
second one behind it. -/
def assemble : List Piece → Option (List Char)
  | [] => some []
  | .char c :: r => (assemble r).map (c :: ·)
  | .unit h :: .unit l :: r =>
    if 0xD800 ≤ h && h < 0xDC00 then
      if 0xDC00 ≤ l && l < 0xE000 then
        (assemble r).map (Char.ofNat (0x10000 + (h - 0xD800) * 0x400 + (l - 0xDC00)) :: ·)
      else none
    else if 0xDC00 ≤ h && h < 0xE000 then none
    else (assemble (.unit l :: r)).map (Char.ofNat h :: ·)
  | .unit h :: r =>
    if 0xD800 ≤ h && h < 0xE000 then none else (assemble r).map (Char.ofNat h :: ·)

def escaped? : Char → Option Char
  | '"' => some '"'
  | '\\' => some '\\'
  | '/' => some '/'
  | 'b' => some '\x08'
  | 'f' => some '\x0c'
  | 'n' => some '\n'
  | 'r' => some '\r'
  | 't' => some '\t'
  | _ => none

def hexDigit? (c : Char) : Option Nat :=
  if '0' ≤ c ∧ c ≤ '9' then some (c.toNat - 0x30)
  else if 'a' ≤ c ∧ c ≤ 'f' then some (c.toNat - 0x57)
  else if 'A' ≤ c ∧ c ≤ 'F' then some (c.toNat - 0x37)
  else none

/-- Reads a number: an optional minus sign, digits without a zero in front of others, and a
fraction and an exponent with at least one digit each, if there are such. -/
def number? (cs : List Char) : Option JsonNumber :=
  let (negative, cs) : Bool × List Char :=
    match cs with
    | '-' :: r => (true, r)
    | r => (false, r)
  match Decimal.Parts.ofChars? cs with
  | none => none
  | some p =>
    let wholeOk := match p.whole with
      | [] => false
      | ['0'] => true
      | '0' :: _ => false
      | _ => true
    let fractionOk := match p.fraction with
      | some [] => false
      | _ => true
    if wholeOk && fractionOk then
      some ⟨p.numeral negative, p.fraction.isNone && p.exponent.isNone⟩
    else none

/-- A number or one of the three words. -/
def bare? (cs : List Char) : Option Token :=
  match String.ofList cs with
  | "null" => some .null
  | "true" => some (.bool true)
  | "false" => some (.bool false)
  | _ => (number? cs).map .number

/-- Where the scan stands. The characters and pieces read so far are in reverse order. -/
inductive Mode where
  | between
  | bare (read : List Char)
  | string (read : List Piece)
  | escape (read : List Piece)
  | hex (read : List Piece) (left value : Nat)
  | nowhere

structure Scan where
  mode : Mode
  /-- The tokens read so far, the last one first. -/
  tokens : List Token

def Scan.fail (s : Scan) : Scan := ⟨.nowhere, s.tokens⟩

def isSpace (c : Char) : Bool := c == ' ' || c == '\n' || c == '\r' || c == '\t'

def isBare (c : Char) : Bool := c.isAlphanum || c == '-' || c == '+' || c == '.'

def punctuation? : Char → Option Token
  | '\x7b' => some .beginObject
  | '\x7d' => some .endObject
  | '[' => some .beginArray
  | ']' => some .endArray
  | ':' => some .colon
  | ',' => some .comma
  | _ => none

/-- One character read between tokens. -/
def Scan.fresh (s : Scan) (c : Char) : Scan :=
  if isSpace c then ⟨.between, s.tokens⟩
  else if c == '"' then ⟨.string [], s.tokens⟩
  else if isBare c then ⟨.bare [c], s.tokens⟩
  else
    match punctuation? c with
    | some t => ⟨.between, t :: s.tokens⟩
    | none => s.fail

def Scan.endBare (s : Scan) (read : List Char) : Scan :=
  match bare? read.reverse with
  | some t => ⟨.between, t :: s.tokens⟩
  | none => s.fail

def Scan.endString (s : Scan) (read : List Piece) : Scan :=
  ⟨.between, .string ((assemble read.reverse).map String.ofList) :: s.tokens⟩

def Scan.step (s : Scan) (c : Char) : Scan :=
  match s.mode with
  | .between => s.fresh c
  | .bare read =>
    if isBare c then ⟨.bare (c :: read), s.tokens⟩
    else
      let s := s.endBare read
      match s.mode with
      | .between => s.fresh c
      | _ => s
  | .string read =>
    if c == '"' then s.endString read
    else if c == '\\' then ⟨.escape read, s.tokens⟩
    else if c.toNat < 0x20 then s.fail
    else ⟨.string (.char c :: read), s.tokens⟩
  | .escape read =>
    if c == 'u' then ⟨.hex read 4 0, s.tokens⟩
    else
      match escaped? c with
      | some d => ⟨.string (.char d :: read), s.tokens⟩
      | none => s.fail
  | .hex read left value =>
    match hexDigit? c with
    | none => s.fail
    | some d =>
      if left ≤ 1 then ⟨.string (.unit (16 * value + d) :: read), s.tokens⟩
      else ⟨.hex read (left - 1) (16 * value + d), s.tokens⟩
  | .nowhere => s

def Scan.finish (s : Scan) : Option (List Token) :=
  match s.mode with
  | .between => some s.tokens.reverse
  | .bare read =>
    match bare? read.reverse with
    | some t => some (t :: s.tokens).reverse
    | none => none
  | _ => none

def tokens? (cs : List Char) : Option (List Token) := (cs.foldl Scan.step ⟨.between, []⟩).finish

end Dossier.Json
