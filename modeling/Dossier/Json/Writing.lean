import Dossier.Decimal.Layout
import Dossier.Json.Basic

/-!
Data to be written, and its text. The compact text has no blanks; the indented one puts every item
and member on a line of its own. Only what has to be escaped is escaped.
-/

namespace Dossier

/-- Data to be written: numbers are integers or doubles. -/
inductive Data where
  | null
  | bool (b : Bool)
  | integer (i : Int)
  | real (x : Float)
  | string (s : String)
  | array (items : List Data)
  | object (members : List (String × Data))

namespace Data

def hexDigit (n : Nat) : Char := if n < 10 then Char.ofNat (0x30 + n) else Char.ofNat (0x57 + n)

/-- A character within a string: quote, backslash and control characters are escaped. -/
def escapeChar (c : Char) : List Char :=
  if c == '"' then ['\\', '"']
  else if c == '\\' then ['\\', '\\']
  else if c == '\x08' then ['\\', 'b']
  else if c == '\x0c' then ['\\', 'f']
  else if c == '\n' then ['\\', 'n']
  else if c == '\r' then ['\\', 'r']
  else if c == '\t' then ['\\', 't']
  else if c.toNat < 0x20 then
    ['\\', 'u', '0', '0', hexDigit (c.toNat / 16), hexDigit (c.toNat % 16)]
  else [c]

def quote (s : String) : String := "\"" ++ String.ofList (s.toList.flatMap escapeChar) ++ "\""

def joinWith (sep : String) : List String → String
  | [] => ""
  | [s] => s
  | s :: ss => s ++ sep ++ joinWith sep ss

mutual

def compact : Data → String
  | null => "null"
  | bool b => if b then "true" else "false"
  | integer i => toString i
  | real x => Decimal.dataText x
  | string s => quote s
  | array items => "[" ++ joinWith "," (compactItems items) ++ "]"
  | object members => "\x7b" ++ joinWith "," (compactMembers members) ++ "\x7d"

def compactItems : List Data → List String
  | [] => []
  | d :: ds => compact d :: compactItems ds

def compactMembers : List (String × Data) → List String
  | [] => []
  | (k, d) :: ds => (quote k ++ ":" ++ compact d) :: compactMembers ds

end

def indent (depth : Nat) : String := String.ofList (List.replicate (2 * depth) ' ')

/-- The lines of an array or object between its two marks. -/
def block (depth : Nat) (first last : String) (lines : List String) : String :=
  if lines.isEmpty then first ++ last
  else
    let inner := indent (depth + 1)
    first ++ "\n" ++ inner ++ joinWith (",\n" ++ inner) lines ++ "\n" ++ indent depth ++ last

mutual

/-- The indented text of data that stands `depth` levels deep. -/
def indentedAt (depth : Nat) : Data → String
  | array items => block depth "[" "]" (indentedItems (depth + 1) items)
  | object members => block depth "\x7b" "\x7d" (indentedMembers (depth + 1) members)
  | null => "null"
  | bool b => if b then "true" else "false"
  | integer i => toString i
  | real x => Decimal.dataText x
  | string s => quote s

def indentedItems (depth : Nat) : List Data → List String
  | [] => []
  | d :: ds => indentedAt depth d :: indentedItems depth ds

def indentedMembers (depth : Nat) : List (String × Data) → List String
  | [] => []
  | (k, d) :: ds => (quote k ++ ": " ++ indentedAt depth d) :: indentedMembers depth ds

end

def indented (d : Data) : String := indentedAt 0 d

/-- A text, or null. -/
def optional : Option String → Data
  | none => null
  | some s => string s

end Data

end Dossier
