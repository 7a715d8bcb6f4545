import Dossier.Json.Token

/-!
Reading a tree from its tokens. The reader keeps the arrays and objects that are still open, the
innermost first, and what may come next.
-/

namespace Dossier.Json

/-- An array or object that is still open; what it holds so far is in reverse order. A member of
an object waits for its value. -/
inductive Frame where
  | array (items : List Json)
  | object (members : List (Option String × Json))
  | member (members : List (Option String × Json)) (name : Option String)

inductive Expect where
  | value
  /-- A value, or the end of an array that is still empty. -/
  | item
  /-- A comma or the end of the innermost array or object. -/
  | more
  /-- A name, or the end of an object that is still empty. -/
  | firstName
  | name
  | colon
  | nothing (whole : Json)

structure Reader where
  stack : List Frame
  expect : Expect

def Reader.take (fs : List Frame) (v : Json) : Option Reader :=
  match fs with
  | [] => some ⟨[], .nothing v⟩
  | .array items :: fs => some ⟨.array (v :: items) :: fs, .more⟩
  | .member members name :: fs => some ⟨.object ((name, v) :: members) :: fs, .more⟩
  | .object _ :: _ => none

def Reader.start (fs : List Frame) : Token → Option Reader
  | .null => take fs .null
  | .bool b => take fs (.bool b)
  | .number n => take fs (.number n)
  | .string s => take fs (.string s)
  | .beginArray => some ⟨.array [] :: fs, .item⟩
  | .beginObject => some ⟨.object [] :: fs, .firstName⟩
  | _ => none

def Reader.named (fs : List Frame) (name : Option String) : Option Reader :=
  match fs with
  | .object members :: fs => some ⟨.member members name :: fs, .colon⟩
  | _ => none

def Reader.step (r : Reader) (t : Token) : Option Reader :=
  match r.expect, t, r.stack with
  | .value, t, fs => start fs t
  | .item, .endArray, .array items :: fs => take fs (.array items.reverse)
  | .item, t, fs => start fs t
  | .more, .comma, .array items :: fs => some ⟨.array items :: fs, .value⟩
  | .more, .comma, .object members :: fs => some ⟨.object members :: fs, .name⟩
  | .more, .endArray, .array items :: fs => take fs (.array items.reverse)
  | .more, .endObject, .object members :: fs => take fs (.object members.reverse)
  | .firstName, .endObject, .object members :: fs => take fs (.object members.reverse)
  | .firstName, .string s, fs => named fs s
  | .name, .string s, fs => named fs s
  | .colon, .colon, fs => some ⟨fs, .value⟩
  | _, _, _ => none

def Reader.run (r : Reader) : List Token → Option Reader
  | [] => some r
  | t :: ts =>
    match r.step t with
    | none => none
    | some r => r.run ts

/-- The tree of a list of tokens. -/
def ofTokens? (ts : List Token) : Option Json :=
  match Reader.run ⟨[], .value⟩ ts with
  | some ⟨_, .nothing v⟩ => some v
  | _ => none

/-- The tree of a text. -/
def ofText? (s : String) : Option Json := (tokens? s.toList).bind ofTokens?

end Dossier.Json
