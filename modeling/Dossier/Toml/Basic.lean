/-!
Configuration data as a tree, and how tables grow. A table is written by headers and by dotted
keys; which of the two made it decides whether more may be added to it later.
-/

namespace Dossier

/-- Configuration data. Of a date or time its text is kept. -/
inductive Toml where
  | string (s : String)
  | integer (i : Int)
  | float (x : Float)
  | bool (b : Bool)
  | moment (text : String)
  | array (items : List Toml)
  | table (members : List (String × Toml))

namespace Toml

/-- What stands under a key while a document is read. -/
inductive Node where
  | value (v : Toml)
  /-- An implicit table was not named by a header of its own; a dotted one was made by a key. -/
  | table (isImplicit isDotted : Bool) (members : List (String × Node))
  /-- An array of tables, the last one first. -/
  | tables (last : List (String × Node)) (others : List (List (String × Node)))

abbrev Members := List (String × Node)

def find? (k : String) : Members → Option Node
  | [] => none
  | (a, n) :: ms => if a = k then some n else find? k ms

/-- Puts a node in the place of the one that is there, or at the end. -/
def assign (k : String) (n : Node) : Members → Members
  | [] => [(k, n)]
  | (a, m) :: ms => if a = k then (a, n) :: ms else (a, m) :: assign k n ms

/-- Changes the table at the end of a path. Tables that are not there are made; those that a key
passes through must not have a header. The change is told whether a key made the table. -/
def descend (byKey : Bool) (change : Bool → Members → Option Members) :
    List String → Bool → Members → Option Members
  | [], isDotted, ms => change isDotted ms
  | k :: ks, _, ms =>
    match find? k ms with
    | none =>
      (descend byKey change ks byKey []).map fun inner => ms ++ [(k, .table true byKey inner)]
    | some (.value _) => none
    | some (.tables last others) =>
      (descend byKey change ks false last).map fun inner => assign k (.tables inner others) ms
    | some (.table isImplicit isDotted inner) =>
      if byKey && !isImplicit then none
      else (descend byKey change ks isDotted inner).map fun inner =>
        assign k (.table isImplicit isDotted inner) ms

def splitLast : List String → Option (List String × String)
  | [] => none
  | [k] => some ([], k)
  | k :: ks => (splitLast ks).map fun (path, last) => (k :: path, last)

/-- Adds a value under a key, which may be dotted, to a table. No key is given twice, and a table
is not written partly by its header and partly by dotted keys. -/
def addValue (key : List String) (v : Toml) (ms : Members) : Option Members := do
  let (path, last) ← splitLast key
  descend true (fun isDotted ms =>
    if isDotted == path.isEmpty || (find? last ms).isSome then none
    else some (ms ++ [(last, .value v)])) path false ms

/-- Adds a value to the table that a header has opened. -/
def addValueUnder (header key : List String) (v : Toml) (ms : Members) : Option Members :=
  descend false (fun _ ms => addValue key v ms) header false ms

/-- Opens the table of a header. It may be there already if no header or key made it. -/
def openTable (header : List String) (ms : Members) : Option Members := do
  let (path, last) ← splitLast header
  descend false (fun _ ms =>
    match find? last ms with
    | none => some (ms ++ [(last, .table false false [])])
    | some (.table true false inner) => some (assign last (.table false false inner) ms)
    | some _ => none) path false ms

/-- Opens one more table of an array of tables. -/
def openNextTable (header : List String) (ms : Members) : Option Members := do
  let (path, last) ← splitLast header
  descend false (fun _ ms =>
    match find? last ms with
    | none => some (ms ++ [(last, .tables [] [])])
    | some (.tables inner others) => some (assign last (.tables [] (inner :: others)) ms)
    | some _ => none) path false ms

mutual

/-- The data of a document that has been read. -/
def ofNode : Node → Toml
  | .value v => v
  | .table _ _ ms => .table (ofMembers ms)
  | .tables last others => .array (ofTables others ++ [.table (ofMembers last)])

def ofMembers : List (String × Node) → List (String × Toml)
  | [] => []
  | (k, n) :: ms => (k, ofNode n) :: ofMembers ms

/-- The tables of an array in their order. -/
def ofTables : List (List (String × Node)) → List Toml
  | [] => []
  | ms :: others => ofTables others ++ [.table (ofMembers ms)]

end

end Toml

end Dossier
