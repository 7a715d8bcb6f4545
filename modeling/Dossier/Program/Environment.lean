import Dossier.Text.Blank

/-!
The variables of the environment, and a file that adds to them. A line of the file gives one
variable a value, which may be quoted and may refer to variables that were given before. What is
set already stays as it is, and the first line that cannot be read ends the reading.
-/

namespace Dossier

/-- Names with their values; the first pair under a name counts. -/
abbrev Environment := List (String × String)

namespace Environment

def get? (env : Environment) (name : String) : Option String :=
  (env.find? (·.1 == name)).map (·.2)

def add (env : Environment) (name value : String) : Environment :=
  if (env.get? name).isSome then env else env ++ [(name, value)]

/-- The value of a reference: nothing if there is no such variable. -/
def valueOf (env : Environment) (name : List Char) : List Char :=
  ((env.get? (String.ofList name)).getD "").toList

/-! ## Values -/

/-- Where the reading of a value stands. Names that are being read are in reverse order. -/
inductive Mode where
  | plain
  /-- Blanks behind the value; only a comment may follow. -/
  | ended
  | comment
  | strong
  | weak
  | escape (inQuotes : Bool)
  | reference (inQuotes : Bool) (name : List Char)
  | braced (inQuotes : Bool) (name : List Char)

/-- A value while it is read; what was read is in reverse order. -/
structure Draft where
  mode : Mode
  read : List Char

namespace Draft

/-- The mode outside escapes and references. -/
def base (inQuotes : Bool) : Mode := if inQuotes then .weak else .plain

/-- Ends a reference and puts its value in. -/
def resolve (env : Environment) (d : Draft) (name : List Char) (mode : Mode) : Draft :=
  ⟨mode, (env.valueOf name.reverse).reverse ++ d.read⟩

def escaped? (c : Char) : Option Char :=
  if c == 'n' then some '\n'
  else if c == '\\' || c == '\'' || c == '"' || c == '$' || c == ' ' then some c
  else none

def step (env : Environment) (d : Draft) (c : Char) : Option Draft :=
  match d.mode with
  | .comment => some d
  | .ended =>
    if c == ' ' || c == '\t' then some d
    else if c == '#' then some ⟨.comment, d.read⟩
    else none
  | .escape inQuotes => (escaped? c).map fun e => ⟨base inQuotes, e :: d.read⟩
  | .strong => some (if c == '\'' then ⟨.plain, d.read⟩ else ⟨.strong, c :: d.read⟩)
  | .reference inQuotes name =>
    if c.isAlphanum then some ⟨.reference inQuotes (c :: name), d.read⟩
    else if c == '\x7b' && name.isEmpty then some ⟨.braced inQuotes [], d.read⟩
    else if c == '$' then some (d.resolve env name (.reference inQuotes []))
    else
      let after := d.resolve env name (base inQuotes)
      some ⟨after.mode, c :: after.read⟩
  | .braced inQuotes name =>
    if c == '\x7d' then some (d.resolve env name (base inQuotes))
    else some ⟨.braced inQuotes (c :: name), d.read⟩
  | .weak =>
    if c == '$' then some ⟨.reference true [], d.read⟩
    else if c == '"' then some ⟨.plain, d.read⟩
    else if c == '\\' then some ⟨.escape true, d.read⟩
    else some ⟨.weak, c :: d.read⟩
  | .plain =>
    if c == '$' then some ⟨.reference false [], d.read⟩
    else if c == '\'' then some ⟨.strong, d.read⟩
    else if c == '"' then some ⟨.weak, d.read⟩
    else if c == '\\' then some ⟨.escape false, d.read⟩
    else if c == ' ' || c == '\t' then some ⟨.ended, d.read⟩
    else some ⟨.plain, c :: d.read⟩

/-- The end of a line. Quotes and braces have to be closed. -/
def finish? (env : Environment) (d : Draft) : Option (List Char) :=
  match d.mode with
  | .strong | .weak | .braced _ _ | .reference true _ | .escape true => none
  | .reference false name => some (d.resolve env name .plain).read.reverse
  | _ => some d.read.reverse

end Draft

def value? (env : Environment) (cs : List Char) : Option (List Char) :=
  (cs.foldlM (Draft.step env) ⟨.plain, []⟩).bind (Draft.finish? env)

/-! ## Lines -/

def isNameStart (c : Char) : Bool := c.isAlpha || c == '_'

def isNameChar (c : Char) : Bool := c.isAlphanum || c == '_' || c == '.'

/-- A name, and what follows it behind blanks. -/
def name? (cs : List Char) : Option (List Char × List Char) :=
  match cs with
  | c :: _ =>
    if isNameStart c then some (cs.takeWhile isNameChar, Text.trimStart (cs.dropWhile isNameChar))
    else none
  | [] => none

/-- What stands behind an equals sign. -/
def assigned? : List Char → Option (List Char)
  | '=' :: cs => some (Text.trimStart cs)
  | _ => none

/-- A name and the text of its value. The word `export` may stand in front. -/
def assignment? (cs : List Char) : Option (List Char × List Char) := do
  let (name, rest) ← name? cs
  match assigned? rest with
  | some v => some (name, v)
  | none =>
    if name != "export".toList then none
    else
      let (name, rest) ← name? rest
      let v ← assigned? rest
      some (name, v)

/-- Whether nothing stands here, or a comment. -/
def isSilent (cs : List Char) : Bool := cs.isEmpty || cs.head? == some '#'

/-- The environment with what one line adds. -/
def readLine (env : Environment) (line : List Char) : Option Environment :=
  let cs := Text.trimChars line
  if isSilent cs then some env
  else do
    let (name, text) ← assignment? cs
    let value ← if isSilent text then some [] else env.value? text
    some (env.add (String.ofList name) (String.ofList value))

def readLines (env : Environment) : List (List Char) → Environment
  | [] => env
  | l :: ls =>
    match env.readLine l with
    | none => env
    | some env => readLines env ls

/-- The environment with what a file adds that has this text. -/
def extend (env : Environment) (text : String) : Environment :=
  env.readLines (text.toList.splitOn '\n')

end Environment

end Dossier
