/-!
The arguments of a call. Options that concern every command may stand before the command and
behind it, and the ones behind it count; an option that is no list is given once at each place.
-/

namespace Dossier

inductive Command where
  | run (individuals : Bool)
  | find (required : List String) (event : Option String)
  | schema
deriving DecidableEq

structure Globals where
  config : Option String
  logDirectory : Option String
deriving DecidableEq

inductive Request where
  | version
  | help
  /-- The arguments make no sense. -/
  | misuse
  | perform (command : Command) (globals : Globals)
deriving DecidableEq

namespace Request

/-- What has been understood so far: the options before the command, the command if there was
one, and the options behind it. -/
structure Draft where
  outer : Globals
  command : Option Command
  inner : Globals

def Draft.empty : Draft := ⟨⟨none, none⟩, none, ⟨none, none⟩⟩

def Draft.here (d : Draft) : Globals := if d.command.isNone then d.outer else d.inner

def Draft.setHere (d : Draft) (g : Globals) : Draft :=
  if d.command.isNone then { d with outer := g } else { d with inner := g }

/-- Reads the name of a command; only one is given. -/
def Draft.enter (d : Draft) (name : String) : Option Draft :=
  if d.command.isSome then none
  else
    match name with
    | "run" => some { d with command := some (.run false) }
    | "find" => some { d with command := some (.find [] none) }
    | "schema" => some { d with command := some .schema }
    | _ => none

/-- An option that takes no value. -/
def Draft.raise (d : Draft) (name : String) : Option Draft :=
  match name, d.command with
  | "individuals", some (.run false) => some { d with command := some (.run true) }
  | _, _ => none

/-- An option with its value. A path is not empty. -/
def Draft.give (d : Draft) (name value : String) : Option Draft :=
  match name, d.command with
  | "config", _ =>
    if value.isEmpty || d.here.config.isSome then none
    else some (d.setHere { d.here with config := some value })
  | "log-dir", _ =>
    if value.isEmpty || d.here.logDirectory.isSome then none
    else some (d.setHere { d.here with logDirectory := some value })
  | "require", some (.find required event) =>
    some { d with command := some (.find (required ++ [value]) event) }
  | "show", some (.find required none) =>
    some { d with command := some (.find required (some value)) }
  | _, _ => none

/-- The end of the arguments. There has to be a command. -/
def Draft.finish (d : Draft) : Request :=
  match d.command with
  | none => .misuse
  | some command =>
    .perform command
      ⟨d.inner.config.or d.outer.config, d.inner.logDirectory.or d.outer.logDirectory⟩

inductive Form where
  | name (s : String)
  /-- Two hyphens: no options follow. -/
  | separator
  | short (letters : List Char)
  | long (name : String) (value : Option String)

/-- The part before the first equals sign, and the part behind it if there is one. -/
def splitValue (cs : List Char) : String × Option String :=
  match cs.dropWhile (· != '=') with
  | [] => (String.ofList cs, none)
  | _ :: value => (String.ofList (cs.takeWhile (· != '=')), some (String.ofList value))

def Form.ofArgument (a : String) : Form :=
  match a.toList with
  | ['-', '-'] => .separator
  | '-' :: '-' :: cs => let (n, value) := splitValue cs; .long n value
  | ['-'] => .name a
  | '-' :: cs => .short cs
  | _ => .name a

def takesValue (name : String) : Bool := ["config", "log-dir", "require", "show"].contains name

/-- Options of one letter. Of several letters behind one hyphen the first decides. -/
def ofShort (d : Draft) : List Char → Request
  | 'h' :: _ => .help
  | 'V' :: _ => if d.command.isNone then .version else .misuse
  | _ => .misuse

/-- What follows the word `help`: the name of a command, or nothing. -/
def ofHelp : List String → Request
  | [] => .help
  | [name] => if ["run", "find", "schema", "help"].contains name then .help else .misuse
  | _ => .misuse

def read (d : Draft) : List String → Request
  | [] => d.finish
  | a :: rest =>
    match Form.ofArgument a with
    | .separator => if rest.isEmpty then d.finish else .misuse
    | .short letters => ofShort d letters
    | .name "help" => if d.command.isNone then ofHelp rest else .misuse
    | .name n =>
      match d.enter n with
      | some d => read d rest
      | none => .misuse
    | .long "help" none => .help
    | .long "version" none => if d.command.isNone then .version else .misuse
    | .long name (some value) =>
      match d.give name value with
      | some d => read d rest
      | none => .misuse
    | .long name none =>
      if takesValue name then
        match rest with
        | [] => .misuse
        | value :: rest =>
          match Form.ofArgument value, d.give name value with
          | .name _, some d => read d rest
          | _, _ => .misuse
      else
        match d.raise name with
        | some d => read d rest
        | none => .misuse

def ofArguments (args : List String) : Request := read .empty args

end Request

end Dossier
