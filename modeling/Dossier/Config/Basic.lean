import Dossier.Archive
import Dossier.FactFile
import Dossier.Query
import Dossier.Roster

/-!
Configurations: where the individuals come from, which files add facts to them, how long every
collector may take, and what is required of the individuals.
-/

namespace Dossier

/-- A file of facts as a configuration names it; its categories are given by name. -/
structure Source where
  space : String
  path : String
  attributes : SortedMap String String
  timeoutSecs : Option Nat
deriving DecidableEq

structure Config where
  timeoutSecs : Nat
  maxConcurrency : Option Nat
  roster : Option Roster
  stored : Option Filter
  sources : List Source
  query : Query

namespace Source

/-- The attributes of a source in the order of their names. -/
def declarations (s : Source) : Except SchemaError (List Declaration) :=
  s.attributes.toList.mapM fun (localName, name) =>
    (Category.parse name).map fun c => ⟨localName, c⟩

/-- A source declares some attribute, and categories that exist. -/
def check (s : Source) : Except Fault Unit :=
  if s.attributes.isEmpty then .error (.config (.noAttributes s.space))
  else
    match s.declarations with
    | .error e => .error (.schema e)
    | .ok _ => .ok ()

end Source

namespace Config

/-- Collectors without a budget of their own have this one, unless the configuration says
otherwise. -/
def usualTimeoutSecs : Nat := 60

/-- Whether a configuration makes sense, as far as that shows without its files. -/
def check (c : Config) : Except Fault Unit := do
  if c.timeoutSecs == 0 then throw (.config .noTime)
  if c.roster.isSome && c.stored.isSome then throw (.config .twoPrimaries)
  if c.maxConcurrency == some 0 then throw (.config .noConcurrency)
  c.sources.forM Source.check
  let _ ← c.query.requirements

def relativeTo (c : Config) (base : String) : Config :=
  { c with
    roster := c.roster.map fun r => { r with path := Path.join base r.path }
    sources := c.sources.map fun s => { s with path := Path.join base s.path } }

/-- The files that a session will read. -/
def paths (c : Config) : List String := (c.roster.map (·.path)).toList ++ c.sources.map (·.path)

end Config

end Dossier
