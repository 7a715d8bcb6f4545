import Dossier.Files.Tree
import Dossier.Requirements
import Dossier.SchemaError

/-!
Why no session comes about: the configuration cannot be read, or what it asks for cannot be done.
-/

namespace Dossier

inductive ConfigError where
  | unreadable (path : String) (reason : FileError)
  | noTime
  | twoPrimaries
  | noConcurrency
  | noAttributes (space : String)
  | noArchive
deriving DecidableEq

def ConfigError.message : ConfigError → String
  | unreadable path reason =>
    "Failed to read config file '" ++ path ++ "': " ++ reason.message
  | noTime => "session.collector_timeout_secs must be greater than zero"
  | twoPrimaries => "[roster] and [stored] both name a primary collector; keep one"
  | noConcurrency => "session.max_concurrency must be greater than zero"
  | noAttributes space => "source '" ++ space ++ "' declares no attributes"
  | noArchive => "[stored] requires a persistence gateway"

inductive Fault where
  /-- The text is no configuration. -/
  | malformed
  | config (e : ConfigError)
  | schema (e : SchemaError)
  | requirement (e : RequirementError)
deriving DecidableEq

def Fault.message : Fault → String
  | malformed => "TOML deserialization failed"
  | config e => "Configuration error: " ++ e.message
  | schema e => e.message
  | requirement e => e.message

end Dossier
