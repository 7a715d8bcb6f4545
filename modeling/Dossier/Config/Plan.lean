import Dossier.Config.Basic
import Dossier.Session

/-!
The session that a configuration asks for. The primary collector is registered first, then the
sources in their order.
-/

namespace Dossier

/-- The namespace of a collector that brings in individuals of an earlier session. -/
def Archive.space : String := "stored"

/-- The collector that brings in stored individuals. What was known of them is left behind. -/
def Archive.primary (a : Archive) (f : Filter) : Primary :=
  ⟨space, [], none, .individuals ((a.load f).map fun i => { i with attributes := ∅ })⟩

namespace Source

def register (read : ReadFile) (session : Session) (s : Source) : Except Fault Session :=
  match s.declarations with
  | .error e => .error (.schema e)
  | .ok ds =>
    let file : FactFile := ⟨s.space, s.path, ds, s.timeoutSecs.map Span.ofSecs⟩
    (session.registerSecondary (file.secondary read)).mapError .schema

end Source

namespace Config

def settings (c : Config) : Settings := ⟨.ofSecs c.timeoutSecs, c.maxConcurrency⟩

/-- The primary collectors that a configuration names. -/
def primaries (c : Config) (read : ReadFile) (archive : Option Archive) :
    Except Fault (List Primary) :=
  let fromRoster := (c.roster.map fun r => r.primary read).toList
  match c.stored, archive with
  | none, _ => .ok fromRoster
  | some f, some a => .ok (fromRoster ++ [a.primary f])
  | some _, none => .error (.config .noArchive)

def session (c : Config) (read : ReadFile) (archive : Option Archive) : Except Fault Session := do
  let primaries ← c.primaries read archive
  let start : Session := { Session.ofSettings c.settings with archive }
  let start ← (primaries.foldlM Session.registerPrimary start).mapError .schema
  c.sources.foldlM (Source.register read) start

end Config

end Dossier
