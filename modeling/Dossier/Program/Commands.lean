import Dossier.Config.Reading
import Dossier.Program.Arguments
import Dossier.Program.Dialogue
import Dossier.Program.Environment

/-!
The commands. A call finds its configuration, plans a session, and runs it or shows its schema.
What goes wrong is told in one line, with the cause below it if there is one.
-/

namespace Dossier

inductive CommandError where
  | fault (f : Fault)
  | requirementForm (given : String)
  | threshold (given : String) (cause : Decimal.NumberError)
  | stage (e : StageError)

namespace CommandError

/-- The error and then its causes. -/
def chain : CommandError → List String
  | fault f => [f.message]
  | requirementForm given => ["expected CATEGORY=MIN, got '" ++ given ++ "'"]
  | threshold given cause => ["invalid reliability in '" ++ given ++ "'", cause.message]
  | stage e => [e.message]

def text (e : CommandError) : String :=
  match e.chain with
  | [] => "Error:"
  | outer :: [] => "Error: " ++ outer
  | outer :: causes =>
    "Error: " ++ outer ++ "\n\nCaused by:" ++ String.join (causes.map fun c => "\n    " ++ c)

end CommandError

/-- A requirement as it is given in a call: a category, an equals sign, and a threshold. -/
def Requirements.requireGiven (r : Requirements) (given : String) :
    Except CommandError Requirements :=
  match Text.splitFirst '=' given with
  | none => .error (.requirementForm given)
  | some (name, min) =>
    match Category.parse name with
    | .error e => .error (.fault (.schema e))
    | .ok c =>
      match Decimal.ofText? (Text.trim min) with
      | .error e => .error (.threshold given e)
      | .ok min => (r.require c min).mapError fun e => .fault (.requirement e)

namespace Command

structure Surroundings where
  config : Config
  read : ReadFile
  today : CivilDate
  ids : IdSupply

/-- The requirements of the configuration, for another event if one is given, and those of the
call. -/
def requirements (c : Config) (required : List String) (event : Option String) :
    Except CommandError Requirements :=
  match c.query.requirements with
  | .error f => .error (.fault f)
  | .ok r => required.foldlM Requirements.requireGiven { r with event := event.or r.event }

def session (s : Surroundings) : Except CommandError Session :=
  (s.config.session s.read none).mapError .fault

def report (s : Surroundings) : Except CommandError Report := do
  let session ← session s
  let run ← (session.run s.today s.ids).mapError .stage
  return run.report

def perform (s : Surroundings) : Command → Except CommandError Answer
  | run withIndividuals => (report s).map fun r => .report r withIndividuals
  | find required event => do
    let q ← requirements s.config required event
    let r ← report s
    match r.select q with
    | .ok is => return .individuals is
    | .error u => return .unsatisfiable u
  | schema => do
    let session ← session s
    let session ← session.sealRegistry.mapError .stage
    return .schema session.registry

end Command

/-! ## A whole call -/

namespace Call

/-- The variable that names the configuration file, and the file if nothing names one. -/
def configVariable : String := "PROFILER_CONFIG"

def usualConfig : String := "profiler.toml"

def environmentFile : String := ".env"

def versionText : String := "attendee-profiler 0.1.0\n"

def usageText : String :=
  "Collect and match confidence-weighted facts about event attendees\n\n" ++
  "Usage: attendee-profiler [OPTIONS] <COMMAND>\n\n" ++
  "Commands:\n" ++
  "  run     Run a collection session and print the session report\n" ++
  "  find    Run a session, then list individuals meeting the requirements\n" ++
  "  schema  Print the attribute catalog and the configured schema\n" ++
  "  help    Print this message or the help of the given subcommand(s)\n\n" ++
  "Options:\n" ++
  "      --config <CONFIG>    Configuration file (defaults to $PROFILER_CONFIG or profiler.toml)\n" ++
  "      --log-dir <LOG_DIR>  Also write JSON logs to this directory\n" ++
  "  -h, --help               Print help\n" ++
  "  -V, --version            Print version\n"

def fail (complaint : String) (e : CommandError) : Dialogue :=
  .finish ⟨1, .nothing, complaint ++ e.text ++ "\n"⟩

/-- Performs a command, once its configuration is read. -/
def withConfig (command : Command) (today : CivilDate) (ids : IdSupply) (complaint : String)
    (c : Config) : Dialogue :=
  .readAll [] (fun read =>
    match command.perform ⟨c, read, today, ids⟩ with
    | .error e => fail complaint e
    | .ok a => .finish ⟨0, .answer a, complaint⟩) c.paths

def atPath (command : Command) (today : CivilDate) (ids : IdSupply) (path complaint : String) :
    Dialogue :=
  .read path fun content =>
    match Config.load path content with
    | .error f => fail complaint (.fault f)
    | .ok c => withConfig command today ids complaint c

/-- The configuration file: that of the call, or else that of the environment. -/
def configPath (env : Environment) (g : Globals) : String :=
  (g.config.or (env.get? configVariable)).getD usualConfig

/-- A command with its options. Without a place for its logs it goes on and complains. -/
def perform (command : Command) (g : Globals) (env : Environment) (today : CivilDate)
    (ids : IdSupply) : Dialogue :=
  let path := configPath env g
  match g.logDirectory with
  | none => atPath command today ids path ""
  | some directory =>
    .openLogs directory fun
      | .ok () => atPath command today ids path ""
      | .error e =>
        atPath command today ids path
          ("Failed to create log directory '" ++ directory ++ "': " ++ e.message ++ "\n")

/-- A call with its arguments, in an environment to which a file may add. -/
def dialogue (args : List String) (env : Environment) (today : CivilDate) (ids : IdSupply) :
    Dialogue :=
  .read environmentFile fun content =>
    let env := match content with
      | .ok s => env.extend s
      | .error _ => env
    match Request.ofArguments args with
    | .version => .finish ⟨0, .text versionText, ""⟩
    | .help => .finish ⟨0, .text usageText, ""⟩
    | .misuse => .finish ⟨2, .nothing, usageText⟩
    | .perform command g => perform command g env today ids

end Call

end Dossier
