import Dossier.Program.Commands
import Dossier.Program.Moment
import Std.Time.DateTime.Timestamp

/-!
The program: the dialogue of a call, led with the files and the clock of the machine.
-/

namespace Dossier.Main

/-- What the machine reports, in the words of the library. -/
def fileError : IO.Error → FileError
  | .noFileOrDirectory .. => .notFound
  | .alreadyExists .. => .alreadyThere
  | .inappropriateType _ code _ =>
    if code == 20 || code == -20 then .notDirectory else .isDirectory
  | e => .other e.toString

def readText (path : String) : IO (Except FileError String) := do
  match ← (IO.FS.readBinFile path).toBaseIO with
  | .error e => return .error (fileError e)
  | .ok content =>
    match String.fromUTF8? content with
    | some s => return .ok s
    | none => return .error .notUtf8

def ensureDirectory (path : String) : IO Unit := do
  match ← (IO.FS.createDir path).toBaseIO with
  | .ok () => pure ()
  | .error e =>
    let here ← IO.currentDir
    if !(← (here / path).isDir) then throw e

def makeDirectories (path : String) : Nat → IO Unit
  | 0 => pure ()
  | depth + 1 => do
    if !path.isEmpty then
      match ← (ensureDirectory path).toBaseIO with
      | .ok () => pure ()
      | .error e =>
        match fileError e, Path.parent? path with
        | .notFound, some parent =>
          makeDirectories parent depth
          ensureDirectory path
        | _, _ => throw e

/-- Makes the directory for the logs and opens the log of the day in it. -/
def openLogs (today : CivilDate) (directory : String) : IO (Except FileError Unit) := do
  let opened : IO Unit := do
    makeDirectories directory (directory.length + 1)
    IO.FS.withFile (Path.join directory ("profiler.log." ++ today.text)) .append fun _ => pure ()
  match ← opened.toBaseIO with
  | .error e => return .error (fileError e)
  | .ok () => return .ok ()

def play (today : CivilDate) : Dialogue → IO Ending
  | .finish e => pure e
  | .read path next => do
    let r ← readText path
    play today (next r)
  | .openLogs directory next => do
    let r ← openLogs today directory
    play today (next r)

def environment : IO Environment := do
  match ← readText "/proc/self/environ" with
  | .error _ => return []
  | .ok s =>
    let entries := s.toList.splitOn '\x00'
    return entries.filterMap fun cs => Text.splitFirst '=' (String.ofList cs)

def now : IO Nat := do
  let t ← Std.Time.Timestamp.now
  return t.toNanosecondsSinceUnixEpoch.val.toNat

/-- Random identifiers: the digits that tell how an identifier was made are fixed, and the rest
counts on from a random start. -/
def randomIds : IO IdSupply := do
  let high ← IO.rand 0 0xFFFFFFFFFFFF
  let middle ← IO.rand 0 0xFFF
  let low ← IO.rand 0 0x1FFFFFFFFFFFFFFF
  return .fresh fun n =>
    .ofNat ((high <<< 80) + (4 <<< 76) + (middle <<< 64) + (2 <<< 62) +
      (low + n) % 0x4000000000000000)

def print (times : Times) : Output → IO Unit
  | .nothing => pure ()
  | .text s => IO.print s
  | .answer a => IO.println (a.data (some times)).indented

def run (args : List String) : IO UInt32 := do
  let started ← now
  match CivilDate.ofEpochDay? (started / (86400 * Span.nanosPerSec)) with
  | none => return 1
  | some today =>
    let ending ← play today (Call.dialogue args (← environment) today (← randomIds))
    print ⟨Moment.text started, Moment.text (← now)⟩ ending.output
    IO.eprint ending.complaint
    return UInt32.ofNat ending.code

end Dossier.Main

def main (args : List String) : IO UInt32 := Dossier.Main.run args
