import Dossier.Files.Tree
import Dossier.Program.Answer

/-!
The program as a dialogue with its surroundings: it asks for files and for a place for its logs,
goes on by what it is answered, and ends with a code and with what it prints. A disk can lead the
other side of the dialogue.
-/

namespace Dossier

inductive Output where
  | nothing
  | text (s : String)
  | answer (a : Answer)

/-- How the program ends: its exit code, what it prints, and what it complains of. -/
structure Ending where
  code : Nat
  output : Output
  complaint : String

inductive Dialogue where
  | read (path : String) (next : Except FileError String → Dialogue)
  | openLogs (directory : String) (next : Except FileError Unit → Dialogue)
  | finish (e : Ending)

namespace Dialogue

/-- Asks for files one after the other, and goes on with a reader that knows them. -/
def readAll (known : List (String × Except FileError String)) (next : ReadFile → Dialogue) :
    List String → Dialogue
  | [] => next fun path => ((known.find? (·.1 == path)).map (·.2)).getD (.error .notFound)
  | path :: paths => .read path fun r => readAll (known ++ [(path, r)]) next paths

/-- Makes the directory for the logs of a day and opens a log in it. -/
def openLogsOn (today : CivilDate) (d : Disk) (directory : String) : Except FileError Disk :=
  (d.makeDirectories directory (directory.length + 1)).map fun d =>
    d.writeFile directory ("profiler.log." ++ today.text) ""

/-- The dialogue with a disk, and the disk that is left behind. -/
def playOn (today : CivilDate) (d : Disk) : Dialogue → Ending × Disk
  | finish e => (e, d)
  | read path next => playOn today d (next (d.read path))
  | openLogs directory next =>
    match openLogsOn today d directory with
    | .ok d => playOn today d (next (.ok ()))
    | .error e => playOn today d (next (.error e))

end Dialogue

end Dossier
