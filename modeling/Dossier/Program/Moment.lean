import Dossier.CivilDate
import Dossier.Span

/-!
Moments as texts: the day, the time of day in universal time, and as many digits of the second as
are needed, in groups of three.
-/

namespace Dossier.Moment

/-- A fraction of a second given in nanoseconds. -/
def fractionText (nanos : Nat) : String :=
  if nanos == 0 then ""
  else if nanos % 1000000 == 0 then "." ++ CivilDate.padded 3 (nanos / 1000000)
  else if nanos % 1000 == 0 then "." ++ CivilDate.padded 6 (nanos / 1000)
  else "." ++ CivilDate.padded 9 nanos

def timeText (secs : Nat) : String :=
  CivilDate.padded 2 (secs / 3600) ++ ":" ++ CivilDate.padded 2 (secs / 60 % 60) ++ ":" ++
    CivilDate.padded 2 (secs % 60)

/-- The moment that lies some nanoseconds behind the start of 1970. -/
def text (nanos : Nat) : String :=
  let secs := nanos / Span.nanosPerSec
  let day := (CivilDate.ofEpochDay? (secs / 86400)).map CivilDate.text
  day.getD "" ++ "T" ++ timeText (secs % 86400) ++ fractionText (nanos % Span.nanosPerSec) ++ "Z"

end Dossier.Moment
