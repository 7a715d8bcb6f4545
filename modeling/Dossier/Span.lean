/-!
Lengths of time, in whole seconds and nanoseconds. A length is written in the largest unit in
which it is at least one, with the digits after the point that it needs and no more.
-/

namespace Dossier

structure Span where
  secs : Nat
  nanos : Nat
  nanos_lt : nanos < 1000000000 := by omega
deriving DecidableEq

namespace Span

def nanosPerSec : Nat := 1000000000

def nanosPerMilli : Nat := 1000000

/-- Nanoseconds beyond a second are carried over. -/
def ofNanos (secs nanos : Nat) : Span :=
  ⟨secs + nanos / nanosPerSec, nanos % nanosPerSec, Nat.mod_lt _ (by decide)⟩

def ofSecs (secs : Nat) : Span := ⟨secs, 0, by decide⟩

def ofMillis (ms : Nat) : Span := ofNanos (ms / 1000) (ms % 1000 * nanosPerMilli)

def toNanos (s : Span) : Nat := s.secs * nanosPerSec + s.nanos

/-- The digits of `part` as a fraction of `10 ^ places`, without the zeros at the end. -/
def fractionDigits (places part : Nat) : String :=
  let digits := (toString part).toList
  let padded := List.replicate (places - digits.length) '0' ++ digits
  String.ofList (padded.reverse.dropWhile (· == '0')).reverse

/-- A number with a fraction of `10 ^ places`, and its unit. -/
def inUnit (whole places part : Nat) (unit : String) : String :=
  let fraction := if part == 0 then "" else "." ++ fractionDigits places part
  toString whole ++ fraction ++ unit

def text (s : Span) : String :=
  if 0 < s.secs then inUnit s.secs 9 s.nanos "s"
  else if 1000000 ≤ s.nanos then inUnit (s.nanos / 1000000) 6 (s.nanos % 1000000) "ms"
  else if 1000 ≤ s.nanos then inUnit (s.nanos / 1000) 3 (s.nanos % 1000) "µs"
  else inUnit s.nanos 0 0 "ns"

end Span

end Dossier
