/-!
Reliabilities: how far a fact may be relied on, from nothing (zero) to certainty (one).
-/

namespace Dossier

/-- Whether a number is a reliability. What is no number is none, and both zeros are. -/
def isReliability (x : Float) : Bool := 0.0 ≤ x && x ≤ 1.0

structure Reliability where
  value : Float
  inRange : isReliability value = true
deriving DecidableEq

namespace Reliability

def ofFloat? (x : Float) : Option Reliability :=
  if h : isReliability x = true then some ⟨x, h⟩ else none

theorem ofFloat?_eq_some_iff {x : Float} {r : Reliability} : ofFloat? x = some r ↔ r.value = x := by
  constructor
  · intro h
    unfold ofFloat? at h
    split at h
    · obtain rfl := Option.some.inj h
      rfl
    · cases h
  · rintro rfl
    exact dif_pos r.inRange

@[simp] theorem ofFloat?_value (r : Reliability) : ofFloat? r.value = some r :=
  ofFloat?_eq_some_iff.mpr rfl

def certain : Reliability := ⟨1.0, by decide +kernel⟩

/-- Whether a reliability reaches a threshold. -/
def reaches (r threshold : Reliability) : Bool := threshold.value ≤ r.value

end Reliability

end Dossier
