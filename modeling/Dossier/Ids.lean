import Dossier.Uuid

/-!
A supply of fresh identifiers. The supply is handed on by whoever draws from it, so no identifier
is drawn twice unless the supply repeats itself.
-/

namespace Dossier

/-- What is drawn is `name 0`, `name 1` and so on. -/
structure IdSupply where
  name : Nat → Uuid
  drawn : Nat

namespace IdSupply

def fresh (name : Nat → Uuid) : IdSupply := ⟨name, 0⟩

def draw (s : IdSupply) : Uuid × IdSupply := (s.name s.drawn, { s with drawn := s.drawn + 1 })

/-- The identifier that is there already, or else a fresh one. -/
def complete (s : IdSupply) : Option Uuid → Uuid × IdSupply
  | some id => (id, s)
  | none => s.draw

end IdSupply

end Dossier
