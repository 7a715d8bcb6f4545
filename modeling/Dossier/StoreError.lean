import Dossier.Decimal.Layout
import Dossier.Category
import Dossier.Key

/-!
Why an individual is not taken in or an observation is not written.
-/

namespace Dossier

inductive StoreError where
  | unknownAttribute (key : Key)
  | typeMismatch (key : Key) (category : Category) (found : Kind)
  | reliabilityOutOfRange (given : Float)
  | unknownIndividual (id : Uuid)
  | duplicateIndividual (id : Uuid)
  | namespaceViolation (space : String) (key : Key)
  | writerClosed (space : String)
deriving DecidableEq

def StoreError.message : StoreError → String
  | unknownAttribute key => "Attribute " ++ key.text ++ " is not declared in the registry"
  | typeMismatch key category found =>
    "Value of kind " ++ found.name ++ " is not a valid " ++ category.name ++ " for " ++ key.text
  | reliabilityOutOfRange given =>
    "Reliability " ++ Decimal.messageText given ++ " is outside [0, 1]"
  | unknownIndividual id => "Individual " ++ id.text ++ " is not part of this session"
  | duplicateIndividual id => "Individual " ++ id.text ++ " was already added"
  | namespaceViolation space key => "Collector '" ++ space ++ "' may not write " ++ key.text
  | writerClosed space => "Collector '" ++ space ++ "' has finished and may no longer write"

end Dossier
