/-!
What can be wrong with a schema: with a namespace, a local name, a key, a category, or with the
moment at which an attribute is declared.
-/

namespace Dossier

inductive SchemaError where
  | duplicateNamespace (space : String)
  | duplicateLocalName (space localName : String)
  | closed
  | badNamespace (given : String)
  | badLocalName (space localName : String)
  | malformedKey (given : String)
  | unknownCategory (given : String)
  | secondPrimary (existing rejected : String)
deriving DecidableEq

def SchemaError.message : SchemaError → String
  | duplicateNamespace space => s!"Namespace already registered: {space}"
  | duplicateLocalName space localName =>
    s!"Attribute '{localName}' declared twice by collector '{space}'"
  | closed => "Attribute registry is sealed; no further declarations accepted"
  | badNamespace given =>
    s!"Invalid namespace '{given}': only ASCII letters and digits are allowed"
  | badLocalName space localName =>
    s!"Invalid attribute name '{localName}' in namespace '{space}'"
  | malformedKey given => s!"Malformed attribute key: {given}"
  | unknownCategory given => s!"Unknown attribute category: {given}"
  | secondPrimary existing rejected =>
    s!"Primary collector '{existing}' already registered; rejected '{rejected}'"

end Dossier
