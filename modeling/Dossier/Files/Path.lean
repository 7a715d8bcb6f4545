/-!
Paths as texts. A path is names with slashes between them; it is absolute if a slash stands in
front. Names that are empty or a single dot lead nowhere, and two dots lead back up.
-/

namespace Dossier.Path

/-- The names of a path, the empty ones between slashes included. -/
def names (cs : List Char) : List (List Char) := cs.splitOn '/'

def ofNames (ns : List (List Char)) : List Char := ['/'].intercalate ns

def isAbsolute (path : String) : Bool := path.toList.head? == some '/'

def isIdle (name : List Char) : Bool := name == [] || name == ['.']

/-- Leaves out the idle names at the end. -/
def dropIdle (ns : List (List Char)) : List (List Char) := (ns.reverse.dropWhile isIdle).reverse

/-- The first character of a path if it counts on its own: a slash, or a dot that is a name. -/
def start : List Char → List Char × List Char
  | '/' :: r => (['/'], r)
  | ['.'] => (['.'], [])
  | '.' :: '/' :: r => (['.'], '/' :: r)
  | cs => ([], cs)

/-- The path without its last name. Neither the empty path nor the root has one. -/
def parent? (path : String) : Option String :=
  let (first, rest) := start path.toList
  match dropIdle (names rest) with
  | [] => if first == ['.'] then some "" else none
  | ns => some (String.ofList (first ++ ofNames (dropIdle ns.dropLast)))

/-- A path as seen from `base`: an absolute path stays as it is. -/
def join (base path : String) : String :=
  if isAbsolute path || base.isEmpty then path
  else if base.toList.getLast? == some '/' then base ++ path
  else base ++ "/" ++ path

end Dossier.Path
