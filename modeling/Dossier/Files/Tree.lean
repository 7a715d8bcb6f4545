import Dossier.Files.Path

/-!
Files and directories. A tree holds them by name; a disk is a tree with a place in it from which
paths start that are not absolute. Reading a file and making directories fail as they do on a real
disk: the first name of a path that leads nowhere decides.
-/

namespace Dossier

inductive FileError where
  | notFound
  | alreadyThere
  | notDirectory
  | isDirectory
  | nameTooLong
  | zeroInName
  | notUtf8
  | other (reason : String)
deriving DecidableEq

def FileError.message : FileError → String
  | notFound => "No such file or directory (os error 2)"
  | alreadyThere => "File exists (os error 17)"
  | notDirectory => "Not a directory (os error 20)"
  | isDirectory => "Is a directory (os error 21)"
  | nameTooLong => "File name too long (os error 36)"
  | zeroInName => "file name contained an unexpected NUL byte"
  | notUtf8 => "stream did not contain valid UTF-8"
  | other reason => reason

/-- How files are read: the text of a file by its path. -/
abbrev ReadFile := String → Except FileError String

inductive Tree where
  | file (content : ByteArray)
  | directory (entries : List (String × Tree))

namespace Tree

def emptyDirectory : Tree := directory []

def ofText (s : String) : Tree := file s.toUTF8

def lookup (name : String) : List (String × Tree) → Option Tree
  | [] => none
  | (n, t) :: es => if n = name then some t else lookup name es

def find? : List String → Tree → Option Tree
  | [], t => some t
  | n :: ns, directory es => (lookup n es).bind (find? ns)
  | _ :: _, file _ => none

def assign (name : String) (t : Tree) : List (String × Tree) → List (String × Tree)
  | [] => [(name, t)]
  | (n, u) :: es => if n = name then (n, t) :: es else (n, u) :: assign name t es

/-- Puts something at a place, with the directories that lead to it. Nothing is put below a
file. -/
def insert : Tree → List String → Tree → Tree
  | _, [], new => new
  | directory es, n :: ns, new =>
    directory (assign n (insert ((lookup n es).getD emptyDirectory) ns new) es)
  | file content, _ :: _, _ => file content

end Tree

structure Disk where
  root : Tree
  /-- The names that lead to the place from which paths start. -/
  start : List String

namespace Disk

/-- The longest name, in bytes. -/
def longestName : Nat := 255

/-- Follows one name from a place, which has to be a directory. -/
def enter (d : Disk) (place : List String) (name : String) : Except FileError (List String) :=
  match d.root.find? place with
  | none => .error .notFound
  | some (.file _) => .error .notDirectory
  | some (.directory _) =>
    if name = "" ∨ name = "." then .ok place
    else if name = ".." then .ok place.dropLast
    else if longestName < name.utf8ByteSize then .error .nameTooLong
    else .ok (place ++ [name])

/-- The place that a path leads to. Nothing needs to stand there yet. -/
def locate (d : Disk) (path : String) : Except FileError (List String) :=
  if path.isEmpty then .error .notFound
  else if path.toList.contains '\x00' then .error .zeroInName
  else
    let names := (Path.names path.toList).map String.ofList
    names.foldlM d.enter (if Path.isAbsolute path then [] else d.start)

def read (d : Disk) : ReadFile := fun path =>
  match d.locate path with
  | .error e => .error e
  | .ok place =>
    match d.root.find? place with
    | none => .error .notFound
    | some (.directory _) => .error .isDirectory
    | some (.file content) =>
      match String.fromUTF8? content with
      | some s => .ok s
      | none => .error .notUtf8

def entryCount? (d : Disk) (path : String) : Option Nat :=
  match (d.locate path).toOption.bind fun place => d.root.find? place with
  | some (.directory es) => some es.length
  | _ => none

def isDirectory (d : Disk) (path : String) : Bool := (d.entryCount? path).isSome

def withoutSlashes (path : String) : String :=
  let cs := (path.toList.reverse.dropWhile (· == '/')).reverse
  if cs.isEmpty && Path.isAbsolute path then "/" else String.ofList cs

/-- Makes one directory in a directory that is there. -/
def makeDirectory (d : Disk) (path : String) : Except FileError Disk :=
  match d.locate (withoutSlashes path) with
  | .error e => .error e
  | .ok place =>
    match d.root.find? place with
    | some _ => .error .alreadyThere
    | none => .ok { d with root := d.root.insert place .emptyDirectory }

def ensureDirectory (d : Disk) (path : String) : Except FileError Disk :=
  match d.makeDirectory path with
  | .ok d => .ok d
  | .error e => if d.isDirectory path then .ok d else .error e

/-- Makes a directory and those that lead to it; `depth` bounds their number. -/
def makeDirectories (d : Disk) (path : String) : Nat → Except FileError Disk
  | 0 => .ok d
  | depth + 1 =>
    if path.isEmpty then .ok d
    else
      match d.ensureDirectory path with
      | .ok d => .ok d
      | .error .notFound =>
        match Path.parent? path with
        | none => .error .notFound
        | some parent =>
          match d.makeDirectories parent depth with
          | .error e => .error e
          | .ok d => d.ensureDirectory path
      | .error e => .error e

def writeFile (d : Disk) (directory name content : String) : Disk :=
  match d.locate directory with
  | .ok place => { d with root := d.root.insert (place ++ [name]) (.ofText content) }
  | .error _ => d

end Disk

end Dossier
