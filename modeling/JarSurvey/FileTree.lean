import JarSurvey.Path

/-!
# Files

The files a survey works on, as a value: a list of places, each holding a file or a directory.  Places are
lists of names from the top.  `FileTree.resolve` follows a path from a working directory to a place,
through directories that exist.

`FileError` lists what can go wrong on the way.  Names and paths are limited in length: a path that is too
long leads nowhere, and a name that is too long fails where it is looked up, behind directories that
exist.
-/

namespace JarSurvey

/-- What stands at a place. -/
inductive Node where
  /-- A file with its content and the time of its last change, in milliseconds. -/
  | file (content : ByteArray) (modified : Int)
  | directory

/-- A place, by the names that lead to it from the top. -/
abbrev Place := List String

/-- What can go wrong with a path. -/
inductive FileError where
  | notFound
  | notDirectory
  | isDirectory
  /-- A name or a path is too long. -/
  | nameTooLong
  /-- A path holds a null character. -/
  | nullCharacter
  /-- Any other failure, by its description. -/
  | other (description : String)
  deriving DecidableEq, Repr

/-- The sentence that describes the error. -/
def FileError.message : FileError → String
  | notFound => "No such file or directory (os error 2)"
  | notDirectory => "Not a directory (os error 20)"
  | isDirectory => "Is a directory (os error 21)"
  | nameTooLong => "File name too long (os error 36)"
  | nullCharacter => "file name contained an unexpected NUL byte"
  | other description => description

/-- Files and directories, with the directory in which relative paths begin. -/
structure FileTree where
  workingDirectory : Place
  nodes : List (Place × Node)

namespace FileTree

/-- What stands at a place; the top is a directory. -/
def node? (tree : FileTree) (place : Place) : Option Node :=
  if place.isEmpty then some .directory else tree.nodes.lookup place

/-- The greatest length of a name, in bytes. -/
def maxName : Nat := 255

/-- The length that paths have to stay below, in bytes. -/
def maxPath : Nat := 4096

/-- Looks a place up in the directory above it, which has to exist. -/
def lookUp (tree : FileTree) (place : Place) : Except FileError (Option Node) :=
  if place.getLast?.any (maxName < ·.utf8ByteSize) then .error .nameTooLong
  else .ok (tree.node? place)

/-- Fails unless a directory stands at the place. -/
def enter (tree : FileTree) (place : Place) : Except FileError Unit := do
  match ← tree.lookUp place with
  | some .directory => return ()
  | some (.file _ _) => throw .notDirectory
  | none => throw .notFound

/-- Follows the parts of a path from a place on. -/
def follow (tree : FileTree) : Place → List String → Except FileError Place
  | place, [] => .ok place
  | place, part :: later => do
    tree.enter place
    if part = "" ∨ part = "." then tree.follow place later
    else if part = ".." then tree.follow place.dropLast later
    else tree.follow (place ++ [part]) later

/-- Fails unless a text can be a path. -/
def checkPath (path : String) : Except FileError Unit :=
  if path.toList.contains (Char.ofNat 0) then .error .nullCharacter
  else if path = "" then .error .notFound
  else if maxPath ≤ path.utf8ByteSize then .error .nameTooLong
  else .ok ()

/-- The place that a path leads to, whether or not anything stands there. -/
def resolve (tree : FileTree) (path : String) : Except FileError Place := do
  checkPath path
  let start := if Text.startsWith path "/" then [] else tree.workingDirectory
  tree.follow start ((Path.parts path.toList).map String.ofList)

/-- What a path leads to. -/
def find (tree : FileTree) (path : String) : Except FileError Node := do
  match ← tree.lookUp (← tree.resolve path) with
  | some node => return node
  | none => throw .notFound

/-- Whether a path leads to anything. -/
def hasPath (tree : FileTree) (path : String) : Bool :=
  (tree.find path).isOk

/-- Whether a path leads to a file. -/
def isFile (tree : FileTree) (path : String) : Bool :=
  match tree.find path with
  | .ok (.file _ _) => true
  | _ => false

/-- The content of the file that a path leads to. -/
def contentOf (tree : FileTree) (path : String) : Except FileError ByteArray := do
  match ← tree.find path with
  | .file content _ => return content
  | .directory => throw .isDirectory

/-- Adds a directory at a place, with all directories above it. -/
def addDirectory (tree : FileTree) (place : Place) : FileTree :=
  ((List.range (place.length + 1)).drop 1).foldl (fun tree count =>
    match tree.node? (place.take count) with
    | some _ => tree
    | none => { tree with nodes := tree.nodes ++ [(place.take count, .directory)] }) tree

/-- Puts a file at a place, in the place of a file that is there. -/
def putFile (tree : FileTree) (place : Place) (content : ByteArray) (modified : Int) : FileTree :=
  { tree with
    nodes := tree.nodes.filter (fun node => node.1 ≠ place) ++ [(place, .file content modified)] }

/-- The path without the slashes at its end, if there are any. -/
def withoutSlashes? (path : String) : Option String :=
  match path.toList.reverse with
  | '/' :: rest => some (String.ofList (rest.dropWhile (· = '/')).reverse)
  | _ => none

/-- Writes a file at the end of a path, in a directory that exists.  A path that ends in a slash can only
be that of a directory. -/
def write (tree : FileTree) (path : String) (content : ByteArray) (modified : Int) :
    Except FileError FileTree := do
  checkPath path
  match withoutSlashes? path with
  | some "" => throw .isDirectory
  | some front =>
    let place ← tree.resolve front
    tree.enter place.dropLast
    throw .isDirectory
  | none =>
    let place ← tree.resolve path
    tree.enter place.dropLast
    match ← tree.lookUp place with
    | some .directory => throw .isDirectory
    | _ => return tree.putFile place content modified

end FileTree

end JarSurvey
