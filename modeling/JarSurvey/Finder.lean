import JarSurvey.FileTree
import JarSurvey.Glob.Nesting
import JarSurvey.Text.Blank

/-!
# Finding archives

`Finder.find` lists the archives among files and below directories.  A `Filter` narrows what is found below
a directory: its patterns make `Rule`s, and of the rules that match a path the last one decides.  Where
there are rules that include, a file that no rule matches is left out.  A directory that is excluded is
not entered, nor is one whose path is too long.

Rules see paths from the directory on (`Finder.seenFrom`).
-/

namespace JarSurvey

/-- Patterns for archives to include and to exclude. -/
structure Filter where
  included : List String
  excluded : List String
  deriving DecidableEq, Repr

/-- What goes wrong in finding archives. -/
inductive FinderError where
  | missingInput (path : String)
  | badInclude (pattern : String)
  | badExclude (pattern : String)
  /-- A pattern nests too deep. -/
  | unusableFilter
  deriving DecidableEq, Repr

/-- The sentence that describes the error. -/
def FinderError.message : FinderError → String
  | missingInput path => s!"input does not exist: {path}"
  | badInclude pattern => s!"invalid include pattern: {pattern}"
  | badExclude pattern => s!"invalid exclude pattern: {pattern}"
  | unusableFilter => "failed to build archive filter"

/-! ## Rules -/

/-- A pattern with what it means for the paths that it accepts. -/
structure Rule where
  pattern : List Glob.Token
  excludes : Bool
  directoriesOnly : Bool

namespace Rule

/-- The line without blanks at its end, unless the last of them is escaped. -/
def trimLine (line : List Char) : List Char :=
  match line.reverse with
  | ' ' :: '\\' :: _ => line
  | _ => Text.Blank.trimEnd line

/-- The pattern without a slash at its end, which may be escaped, and whether there was one. -/
def cutSlash (pattern : List Char) : List Char × Bool :=
  match pattern.reverse with
  | '/' :: '\\' :: rest => (rest.reverse, true)
  | '/' :: rest => (rest.reverse, true)
  | _ => (pattern, false)

/-- The pattern for whole paths: one without a slash is for names at any depth, and one that ends in two
stars is for what is inside of a directory. -/
def forPaths (anchored : Bool) (pattern : List Char) : List Char :=
  let deep :=
    if anchored ∨ '/' ∈ pattern ∨ pattern = ['*', '*'] then pattern else '*' :: '*' :: '/' :: pattern
  match deep.reverse with
  | '*' :: '*' :: '/' :: _ => deep ++ ['/', '*']
  | _ => deep

/-- The rule of a pattern with a slash at its front or not, without the marks in front of it. -/
def ofPattern (excludes anchored : Bool) (pattern : List Char) : Option Rule := do
  let (body, directoriesOnly) := cutSlash pattern
  let tokens ← Glob.parse (forPaths anchored body)
  return ⟨tokens, excludes, directoriesOnly⟩

/-- The rules of a line: none if it is blank or a remark, and else one.  An exclamation mark in front makes
it exclude, and a slash in front keeps it to the top. -/
def ofLine (line : List Char) : Option (List Rule) :=
  if line.head? = some '#' then some []
  else
    match trimLine line with
    | [] => some []
    | '\\' :: '!' :: rest => (ofPattern false false ('!' :: rest)).map ([·])
    | '\\' :: '#' :: rest => (ofPattern false false ('#' :: rest)).map ([·])
    | '!' :: '/' :: rest => (ofPattern true true rest).map ([·])
    | '!' :: rest => (ofPattern true false rest).map ([·])
    | '/' :: rest => (ofPattern false true rest).map ([·])
    | rest => (ofPattern false false rest).map ([·])

end Rule

/-- The rules of patterns, where `error` says what a bad one is. -/
def rulesOf (error : String → FinderError) (mark : List Char) :
    List String → Except FinderError (List Rule)
  | [] => .ok []
  | pattern :: later =>
    match Rule.ofLine (mark ++ pattern.toList) with
    | none => .error (error pattern)
    | some first => do
      let rest ← rulesOf error mark later
      return first ++ rest

/-- The rules of a filter, those that include first. -/
def Filter.rules (filter : Filter) : Except FinderError (List Rule) := do
  let included ← rulesOf .badInclude [] filter.included
  let excluded ← rulesOf .badExclude ['!'] filter.excluded
  let rules := included ++ excluded
  if rules.any fun rule => Glob.isTooDeep rule.pattern then throw .unusableFilter
  return rules

/-- Whether rules leave out a path. -/
def leavesOut (rules : List Rule) (path : String) (isDirectory : Bool) : Bool :=
  let matching := rules.filter fun rule =>
    (!rule.directoriesOnly || isDirectory) && Glob.accepts rule.pattern path
  match matching.getLast? with
  | some rule => rule.excludes
  | none => !isDirectory && rules.any fun rule => !rule.excludes

namespace Finder

/-- A text without `start` at its front, if it begins with it. -/
def dropStart? (start text : List Char) : Option (List Char) :=
  if start.isPrefixOf text then some (text.drop start.length) else none

/-- A path without a dot and a slash at its front. -/
def dropDot (path : List Char) : List Char :=
  (dropStart? ['.', '/'] path).getD path

/-- A path below a directory as rules see it: what is left of it behind the path of the directory.

A dot and a slash in front are dropped first, once from the directory and twice from the path.  Where the
path of the directory begins with several of them, the rest of it is not found in the path then, and the
path stays as it is. -/
def seenFrom (directory path : String) : String :=
  let top := dropDot directory.toList
  let seen := dropDot (dropDot path.toList)
  let isTop := Path.components (String.ofList top) = [.current]
  if isTop ∨ '/' ∉ seen then String.ofList seen
  else
    match dropStart? top seen with
    | some rest => String.ofList ((dropStart? ['/'] rest).getD rest)
    | none => String.ofList seen

/-- Whether the directory with a path can be entered, on the way from the directory `top` down. -/
def isEntered (rules : List Rule) (top path : String) : Bool :=
  path.utf8ByteSize < FileTree.maxPath && !leavesOut rules (seenFrom top path) true

/-- The path that names lead to from a directory, if rules reach it: no directory on the way is left out,
nor the file itself. -/
def reach? (rules : List Rule) (top : String) : String → List String → Option String
  | path, [] => if leavesOut rules (seenFrom top path) false then none else some path
  | path, name :: later =>
    if path = top ∨ isEntered rules top path then reach? rules top (Path.join path name) later
    else none

/-- The names that lead from a place to another below it. -/
def namesBelow? (place other : Place) : Option (List String) :=
  if place.isPrefixOf other then some (other.drop place.length) else none

/-- The archives below a directory, which is at `place`. -/
def below (tree : FileTree) (rules : List Rule) (directory : String) (place : Place) : List String :=
  tree.nodes.filterMap fun (other, node) =>
    match node, namesBelow? place other with
    | .file _ _, some names => (reach? rules directory directory names).filter Path.isArchiveName
    | _, _ => none

/-- Whether a path does not come after another. -/
def inOrder (path other : String) : Bool :=
  Path.compare path other != .gt

/-- The archives in what a path leads to, in order.  A path that is a single hyphen leads to none. -/
def search (tree : FileTree) (filter : Filter) (path : String) :
    Except FinderError (List String) := do
  match tree.find path, tree.resolve path with
  | .ok node, .ok place =>
    let rules ← filter.rules
    if Path.components path = [.normal "-"] then return []
    else
      match node with
      | .file _ _ => return if Path.isArchiveName path then [path] else []
      | .directory => return (below tree rules path place).mergeSort inOrder
  | _, _ => throw (.missingInput path)

/-- The archives of all inputs, in the order of the inputs; a file is taken as it is. -/
def collect (tree : FileTree) (filter : Filter) : List String → Except FinderError (List String)
  | [] => .ok []
  | input :: later => do
    let found ← if tree.isFile input then pure [input] else search tree filter input
    let rest ← collect tree filter later
    return found ++ rest

/-- Leaves out each path that equals the one before it. -/
def dropRepeated : List String → List String
  | [] => []
  | path :: later =>
    path :: (dropRepeated later).dropWhile fun other => Path.compare path other == .eq

/-- The archives of all inputs, in order and each once. -/
def find (tree : FileTree) (filter : Filter) (inputs : List String) :
    Except FinderError (List String) := do
  return dropRepeated ((← collect tree filter inputs).mergeSort inOrder)

end Finder

end JarSurvey
