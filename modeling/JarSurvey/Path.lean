import JarSurvey.Text.Affix

/-!
# Paths

A path is a text whose parts are divided by slashes.  What counts is the list of its *components*
(`Path.components`): repeated slashes and inner dots leave no component, two dots are a component that
is never resolved, and a slash or a dot at the very beginning is a component of its own.

* `Path.fileName?`, `Path.extension?` : the name at the end, and what follows its last dot;
* `Path.relativeTo?` : what is left of a path below a directory;
* `Path.join` : a path inside of a directory;
* `Path.compare` : the order of paths, component by component.
-/

namespace JarSurvey.Path

/-- A component of a path. -/
inductive Component where
  | root
  | current
  | parent
  | normal (name : String)
  deriving DecidableEq, Repr

/-! ## Components -/

/-- The first part of a text, up to a slash, and what follows the slash, if there is one. -/
def splitPart : List Char → List Char × Option (List Char)
  | [] => ([], none)
  | c :: rest =>
    if c = '/' then ([], some rest)
    else
      let (part, later) := splitPart rest
      (c :: part, later)

/-- The parts of a text between its slashes. -/
def parts : List Char → List (List Char)
  | [] => [[]]
  | c :: rest =>
    if c = '/' then [] :: parts rest
    else
      match parts rest with
      | part :: later => (c :: part) :: later
      | [] => [[c]]

/-- The component that a part of a path stands for, if it is not at the very beginning. -/
def component? (part : List Char) : Option Component :=
  if part = [] ∨ part = ['.'] then none
  else if part = ['.', '.'] then some .parent
  else some (.normal (String.ofList part))

/-- The components of a path. -/
def components (path : String) : List Component :=
  match parts path.toList with
  | [] => []
  | [] :: later => (if later.isEmpty then [] else [.root]) ++ later.filterMap component?
  | ['.'] :: later => .current :: later.filterMap component?
  | first :: later => (first :: later).filterMap component?

/-- The name at the end of a path; a path that ends in two dots has none. -/
def fileName? (path : String) : Option String :=
  match (components path).getLast? with
  | some (.normal name) => some name
  | _ => none

/-- What follows the last dot of the name at the end of a path.  A dot at the beginning of the name does
not count. -/
def extension? (path : String) : Option String := do
  let name ← fileName? path
  let reversed := name.toList.reverse
  let tail := reversed.takeWhile (· ≠ '.')
  let front := (reversed.dropWhile (· ≠ '.')).drop 1
  if front.isEmpty then none else some (String.ofList tail.reverse)

/-- The place of the kind of a component in the order of components. -/
def Component.rank : Component → Nat
  | .root => 0
  | .current => 1
  | .parent => 2
  | .normal _ => 3

/-- The order of components: by kind, then by name. -/
def Component.compare : Component → Component → Ordering
  | .normal a, .normal b => Ord.compare a b
  | a, b => Ord.compare a.rank b.rank

/-- The order of lists of components, with shorter lists first. -/
def compareComponents : List Component → List Component → Ordering
  | [], [] => .eq
  | [], _ :: _ => .lt
  | _ :: _, [] => .gt
  | a :: as, b :: bs => (a.compare b).then (compareComponents as bs)

/-- The order of paths: component by component. -/
def compare (path other : String) : Ordering :=
  compareComponents (components path) (components other)

/-! ## Paths below a directory -/

/-- The text without the parts at its front that are no component, and the slashes behind them. -/
def trimFront (text : List Char) : List Char :=
  match text with
  | '/' :: rest => trimFront rest
  | ['.'] => []
  | '.' :: '/' :: rest => trimFront rest
  | text => text

/-- The text without the parts at its end that are no component, and the slashes before them; `keep`
characters at the front stay. -/
def trimBack (keep : Nat) (text : List Char) : List Char :=
  text.take keep ++ (trimReversed (text.drop keep).reverse).reverse
where
  /-- Trims a text that is given in reverse. -/
  trimReversed : List Char → List Char
    | '/' :: rest => trimReversed rest
    | ['.'] => []
    | '.' :: '/' :: rest => trimReversed rest
    | text => text

/-- How many characters at the front of a path make up a component that only the beginning can be. -/
def beginning (path : List Char) : Nat :=
  match path with
  | '/' :: _ => 1
  | ['.'] => 1
  | '.' :: '/' :: _ => 1
  | _ => 0

/-- What is left of a text behind `wanted`, which its components have to begin with. -/
def dropBody : List Component → List Char → Option (List Char)
  | [], text => some text
  | wanted :: later, text => do
    let (part, rest) := splitPart (trimFront text)
    if component? part = some wanted then dropBody later (rest.getD []) else none

/-- What is left of `path` below `directory`: the text behind the components of the directory, with
nothing in front or at the end that is no component.  Below the empty path a path keeps its front. -/
def relativeTo? (directory path : String) : Option String :=
  let text := path.toList
  match components directory, beginning text with
  | [], kept => some (String.ofList (trimBack kept text))
  | .root :: later, 1 => if text.head? = some '/' then below later (text.drop 1) else none
  | .current :: later, 1 => if text.head? = some '.' then below later (text.drop 1) else none
  | wanted, 0 => below wanted text
  | _, _ => none
where
  /-- The trimmed text behind `wanted`. -/
  below (wanted : List Component) (text : List Char) : Option String :=
    (dropBody wanted text).map fun rest => String.ofList (trimBack 0 (trimFront rest))

/-- A path inside of a directory; an absolute path stays as it is. -/
def join (directory path : String) : String :=
  if Text.startsWith path "/" then path
  else if directory = "" ∨ Text.endsWith directory "/" then directory ++ path
  else directory ++ "/" ++ path

/-! ## Names of archives -/

/-- The extensions of archives. -/
def archiveExtensions : List String := ["jar", "war", "ear", "rar"]

/-- Whether a name is that of an archive, by its extension in any case. -/
def isArchiveName (name : String) : Bool :=
  match extension? name with
  | some extension => archiveExtensions.contains (extension.map Char.toLower)
  | none => false

end JarSurvey.Path
