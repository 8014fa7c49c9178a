import JarSurvey.ClassFile.References
import JarSurvey.Digest.Sha1
import JarSurvey.FileTree
import JarSurvey.Usage
import JarSurvey.Warning
import JarSurvey.Zip.Directory

/-!
# Archives

An archive is a zip file of classes, and of further archives.  `Archive.walk` goes through its entries
and collects their `Contents`: the classes that can be read, in order, and the newest time of an entry.

A class that cannot be read is passed over with a warning.  A nested archive counts as a whole or not at
all: if any of its own entries cannot be opened or unpacked, it is passed over with a warning.  The same
failure in the archive itself makes the walk fail.

* `Archive.scan` : the record of an archive and its usage of namespaces;
* `Archive.classes` : the record of an archive and the references of each class.
-/

namespace JarSurvey

/-- What is known of an archive. -/
structure ArchiveRecord where
  path : String
  /-- The SHA-1 of the file, in hexadecimal. -/
  sha1 : String
  /-- The time of the last change of the file, in milliseconds. -/
  lastModified : Int
  /-- The newest time of an entry, in milliseconds, or zero. -/
  internalTimestamp : Int
  size : Int
  classCount : Int
  /-- The major versions of the classes, ascending and each once. -/
  bytecodeVersions : List UInt16
  deriving DecidableEq, Repr

/-- A class with the classes it mentions. -/
structure ClassRecord where
  name : String
  references : List String
  deriving DecidableEq, Repr

/-- Why an archive cannot be read. -/
inductive ArchiveError where
  | unopenable (path : String) (cause : FileError)
  /-- What the path leads to is no file. -/
  | unmappable (path : String)
  /-- The file has no directory of entries, or a damaged one. -/
  | damagedStructure (path : String)
  | unreadableEntry (index : Nat) (label : String)
  | damagedContent (name label : String)
  /-- The reader gave up. -/
  | abandoned
  deriving DecidableEq, Repr

/-- The sentence that describes the error. -/
def ArchiveError.message : ArchiveError → String
  | unopenable path _ => s!"failed to open archive: {path}"
  | unmappable path => s!"failed to mmap archive: {path}"
  | damagedStructure path => s!"failed to read zip structure: {path}"
  | unreadableEntry index label => s!"failed to read entry {index} of {label}"
  | damagedContent name label => s!"failed to inflate {name} in {label}"
  | abandoned => "scanner panicked"

/-- A result that comes with the warnings given on the way to it, also on the way to a failure. -/
structure Traced (α : Type) where
  warnings : List Warning
  result : Except ArchiveError α

namespace Traced

/-- A failure without warnings. -/
def fail {α : Type} (error : ArchiveError) : Traced α := ⟨[], .error error⟩

/-- A warning. -/
def warn (warning : Warning) : Traced Unit := ⟨[warning], .ok ()⟩

instance : Monad Traced where
  pure x := ⟨[], .ok x⟩
  bind x f :=
    match x.result with
    | .ok value =>
      let y := f value
      ⟨x.warnings ++ y.warnings, y.result⟩
    | .error error => ⟨x.warnings, .error error⟩

end Traced

/-- What is collected from the entries of an archive. -/
structure Contents where
  newest : Int
  classes : List ClassFile.Scan

namespace Contents

/-- Nothing collected. -/
def empty : Contents := ⟨0, []⟩

/-- The time of an entry, where it has one. -/
def ofTime (time : Option Int) : Contents := ⟨max 0 (time.getD 0), []⟩

/-- Both contents, one after the other. -/
def append (contents later : Contents) : Contents :=
  ⟨max contents.newest later.newest, contents.classes ++ later.classes⟩

/-- A version among ascending versions. -/
def insertVersion (version : UInt16) : List UInt16 → List UInt16
  | [] => [version]
  | v :: rest =>
    if version = v then v :: rest
    else if version < v then version :: v :: rest
    else v :: insertVersion version rest

/-- The major versions of the classes, ascending and each once. -/
def versions (contents : Contents) : List UInt16 :=
  contents.classes.foldl (fun versions scan => insertVersion scan.major versions) []

end Contents

namespace Archive

/-- How many archives an archive may be inside of. -/
def maxNesting : Nat := 16

/-- What a class entry contributes. -/
def classContents (label : String) (entry : Zip.Entry) : Traced Contents :=
  match entry.content with
  | none => .fail (.damagedContent entry.name label)
  | some bytes =>
    match ClassFile.scan bytes.toList with
    | .ok scan => pure ⟨0, [scan]⟩
    | .error error => do
      Traced.warn (.unparseableClass label entry.name error)
      return Contents.empty

/-- What a nested archive contributes: all that `walk` collects from its entries, or nothing. -/
def nestedContents (walk : String → List Zip.Item → Traced Contents) (label : String)
    (entry : Zip.Entry) : Traced Contents :=
  let nestedLabel := label ++ "!/" ++ entry.name
  match entry.content with
  | none => .fail (.damagedContent entry.name label)
  | some bytes =>
    match Zip.read bytes with
    | none => do
      Traced.warn (.unreadableNested nestedLabel)
      return Contents.empty
    | some items =>
      let inner := walk nestedLabel items
      match inner.result with
      | .ok contents => ⟨inner.warnings, .ok contents⟩
      | .error .abandoned => ⟨inner.warnings, .error .abandoned⟩
      | .error _ => ⟨inner.warnings ++ [.unreadableNested nestedLabel], .ok Contents.empty⟩

/-- What an entry contributes besides its time; nested archives are walked by `walk?`, and passed over
where it is missing. -/
def entryContents (walk? : Option (String → List Zip.Item → Traced Contents)) (label : String)
    (entry : Zip.Entry) : Traced Contents :=
  if entry.isDirectory then pure Contents.empty
  else if Text.endsWith entry.name ".class" then classContents label entry
  else if Path.isArchiveName entry.name then
    match walk? with
    | some walk => nestedContents walk label entry
    | none => do
      Traced.warn (.nestingTooDeep (label ++ "!/" ++ entry.name))
      return Contents.empty
  else pure Contents.empty

/-- Collects the contents of the entries from number `index` on. -/
def walkFrom (walk? : Option (String → List Zip.Item → Traced Contents)) (label : String) :
    Nat → List Zip.Item → Traced Contents
  | _, [] => pure Contents.empty
  | index, .unreadable :: _ => .fail (.unreadableEntry index label)
  | _, .locked :: _ => .fail .abandoned
  | index, .entry entry :: later => do
    let contents ← entryContents walk? label entry
    let rest ← walkFrom walk? label (index + 1) later
    return ((Contents.ofTime entry.time).append contents).append rest

/-- Collects the contents of entries; archives are opened up to `nesting` deep inside. -/
def walk : Nat → String → List Zip.Item → Traced Contents
  | 0, label, items => walkFrom none label 0 items
  | nesting + 1, label, items => walkFrom (some (walk nesting)) label 0 items

/-- Reads the file that a path leads to and walks it as an archive. -/
def read (tree : FileTree) (path : String) : Traced (ArchiveRecord × List ClassFile.Scan) :=
  match tree.find path with
  | .error cause => .fail (.unopenable path cause)
  | .ok .directory => .fail (.unmappable path)
  | .ok (.file bytes modified) =>
    match Zip.read bytes with
    | none => .fail (.damagedStructure path)
    | some items => do
      let contents ← walk maxNesting path items
      return ({
        path
        sha1 := Digest.Sha1.ofBytes bytes
        lastModified := modified
        internalTimestamp := contents.newest
        size := bytes.size
        classCount := contents.classes.length
        bytecodeVersions := contents.versions }, contents.classes)

/-- The record of an archive and how often its classes mention each namespace. -/
def scan (tree : FileTree) (path : String) : Traced (ArchiveRecord × Usage) := do
  let (record, classes) ← read tree path
  return (record, Usage.ofReferences (classes.flatMap (·.references)))

/-- The record of an archive and the references of each of its classes. -/
def classes (tree : FileTree) (path : String) : Traced (ArchiveRecord × List ClassRecord) := do
  let (record, classes) ← read tree path
  return (record, classes.map fun scan => ⟨scan.name, scan.references⟩)

end Archive

end JarSurvey
