import JarSurvey.Graph.Jar
import JarSurvey.Text.Json.Reader
import JarSurvey.Text.Utf8

/-!
# Graph files

Groups of classes are kept in files, as a JSON array of records with a name and classes; a class is a
record with a name and references.
-/

namespace JarSurvey.GraphFile

open Text.Json

/-- What goes wrong with a graph file. -/
inductive Error where
  | unreadable (path : String) (cause : FileError)
  /-- The file is no text. -/
  | notText (path : String)
  | malformed (path : String)
  | unwritable (path : String) (cause : FileError)
  deriving DecidableEq, Repr

/-- The sentence that describes the error. -/
def Error.message : Error → String
  | unreadable path _ => s!"failed to read graph file: {path}"
  | notText path => s!"failed to read graph file: {path}"
  | malformed path => s!"failed to parse graph file: {path}"
  | unwritable path _ => s!"failed to write graph file: {path}"

/-- The sentence that describes what lies behind the error, where something does. -/
def Error.cause? : Error → Option String
  | unreadable _ cause => some cause.message
  | notText _ => some "stream did not contain valid UTF-8"
  | malformed _ => none
  | unwritable _ cause => some cause.message

/-! ## Groups as values -/

/-- A class as a value. -/
def ofClass (record : ClassRecord) : Value :=
  .object [("name", .text record.name), ("references", .texts record.references)]

/-- A group as a value. -/
def ofJar (jar : Jar) : Value :=
  .object [("name", .text jar.name), ("classes", .array (jar.classes.map ofClass))]

/-- Groups as a value. -/
def ofJars (jars : List Jar) : Value :=
  .array (jars.map ofJar)

/-! ## Reading -/

/-- Reads a class of at most `bound` characters. -/
def classReader (bound : Nat) : Reader ClassRecord := fun cs =>
  (Reader.record bound "name" "references" Reader.text (Reader.list bound Reader.text) cs).map
    fun ((name, references), rest) => (⟨name, references⟩, rest)

/-- Reads a group of at most `bound` characters. -/
def jarReader (bound : Nat) : Reader Jar := fun cs =>
  (Reader.record bound "name" "classes" Reader.text (Reader.list bound (classReader bound)) cs).map
    fun ((name, classes), rest) => (⟨name, classes⟩, rest)

/-- The groups that a text lists. -/
def parse (text : String) : Option (List Jar) :=
  Reader.run (fun bound => Reader.list bound (jarReader bound)) text

/-! ## Files -/

/-- The groups in the file that a path leads to. -/
def load (tree : FileTree) (path : String) : Except Error (List Jar) :=
  match tree.contentOf path with
  | .error cause => .error (.unreadable path cause)
  | .ok content =>
    match Text.Utf8.decode content.toList with
    | .error _ => .error (.notText path)
    | .ok text =>
      match parse text with
      | some jars => .ok jars
      | none => .error (.malformed path)

/-- Writes groups to the file that a path leads to. -/
def save (tree : FileTree) (path : String) (jars : List Jar) (now : Int) : Except Error FileTree :=
  match tree.write path (ofJars jars).pretty.toUTF8 now with
  | .error cause => .error (.unwritable path cause)
  | .ok tree => .ok tree

end JarSurvey.GraphFile
