import JarSurvey.Report.Error
import JarSurvey.Report.Line
import JarSurvey.Text.Utf8

/-!
# Reading reports

`Reading.ofSource` reads the bytes of a report.  The heading decides the layout; after it each line is read
on its own.  A line that cannot be read is kept with its number and the reason, and reading goes on.  Blank
lines and the summary line give no row.

A source may fail at its end; then what follows its last newline is lost.
-/

namespace JarSurvey.Report

/-- The bytes of a report, and the reason why they could not be read to the end, if they could not. -/
structure Source where
  bytes : List UInt8
  failure : Option String

/-- A line that cannot be read. -/
structure MalformedLine where
  /-- Counted from one, with the heading. -/
  number : Nat
  text : String
  reason : String
  deriving DecidableEq, Repr

/-- The bytes of a newline. -/
def newline : UInt8 := 10

/-- Cuts bytes behind each newline, after the bytes `seen` of the current line in reverse; the last piece has
no newline. -/
def cutLines (seen : List UInt8) : List UInt8 → List (List UInt8) × List UInt8
  | [] => ([], seen.reverse)
  | byte :: rest =>
    if byte = newline then
      let (lines, last) := cutLines [] rest
      ((byte :: seen).reverse :: lines, last)
    else cutLines (byte :: seen) rest

/-- The text without line ends at its end. -/
def trimLineEnd (text : String) : String :=
  String.ofList (text.toList.reverse.dropWhile fun c => c = '\n' ∨ c = '\r').reverse

/-- The lines of a source. -/
def Source.lines (source : Source) : List (List UInt8) :=
  let (lines, last) := cutLines [] source.bytes
  if source.failure.isSome || last.isEmpty then lines else lines ++ [last]

/-- What a line of bytes comes to: a row, nothing, or a text with the reason why it cannot be read. -/
def readLine (schema : Schema) (bytes : List UInt8) : Except (String × String) (Option Row) :=
  match Text.Utf8.decode bytes with
  | .error fault =>
    .error (trimLineEnd (Text.Utf8.decodeLossy bytes), s!"not valid UTF-8: {fault.message}")
  | .ok text =>
    let line := trimLineEnd text
    if line = "" then .ok none
    else
      match parseLine schema line with
      | .ok row => .ok row
      | .error error => .error (line, error.message)

/-- What reading a report comes to. -/
structure Reading where
  schema : Schema
  rows : List Row
  malformed : List MalformedLine
  failure : Option Error

namespace Reading

/-- Reads the lines from number `number` on. -/
def readLines (schema : Schema) (number : Nat) :
    List (List UInt8) → List Row × List MalformedLine
  | [] => ([], [])
  | bytes :: later =>
    let (rows, malformed) := readLines schema (number + 1) later
    match readLine schema bytes with
    | .ok (some row) => (row :: rows, malformed)
    | .ok none => (rows, malformed)
    | .error (text, reason) => (rows, ⟨number, text, reason⟩ :: malformed)

/-- Reads a report; it fails where the heading cannot be read or is not known. -/
def ofSource (source : Source) : Except Error Reading :=
  match source.lines with
  | [] => .error (source.failure.elim .missingHeading .io)
  | heading :: lines => do
    let schema ←
      (Schema.detect (trimLineEnd (Text.Utf8.decodeLossy heading))).mapError .unsupportedVersion
    let (rows, malformed) := readLines schema 2 lines
    return ⟨schema, rows, malformed, source.failure.map .io⟩

/-- The total of the rows. -/
def summary (reading : Reading) : Summary :=
  Summary.ofRows reading.rows

end Reading

end JarSurvey.Report
