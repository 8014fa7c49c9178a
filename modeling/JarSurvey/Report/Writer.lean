import JarSurvey.Report.Error
import JarSurvey.Report.Line

/-!
# Writing reports

A `Writer` writes rows to a `Sink` one line at a time, and keeps the total of the rows it has written.  A
sink takes a piece of text as a whole or refuses it as a whole.  A row that is refused, or whose path does
not fit on a line, leaves no trace, and the writer goes on with the next.
-/

namespace JarSurvey.Report

/-- Where pieces of text are written to.  Whether a piece is taken may depend on how many pieces were
offered before and on what was taken of them. -/
structure Sink where
  /-- The pieces taken, in order. -/
  taken : List String
  /-- How many pieces were offered. -/
  offered : Nat
  accepts : Nat → List String → String → Bool
  /-- The reason given for a refusal. -/
  refusal : String

namespace Sink

/-- A sink that takes everything. -/
def unlimited : Sink := ⟨[], 0, fun _ _ _ => true, ""⟩

/-- A sink that takes `room` bytes in all. -/
def limited (room : Nat) (refusal : String) : Sink :=
  ⟨[], 0, fun _ taken piece =>
    taken.foldr (fun line sum => line.utf8ByteSize + sum) piece.utf8ByteSize ≤ room, refusal⟩

/-- Offers a piece: whether it was taken, and the sink after it. -/
def offer (sink : Sink) (piece : String) : Bool × Sink :=
  if sink.accepts sink.offered sink.taken piece then
    (true, { sink with taken := sink.taken ++ [piece], offered := sink.offered + 1 })
  else (false, { sink with offered := sink.offered + 1 })

/-- All that was taken. -/
def text (sink : Sink) : String := String.join sink.taken

end Sink

/-- The path of an archive in a report: relative to the root where it is below it. -/
def relativePath (root : Option String) (path : String) : String :=
  match root with
  | some directory => (Path.relativeTo? directory path).getD path
  | none => path

/-- Whether a path fits on a line. -/
def isWritable (path : String) : Bool :=
  path.toList.all fun c => c ≠ '\t' ∧ c ≠ '\n' ∧ c ≠ '\r'

/-- A report that is being written. -/
structure Writer where
  sink : Sink
  root : Option String
  summary : Summary

namespace Writer

/-- Begins a report with its heading. -/
def start (sink : Sink) (root : Option String) : Except Error Writer :=
  match sink.offer (Schema.current.heading ++ "\n") with
  | (true, sink) => .ok ⟨sink, root, Summary.empty⟩
  | (false, sink) => .error (.io sink.refusal)

/-- Writes a row, if its path fits on a line and the sink takes it. -/
def write (writer : Writer) (row : Row) : Writer × Except Error Unit :=
  let path := relativePath writer.root row.record.path
  if isWritable path then
    match writer.sink.offer (formatLine Schema.current row.record path row.usage) with
    | (true, sink) => ({ writer with sink, summary := writer.summary.add row }, .ok ())
    | (false, sink) => ({ writer with sink }, .error (.io sink.refusal))
  else (writer, .error (.unwritablePath path))

/-- Ends the report with its summary. -/
def finish (writer : Writer) : Writer × Except Error Summary :=
  match writer.sink.offer (formatSummary Schema.current writer.summary) with
  | (true, sink) => ({ writer with sink }, .ok writer.summary)
  | (false, sink) => ({ writer with sink }, .error (.io sink.refusal))

end Writer

end JarSurvey.Report
