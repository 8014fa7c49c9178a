import JarSurvey.Report.Writer

/-!
# The course of a survey

A survey hands archives to workers.  A worker takes an archive, looks whether the survey was cancelled,
inspects the archive, and sends the row that it gets through a queue of limited depth to one writer.  The
writer writes the rows to a report in the order in which they arrive.  A row whose path does not fit on a
line is left out; when the report cannot be written any more, the writer stops, and the next row that is
sent cancels the survey.

`State.play` makes one `Move` of this course.  The moves come in any order that the state allows; the
number of workers and the depth of the queue bound what it allows.
-/

namespace JarSurvey.Survey

open Report

/-- What inspecting an archive comes to. -/
inductive Finding where
  | row (row : Row)
  | unreadable
  /-- The reader gave up. -/
  | abandoned
  deriving DecidableEq, Repr

/-- A finding with the warnings given on the way to it. -/
structure Inspection where
  finding : Finding
  warnings : List Warning
  deriving DecidableEq, Repr

/-- Inspects the archive that a path leads to. -/
def inspect (tree : FileTree) (path : String) : Inspection :=
  let scan := Archive.scan tree path
  match scan.result with
  | .ok (record, usage) => ⟨.row ⟨record, usage⟩, scan.warnings⟩
  | .error .abandoned => ⟨.abandoned, scan.warnings ++ [.abandonedArchive path]⟩
  | .error _ => ⟨.unreadable, scan.warnings ++ [.unreadableArchive path]⟩

/-- What a busy worker is about to do. -/
inductive Worker where
  /-- To look whether the survey was cancelled, before inspecting the archive. -/
  | taken (path : String)
  | inspecting (path : String)
  | sending (row : Row)
  deriving DecidableEq, Repr

/-- The limits of a survey. -/
structure Limits where
  /-- How many workers may be busy at the same time. -/
  workers : Nat
  /-- How many rows the queue is asked to hold. -/
  queueDepth : Nat
  deriving DecidableEq, Repr

/-- How many rows the queue holds: at least one. -/
def Limits.capacity (limits : Limits) : Nat := max 1 limits.queueDepth

/-- The room that a row takes in the queue, in bytes. -/
def rowSize : Nat := 136

/-- Whether there can be a queue for as many rows: their bytes have to be countable in a signed word. -/
def Limits.isFeasible (limits : Limits) : Bool := limits.capacity * rowSize < 0x8000000000000000

/-- A moment of a survey. -/
structure State where
  /-- Archives that no worker has taken. -/
  waiting : List String
  workers : List Worker
  queue : List Row
  writer : Writer
  /-- Why the writer stopped, if it did. -/
  failure : Option Report.Error
  cancelled : Bool
  scanned : Nat
  failed : Nat
  skipped : Nat
  unwritable : Nat
  warnings : List Warning

/-- A move of a survey; waiting archives and workers are counted from zero. -/
inductive Move where
  | take (archive : Nat)
  | check (worker : Nat)
  | inspect (worker : Nat)
  | send (worker : Nat)
  | write
  | cancel
  deriving DecidableEq, Repr

namespace State

/-- The beginning of a survey. -/
def start (archives : List String) (writer : Writer) (cancelled : Bool) : State where
  waiting := archives
  workers := []
  queue := []
  writer := writer
  failure := none
  cancelled := cancelled
  scanned := 0
  failed := 0
  skipped := 0
  unwritable := 0
  warnings := []

/-- A free worker takes one of the waiting archives. -/
def take? (limits : Limits) (archive : Nat) (state : State) : Option State :=
  match state.waiting[archive]? with
  | some path =>
    if state.workers.length < limits.workers then
      some { state with
        waiting := state.waiting.eraseIdx archive
        workers := state.workers ++ [.taken path] }
    else none
  | none => none

/-- A worker that has taken an archive skips it if the survey was cancelled. -/
def check? (worker : Nat) (state : State) : Option State :=
  match state.workers[worker]? with
  | some (.taken path) =>
    if state.cancelled then
      some { state with workers := state.workers.eraseIdx worker, skipped := state.skipped + 1 }
    else some { state with workers := state.workers.set worker (.inspecting path) }
  | _ => none

/-- A worker inspects its archive. -/
def inspect? (inspection : String → Inspection) (worker : Nat) (state : State) : Option State :=
  match state.workers[worker]? with
  | some (.inspecting path) =>
    let ⟨finding, warnings⟩ := inspection path
    match finding with
    | .row row => some { state with
        workers := state.workers.set worker (.sending row)
        scanned := state.scanned + 1
        warnings := state.warnings ++ warnings }
    | _ => some { state with
        workers := state.workers.eraseIdx worker
        failed := state.failed + 1
        warnings := state.warnings ++ warnings }
  | _ => none

/-- A worker puts its row into the queue, if there is room; where nobody writes any more, it cancels the
survey. -/
def send? (limits : Limits) (worker : Nat) (state : State) : Option State :=
  match state.workers[worker]? with
  | some (.sending row) =>
    if state.failure.isSome then
      some { state with workers := state.workers.eraseIdx worker, cancelled := true }
    else if state.queue.length < limits.capacity then
      some { state with
        workers := state.workers.eraseIdx worker
        queue := state.queue ++ [row] }
    else none
  | _ => none

/-- The writer writes the next row of the queue. -/
def write? (state : State) : Option State :=
  match state.failure, state.queue with
  | none, row :: later =>
    let (writer, result) := state.writer.write row
    match result with
    | .ok () => some { state with writer, queue := later }
    | .error (.unwritablePath path) => some { state with
        writer
        queue := later
        unwritable := state.unwritable + 1
        warnings := state.warnings ++ [.unwritablePath path] }
    | .error error => some { state with writer, queue := [], failure := some error }
  | _, _ => none

/-- Makes a move, if the state allows it. -/
def play (limits : Limits) (inspection : String → Inspection) (state : State) : Move → Option State
  | .take archive => state.take? limits archive
  | .check worker => state.check? worker
  | .inspect worker => state.inspect? inspection worker
  | .send worker => state.send? limits worker
  | .write => state.write?
  | .cancel => some { state with cancelled := true }

/-- Whether nothing is left to do. -/
def isDone (state : State) : Bool :=
  state.waiting.isEmpty && state.workers.isEmpty && state.queue.isEmpty

end State

/-- What a survey comes to. -/
structure Outcome where
  scanned : Nat
  failed : Nat
  skipped : Nat
  /-- Archives that were scanned but have no line in the report. -/
  unwritable : Nat
  summary : Summary
  deriving DecidableEq, Repr

/-- Ends a survey with the summary of the report. -/
def State.conclude (state : State) : Writer × Except Report.Error Outcome :=
  match state.failure with
  | some error => (state.writer, .error error)
  | none =>
    let (writer, result) := state.writer.finish
    (writer, result.map fun summary =>
      ⟨state.scanned, state.failed, state.skipped, state.unwritable, summary⟩)

end JarSurvey.Survey
