import JarSurvey.Graph.Jar
import JarSurvey.Survey.State

/-!
# Running a survey

`run` plays a survey to its end, one archive after the other.  `collect` gathers the classes of archives
instead of writing a report.

A survey stops early when it is cancelled (`Cancellation`): on request, by an interrupt, or when its time
is up.
-/

namespace JarSurvey.Survey

open Report

/-- What becomes of waiting for an interrupt. -/
inductive Interrupt where
  | received
  /-- Interrupts cannot be waited for. -/
  | unavailable
  deriving DecidableEq, Repr

/-- The warning that an interrupt gives. -/
def Interrupt.warning : Interrupt → Warning
  | received => .interrupted
  | unavailable => .uninterruptible

/-- What cancels a survey. -/
structure Cancellation where
  requested : Bool
  /-- The time that the survey may take, in seconds. -/
  timeLimit : Option Nat
  deriving DecidableEq, Repr

namespace Cancellation

/-- Nothing cancels the survey. -/
def never : Cancellation := ⟨false, none⟩

/-- Takes note of an interrupt. -/
def interrupt (cancellation : Cancellation) : Interrupt → Cancellation
  | .received => { cancellation with requested := true }
  | .unavailable => cancellation

/-- Whether the survey is cancelled after a time in seconds. -/
def holdsAfter (cancellation : Cancellation) (elapsed : Nat) : Bool :=
  cancellation.requested || cancellation.timeLimit.any (· ≤ elapsed)

end Cancellation

/-- The next move of a survey that finishes each archive before it takes the next. -/
def State.next? (state : State) : Option Move :=
  if state.queue.isEmpty then
    match state.workers with
    | .taken _ :: _ => some (.check 0)
    | .inspecting _ :: _ => some (.inspect 0)
    | .sending _ :: _ => some (.send 0)
    | [] => if state.waiting.isEmpty then none else some (.take 0)
  else some .write

/-- Plays at most `moves` moves of a survey. -/
def State.advance (limits : Limits) (inspection : String → Inspection) : Nat → State → State
  | 0, state => state
  | moves + 1, state =>
    match state.next?.bind (state.play limits inspection) with
    | some state => state.advance limits inspection moves
    | none => state

/-- How many moves an archive takes at most: it is taken, checked, inspected, sent and written. -/
def movesPerArchive : Nat := 5

/-- One worker at a time. -/
def sequential : Limits := ⟨1, 1⟩

/-- Surveys archives one after the other. -/
def run (inspection : String → Inspection) (archives : List String) (writer : Writer)
    (cancelled : Bool) : State :=
  (State.start archives writer cancelled).advance sequential inspection
    (movesPerArchive * archives.length)

/-! ## Classes of archives -/

/-- The name of the group of an archive: the name at the end of its path. -/
def jarName (path : String) : String :=
  (Path.fileName? path).getD path

/-- The groups of the classes of archives, in order, with the warnings given.  Archives that cannot be read
are left out; where the reader gives up, so does the survey. -/
def collect (tree : FileTree) : List String → Option (List Jar × List Warning)
  | [] => some ([], [])
  | path :: later =>
    let scan := Archive.classes tree path
    match scan.result with
    | .error .abandoned => none
    | .error _ => (collect tree later).map fun (jars, warnings) =>
        (jars, scan.warnings ++ [.unreadableArchive path] ++ warnings)
    | .ok (_, classes) => (collect tree later).map fun (jars, warnings) =>
        (⟨jarName path, classes⟩ :: jars, scan.warnings ++ warnings)

end JarSurvey.Survey
