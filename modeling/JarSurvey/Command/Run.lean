import JarSurvey.Command.Output
import JarSurvey.CommandLine.Parser
import JarSurvey.Settings
import JarSurvey.Survey.Run

/-!
# Running commands

`Command.run` answers a command line: what it prints, how it ends, and the files that it leaves behind.
-/

namespace JarSurvey.Command

open CommandLine

/-- What a command finds around it besides files. -/
structure Surroundings where
  environment : Settings.Environment
  /-- The date for the name of a new report. -/
  date : String
  /-- What makes the name of a new report its own. -/
  suffix : String
  /-- The time, in milliseconds. -/
  now : Int

/-- Why a command fails. -/
inductive Failure where
  | settings (error : Settings.Error)
  | finder (error : FinderError)
  | report (error : Report.Error)
  | unopenableReport (path : String) (cause : FileError)
  | uncreatableReport (path : String) (cause : FileError)
  | graphFile (error : GraphFile.Error)
  /-- The reader of an archive gave up, or the survey could not begin. -/
  | abandoned
  deriving DecidableEq, Repr

namespace Failure

/-- The sentences that describe a failure and what lies behind it. -/
def causes : Failure → List String
  | settings error => [error.message]
  | finder error => [error.message]
  | report error =>
    match error with
    | .io reason => [error.message, reason]
    | _ => [error.message]
  | unopenableReport path cause => [s!"failed to open report: {path}", cause.message]
  | uncreatableReport path cause => [s!"failed to create report: {path}", cause.message]
  | graphFile error => error.message :: error.cause?.toList
  | abandoned => []

/-- The line that tells of a failure. -/
def line? (failure : Failure) : Option String :=
  if failure.causes.isEmpty then none else some ("error: " ++ ": ".intercalate failure.causes)

/-- How a command ends that fails. -/
def exitCode : Failure → UInt8
  | settings error => error.exitCode
  | report (.unsupportedVersion _) => 5
  | abandoned => 101
  | _ => 1

end Failure

/-- How a command ends. -/
structure Ending where
  exitCode : UInt8
  /-- What is printed. -/
  output : String
  /-- The sentence that sums up a report which itself is printed. -/
  description : Option String
  /-- The line that tells of a failure. -/
  failure : Option String

namespace Ending

/-- A command that succeeds and prints a text. -/
def printed (output : String) : Ending := ⟨0, output, none, none⟩

/-- A command that fails. -/
def failed (failure : Failure) : Ending := ⟨failure.exitCode, "", none, failure.line?⟩

end Ending

/-! ## Scans -/

/-- The archives to scan or to graph; there has to be one. -/
def archivesOf (tree : FileTree) (filter : Filter) (inputs : List String) :
    Except Failure (List String) := do
  match ← (Finder.find tree filter inputs).mapError .finder with
  | [] => throw (.settings .noArchives)
  | archives => return archives

/-- A scan that is ready to begin. -/
structure Scan where
  archives : List String
  root : String
  target : Settings.Target
  cancellation : Survey.Cancellation
  /-- How many rows may wait for the writer. -/
  queueDepth : Nat
  format : Format

/-- Settles what to scan, and where the report is written. -/
def Scan.prepare (surroundings : Surroundings) (tree : FileTree) (options : ScanOptions) :
    Except Failure Scan := do
  let root ← (Settings.root surroundings.environment options.root).mapError .settings
  let archives ← archivesOf tree options.filter options.inputs
  return {
    archives
    root
    target := Settings.target surroundings.environment options.output
    cancellation := ⟨false, options.timeLimit⟩
    queueDepth := options.queue
    format := options.format }

/-- The file of the report, unless it is printed. -/
def Scan.path? (scan : Scan) (surroundings : Surroundings) : Option String :=
  match scan.target with
  | .standardOutput => none
  | .file path => some path
  | .newFile => some (Settings.reportName surroundings.date surroundings.suffix)

/-- A writer for the report. -/
def Scan.writer (scan : Scan) : Except Failure Report.Writer :=
  (Report.Writer.start Report.Sink.unlimited (some scan.root)).mapError .report

/-- Whether the survey of a scan can begin. -/
def Scan.isFeasible (scan : Scan) : Bool :=
  Survey.Limits.isFeasible ⟨1, scan.queueDepth⟩

/-- Ends a scan whose survey cannot begin; gives the text of the report too, which is only begun. -/
def Scan.abandon (path? : Option String) (writer : Report.Writer) : String × Ending :=
  let text := writer.sink.text
  (text, { Ending.failed .abandoned with output := if path?.isNone then text else "" })

/-- Ends a scan; gives the text of the report too. -/
def Scan.finish (scan : Scan) (path? : Option String) (state : Survey.State) :
    String × Except Failure Ending :=
  let (writer, result) := state.conclude
  (writer.sink.text, (result.mapError .report).map fun outcome =>
    match path? with
    | none => ⟨0, writer.sink.text, some outcome.summary.describe, none⟩
    | some path => .printed (scanOutput scan.format path outcome))

/-- Writes the file of the report, where it is not printed. -/
def writeReport (surroundings : Surroundings) (tree : FileTree) (text : String) :
    Option String → Except Failure FileTree
  | none => .ok tree
  | some path => (tree.write path text.toUTF8 surroundings.now).mapError (.uncreatableReport path)

/-- Scans archives.  The file of the report is there, and empty, while they are scanned. -/
def runScan (surroundings : Surroundings) (tree : FileTree) (options : ScanOptions) :
    Except Failure (FileTree × Ending) := do
  let scan ← Scan.prepare surroundings tree options
  let path? := scan.path? surroundings
  let tree ← writeReport surroundings tree "" path?
  let writer ← scan.writer
  if scan.isFeasible then
    let state := Survey.run (Survey.inspect tree) scan.archives writer
      (scan.cancellation.holdsAfter 0)
    let (text, result) := scan.finish path? state
    let ending ← result
    return (← writeReport surroundings tree text path?, ending)
  else
    let (text, ending) := Scan.abandon path? writer
    return (← writeReport surroundings tree text path?, ending)

/-! ## Other commands -/

/-- Reads a report.  A directory can be opened, but not read. -/
def runRead (tree : FileTree) (path : String) (format : Format) : Except Failure Ending := do
  let source : Report.Source ←
    match tree.find path with
    | .ok (.file content _) => pure ⟨content.toList, none⟩
    | .ok .directory => pure ⟨[], some FileError.isDirectory.message⟩
    | .error cause => throw (.unopenableReport path cause)
  let reading ← (Report.Reading.ofSource source).mapError .report
  match reading.failure with
  | some error => throw (.report error)
  | none => return .printed (readOutput format path reading)

/-- Gathers the classes of archives. -/
def runGraph (surroundings : Surroundings) (tree : FileTree) (options : GraphOptions) :
    Except Failure (FileTree × Ending) := do
  let archives ← archivesOf tree options.filter options.inputs
  match Survey.collect tree archives, options.output with
  | none, _ => throw .abandoned
  | some (jars, _), none => return (tree, .printed (ofValue (GraphFile.ofJars jars)))
  | some (jars, _), some path =>
    let tree ← (GraphFile.save tree path jars surroundings.now).mapError .graphFile
    return (tree, .printed (graphOutput path jars))

/-- Ranks the namespaces of graphs by their closures. -/
def runClosure (tree : FileTree) (paths : List String) (format : Format) :
    Except Failure Ending := do
  let jars ← (paths.mapM (GraphFile.load tree)).mapError .graphFile
  let groups := Jar.groupByNamespace (Jar.merge jars.flatten)
  return .printed (closureOutput format (Ranking.ofClosures (Closure.analyze groups)))

/-- Does what an invocation asks for. -/
def invoke (surroundings : Surroundings) (tree : FileTree) (invocation : Invocation) :
    Except Failure (FileTree × Ending) := do
  let _ ← (Settings.threads surroundings.environment invocation.threads).mapError .settings
  match invocation.command with
  | .scan options => runScan surroundings tree options
  | .read report format => return (tree, ← runRead tree report format)
  | .graph options => runGraph surroundings tree options
  | .closure graphs format => return (tree, ← runClosure tree graphs format)
  | .namespaces format => return (tree, .printed (namespacesOutput format))

/-! ## Command lines -/

/-- The name and the version of the program. -/
def versionLine : String := "jakarta-census 0.1.0"

/-- What the program can be asked to do. -/
def helpLines : List String := [
  "Count javax/jakarta namespace references in compiled Java archives",
  "",
  "Usage: jakarta-census [OPTIONS] <COMMAND>",
  "",
  "Commands:",
  "  scan        Scan archives and write a usage report",
  "  read        Summarize an existing report of any supported version",
  "  graph       Record the references of every class as a dependency-graph file",
  "  closure     Work out which namespace renames force other renames",
  "  namespaces  List the tracked namespaces in classification order",
  "  help        Print this message or the help of the given subcommand(s)",
  "",
  "Options:",
  "  -v, --verbose...   More log output on stderr (-v info, -vv debug, -vvv trace)",
  "      --threads <N>  Worker threads for archive scanning",
  "  -h, --help         Print help",
  "  -V, --version      Print version"]

/-- The answer to a command line that does not say what to do. -/
def usageEnding : UsageError → Ending
  | .helpRequested => .printed (ofLines helpLines)
  | .versionRequested => .printed (ofLines [versionLine])
  | _ => ⟨2, "", none, none⟩

/-- Answers a command line. -/
def run (surroundings : Surroundings) (tree : FileTree) (arguments : List String) :
    FileTree × Ending :=
  match CommandLine.parse arguments with
  | .error error => (tree, usageEnding error)
  | .ok invocation =>
    match invoke surroundings tree invocation with
    | .ok (tree, ending) => (tree, ending)
    | .error failure => (tree, .failed failure)

end JarSurvey.Command
