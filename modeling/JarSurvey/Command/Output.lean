import JarSurvey.CommandLine.Invocation
import JarSurvey.Graph.Closure
import JarSurvey.Graph.File
import JarSurvey.Report.Reader
import JarSurvey.Survey.State

/-!
# What commands print

The results of commands, as JSON values and as lines of text.
-/

namespace JarSurvey.Command

open Text.Json

/-- Lines of text, each with its end. -/
def ofLines (lines : List String) : String :=
  String.join (lines.map (· ++ "\n"))

/-- A value as it is printed. -/
def ofValue (value : Value) : String :=
  ofLines [value.pretty]

/-! ## Summaries -/

/-- A usage as a value: the totals of the families and the namespaces that were seen. -/
def usageValue (usage : Usage) : Value :=
  .object ([(Family.javax.label, .number usage.javax), (Family.jakarta.label, .number usage.jakarta)] ++
    usage.entries.map fun (ns, count) => (ns.name, .number count))

/-- A summary as a value. -/
def summaryValue (summary : Report.Summary) : Value :=
  .object [
    ("archives", .number summary.archives),
    ("legacy_archives", .number summary.legacyArchives),
    ("classes", .number summary.classes),
    ("bytes", .number summary.bytes),
    ("usage", usageValue summary.usage)]

/-- A summary as lines. -/
def summaryLines (summary : Report.Summary) : List String :=
  [summary.describe,
    s!"{Family.javax.label}: {summary.usage.javax}",
    s!"{Family.jakarta.label}: {summary.usage.jakarta}"] ++
    summary.usage.entries.map fun (ns, count) => s!"  {ns.name}: {count}"

/-! ## Commands -/

/-- What a scan that wrote its report to a file prints. -/
def scanOutput (format : CommandLine.Format) (report : String) (outcome : Survey.Outcome) : String :=
  match format with
  | .json => ofValue (.object [
      ("report", .text report),
      ("scanned", .number outcome.scanned),
      ("failed", .number outcome.failed),
      ("skipped", .number outcome.skipped),
      ("unwritable", .number outcome.unwritable),
      ("description", .text outcome.summary.describe),
      ("summary", summaryValue outcome.summary)])
  | .text =>
    let scanned := s!"scanned: {outcome.scanned}, failed: {outcome.failed}"
    let passed := s!"skipped: {outcome.skipped}, unwritable: {outcome.unwritable}"
    ofLines ([s!"report: {report}", s!"{scanned}, {passed}"] ++ summaryLines outcome.summary)

/-- What reading a report prints. -/
def readOutput (format : CommandLine.Format) (report : String) (reading : Report.Reading) : String :=
  let summary := reading.summary
  let malformed := reading.malformed.length
  match format with
  | .json => ofValue (.object [
      ("report", .text report),
      ("version", .number reading.schema.version),
      ("malformed_lines", .number malformed),
      ("description", .text summary.describe),
      ("summary", summaryValue summary)])
  | .text => ofLines ([s!"report: {report} (v{reading.schema.version})"] ++ summaryLines summary ++
      (if malformed = 0 then [] else [s!"malformed lines: {malformed}"]))

/-- What a graph that was written to a file prints. -/
def graphOutput (graph : String) (jars : List Jar) : String :=
  ofValue (.object [
    ("graph", .text graph),
    ("jars", .number jars.length),
    ("classes", .number (jars.flatMap (·.classes)).length)])

/-- A closure as a value. -/
def closureValue (closure : Closure) : Value :=
  .object [
    ("jar", .text closure.jar),
    ("affected", .texts closure.affected),
    ("reasons", .array (closure.reasons.map fun reason =>
      .object [("from", .text reason.source), ("to", .text reason.target)]))]

/-- A closure as lines. -/
def closureLines (closure : Closure) : List String :=
  ("  " ++ closure.jar ++ " -> " ++ ", ".intercalate (closure.affected.drop 1)) ::
    closure.reasons.map fun reason => s!"      {reason.source} references {reason.target}"

/-- What the closures of namespaces print. -/
def closureOutput (format : CommandLine.Format) (ranking : Ranking) : String :=
  match format with
  | .json => ofValue (.object [
      ("simple", .texts ranking.simple),
      ("complex", .array (ranking.complex.map closureValue))])
  | .text => ofLines (
      [s!"simple ({ranking.simple.length}):"] ++ ranking.simple.map ("  " ++ ·) ++
        [s!"complex ({ranking.complex.length}):"] ++ ranking.complex.flatMap closureLines)

/-- The line of a namespace. -/
def namespaceLine (ns : Namespace) : String :=
  if ns.excluded.isEmpty then ns.name
  else ns.name ++ "\t(except " ++ ", ".intercalate ns.excluded ++ ")"

/-- What the list of namespaces prints. -/
def namespacesOutput (format : CommandLine.Format) : String :=
  match format with
  | .json => ofValue (.array (Namespace.all.map fun ns =>
      .object [("name", .text ns.name), ("excluded_prefixes", .texts ns.excluded)]))
  | .text => ofLines (Namespace.all.map namespaceLine)

end JarSurvey.Command
