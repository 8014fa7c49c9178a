import JarSurvey.Finder

/-!
# Invocations

What the program can be asked to do, and what is wrong with a command line that does not say it.
-/

namespace JarSurvey.CommandLine

/-- How results are shown. -/
inductive Format where
  | json
  | text
  deriving DecidableEq, Repr

/-- The names of the commands. -/
inductive CommandName where
  | scan
  | read
  | graph
  | closure
  | namespaces
  deriving DecidableEq, Repr

/-- The options of a scan. -/
structure ScanOptions where
  inputs : List String
  root : Option String
  output : Option String
  filter : Filter
  queue : Nat
  /-- In seconds. -/
  timeLimit : Option Nat
  format : Format
  deriving DecidableEq, Repr

/-- The options of a graph. -/
structure GraphOptions where
  inputs : List String
  output : Option String
  filter : Filter
  deriving DecidableEq, Repr

/-- What to do. -/
inductive Command where
  | scan (options : ScanOptions)
  | read (report : String) (format : Format)
  | graph (options : GraphOptions)
  | closure (graphs : List String) (format : Format)
  | namespaces (format : Format)
  deriving DecidableEq, Repr

/-- What to do, and how. -/
structure Invocation where
  command : Command
  /-- How much is told about the way. -/
  verbose : Nat
  threads : Option Nat
  deriving DecidableEq, Repr

/-- Why a command line does not say what to do. -/
inductive UsageError where
  | helpRequested
  | versionRequested
  /-- There is nothing on the command line. -/
  | nothingGiven
  | missingCommand
  | unknownCommand
  | missingOperand
  | unknownArgument
  /-- An option that takes one value is given twice. -/
  | repeatedOption
  /-- A value is missing, or is none of those possible. -/
  | badValue
  | badNumber
  /-- A value for an option that takes none. -/
  | unwantedValue
  deriving DecidableEq, Repr

end JarSurvey.CommandLine
