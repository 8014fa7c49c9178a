import JarSurvey.Report.Schema
import JarSurvey.Text.Blank
import JarSurvey.Text.Decimal
import JarSurvey.Text.Quoted

/-!
# Settings

A setting comes from the command line, or else from an environment variable; a variable that is blank
counts as not set.
-/

namespace JarSurvey.Settings

/-- The variable for the root of a repository. -/
def rootVariable : String := "JAKARTA_CENSUS_ROOT"

/-- The variable for the place of a report. -/
def outputVariable : String := "JAKARTA_CENSUS_OUTPUT"

/-- The variable for the number of workers. -/
def threadsVariable : String := "JAKARTA_CENSUS_THREADS"

/-- The values of environment variables. -/
abbrev Environment := String → Option String

/-- The value of a variable, unless it is blank. -/
def value? (environment : Environment) (name : String) : Option String :=
  (environment name).filter fun value => Text.Blank.trim value ≠ ""

/-- Why a command cannot begin. -/
inductive Error where
  | missingRoot
  | noArchives
  | invalid (name value : String)
  deriving DecidableEq, Repr

/-- The sentence that describes the error. -/
def Error.message : Error → String
  | missingRoot => s!"no repository root given (use --root or {rootVariable})"
  | noArchives => "no archives found in the given inputs"
  | invalid name value => s!"invalid value for {name}: {Text.Quoted.encode value}"

/-- The exit code of the error. -/
def Error.exitCode : Error → UInt8
  | missingRoot => 3
  | noArchives => 4
  | invalid _ _ => 1

/-- The root of the repository. -/
def root (environment : Environment) (flag : Option String) : Except Error String :=
  match flag <|> value? environment rootVariable with
  | some path => .ok path
  | none => .error .missingRoot

/-- The number of workers, if it is set; a variable cannot set it to zero. -/
def threads (environment : Environment) (flag : Option Nat) : Except Error (Option Nat) :=
  match flag, value? environment threadsVariable with
  | some n, _ => .ok (some n)
  | none, none => .ok none
  | none, some value =>
    match Text.Decimal.natUpTo? Text.Decimal.maxU64 (Text.Blank.trim value) with
    | some (n + 1) => .ok (some (n + 1))
    | _ => .error (.invalid threadsVariable value)

/-- Where a report is written. -/
inductive Target where
  | standardOutput
  | file (path : String)
  /-- A file with a new name. -/
  | newFile
  deriving DecidableEq, Repr

/-- Where the report is written; a hyphen stands for the standard output. -/
def target (environment : Environment) (flag : Option String) : Target :=
  match flag <|> value? environment outputVariable with
  | some path => if path = "-" then .standardOutput else .file path
  | none => .newFile

/-- A name for a new report. -/
def reportName (date suffix : String) : String :=
  s!"jakarta-census-{date}-{suffix}-v{Report.Schema.current.version}.tsv"

end JarSurvey.Settings
