import JarSurvey.CommandLine.Invocation
import JarSurvey.Text.Affix
import JarSurvey.Text.Decimal

/-!
# Reading command lines

A command line has the name of a command, options in front of it and behind it, and operands behind it.
Options that every command has may stand on either side; what stands behind the name wins.

An option that takes a value takes it from the same argument, behind an equals sign or a single letter, or
from the next argument.  Values are looked at late: when the next option begins, or at the end.  So the
first thing wrong with a command line is not always the one that is reported.
-/

namespace JarSurvey.CommandLine

/-! ## Options -/

/-- The options. -/
inductive OptionName where
  | help
  | version
  | verbose
  | threads
  | root
  | output
  | included
  | excluded
  | queue
  | timeLimit
  | format
  deriving DecidableEq, Repr

namespace OptionName

/-- The name of an option behind two hyphens. -/
def long : OptionName → String
  | help => "help"
  | version => "version"
  | verbose => "verbose"
  | threads => "threads"
  | root => "root"
  | output => "output"
  | included => "include"
  | excluded => "exclude"
  | queue => "queue"
  | timeLimit => "time-limit"
  | format => "format"

/-- The letter of an option behind one hyphen. -/
def short? : OptionName → Option Char
  | help => some 'h'
  | version => some 'V'
  | verbose => some 'v'
  | output => some 'o'
  | format => some 'f'
  | _ => none

/-- Whether an option takes a value. -/
def takesValue : OptionName → Bool
  | help | version | verbose => false
  | _ => true

end OptionName

/-- How many operands there may be. -/
inductive Operands where
  | none
  | one
  | many
  deriving DecidableEq, Repr

/-- A part of the command line: in front of the name of a command, or behind it. -/
inductive Level where
  | top
  | command (name : CommandName)
  deriving DecidableEq, Repr

/-- The command with a name. -/
def CommandName.ofText? : String → Option CommandName
  | "scan" => some .scan
  | "read" => some .read
  | "graph" => some .graph
  | "closure" => some .closure
  | "namespaces" => some .namespaces
  | _ => none

/-- The name of the command that tells about commands. -/
def helpCommand : String := "help"

namespace Level

/-- The options at a level. -/
def options : Level → List OptionName
  | top => [.help, .version, .verbose, .threads]
  | command .scan => [.help, .verbose, .threads, .root, .output, .included, .excluded, .queue,
      .timeLimit, .format]
  | command .read => [.help, .verbose, .threads, .format]
  | command .graph => [.help, .verbose, .threads, .output, .included, .excluded]
  | command .closure => [.help, .verbose, .threads, .format]
  | command .namespaces => [.help, .verbose, .threads, .format]

/-- The operands at a level. -/
def operands : Level → Operands
  | top => .none
  | command .read => .one
  | command .namespaces => .none
  | command _ => .many

/-- The option with a name. -/
def byName? (level : Level) (name : String) : Option OptionName :=
  level.options.find? (·.long == name)

/-- The option with a letter. -/
def byLetter? (level : Level) (letter : Char) : Option OptionName :=
  level.options.find? (·.short? == some letter)

/-- The error of an operand that a level has no place for, which may stand behind two hyphens.  In front
of a command it can only be meant as one. -/
def surplus (level : Level) (afterHyphens : Bool) (operand : String) : UsageError :=
  match level with
  | top =>
    if afterHyphens && ((CommandName.ofText? operand).isSome || operand == helpCommand) then
      .unknownArgument
    else .unknownCommand
  | command _ => .unknownArgument

end Level

/-! ## Values -/

/-- The values given. -/
structure Given where
  verbose : Nat
  threads : Option Nat
  root : Option String
  output : Option String
  included : List String
  excluded : List String
  queue : Option Nat
  timeLimit : Option Nat
  format : Option Format
  operands : List String
  deriving DecidableEq, Repr

/-- No values. -/
def Given.empty : Given := ⟨0, none, none, none, [], [], none, none, none, []⟩

/-- The largest count of an option. -/
def maxCount : Nat := 255

/-- A value that may be given only once. -/
def once {α : Type} (earlier : Option α) (value : Except UsageError α) :
    Except UsageError (Option α) :=
  if earlier.isSome then .error .repeatedOption else value.map some

/-- A path, which cannot be empty. -/
def pathValue (text : String) : Except UsageError String :=
  if text = "" then .error .badValue else .ok text

/-- A number. -/
def numberValue (text : String) : Except UsageError Nat :=
  match Text.Decimal.natUpTo? Text.Decimal.maxU64 text with
  | some n => .ok n
  | none => .error .badNumber

/-- A format. -/
def formatValue : String → Except UsageError Format
  | "json" => .ok .json
  | "text" => .ok .text
  | _ => .error .badValue

/-- Puts the value of an option where it belongs. -/
def Given.put (given : Given) (option : OptionName) (text : String) : Except UsageError Given := do
  match option with
  | .threads => return { given with threads := ← once given.threads (numberValue text) }
  | .root => return { given with root := ← once given.root (pathValue text) }
  | .output => return { given with output := ← once given.output (pathValue text) }
  | .included => return { given with included := given.included ++ [text] }
  | .excluded => return { given with excluded := given.excluded ++ [text] }
  | .queue => return { given with queue := ← once given.queue (numberValue text) }
  | .timeLimit => return { given with timeLimit := ← once given.timeLimit (numberValue text) }
  | .format => return { given with format := ← once given.format (formatValue text) }
  | .help | .version | .verbose => return given

/-! ## Arguments -/

/-- Arguments whose values are still to be looked at. -/
inductive Pending where
  /-- An option, with its value if that has come. -/
  | option (name : OptionName) (value : Option String)
  | operands (texts : List String)
  deriving DecidableEq, Repr

/-- What has been read at a level. -/
structure Progress where
  given : Given
  pending : Option Pending
  /-- Whether there was an operand. -/
  hasOperand : Bool
  deriving DecidableEq, Repr

namespace Progress

/-- Nothing read. -/
def start : Progress := ⟨Given.empty, none, false⟩

/-- Looks at the values that are pending. -/
def settle (progress : Progress) : Except UsageError Progress := do
  match progress.pending with
  | none => return progress
  | some (.option _ none) => throw .badValue
  | some (.option name (some value)) =>
    return { progress with given := ← progress.given.put name value, pending := none }
  | some (.operands texts) =>
    let paths ← texts.mapM pathValue
    return { progress with
      given := { progress.given with operands := progress.given.operands ++ paths }
      pending := none }

/-- Whether an option waits for its value. -/
def isWaiting (progress : Progress) : Bool :=
  match progress.pending with
  | some (.option _ none) => true
  | _ => false

/-- Begins an option, with a value that came with it or without. -/
def beginOption (progress : Progress) (name : OptionName) (value : Option String) :
    Except UsageError Progress := do
  let progress ← progress.settle
  match value with
  | some text => return { progress with given := ← progress.given.put name text }
  | none => return { progress with pending := some (.option name none) }

/-- Takes note of an option that takes no value. -/
def putFlag (progress : Progress) (name : OptionName) : Except UsageError Progress := do
  let progress ← progress.settle
  match name with
  | .help => throw .helpRequested
  | .version => throw .versionRequested
  | _ =>
    let verbose := min maxCount (progress.given.verbose + 1)
    return { progress with given := { progress.given with verbose } }

/-- Adds an operand, which may stand behind two hyphens. -/
def addOperand (level : Level) (afterHyphens : Bool) (progress : Progress) (text : String) :
    Except UsageError Progress := do
  match level.operands, progress.pending with
  | .none, _ => throw (level.surplus afterHyphens text)
  | .one, _ =>
    if progress.hasOperand then throw (level.surplus afterHyphens text)
    else
      let progress ← progress.settle
      return { progress with pending := some (.operands [text]), hasOperand := true }
  | .many, some (.operands texts) =>
    return { progress with pending := some (.operands (texts ++ [text])), hasOperand := true }
  | .many, _ =>
    let progress ← progress.settle
    return { progress with pending := some (.operands [text]), hasOperand := true }

end Progress

/-- The parts of a text in front of its first equals sign and behind it. -/
def splitEquals (cs : List Char) : String × Option String :=
  match cs.dropWhile (· ≠ '=') with
  | [] => (String.ofList cs, none)
  | _ :: value => (String.ofList (cs.takeWhile (· ≠ '=')), some (String.ofList value))

/-- Reads an option by its name, which stands behind two hyphens. -/
def readLong (level : Level) (progress : Progress) (cs : List Char) :
    Except UsageError Progress :=
  let (name, value) := splitEquals cs
  match level.byName? name with
  | none => .error .unknownArgument
  | some option =>
    if option.takesValue then progress.beginOption option value
    else
      match value with
      | some _ => .error .unwantedValue
      | none => progress.putFlag option

/-- The value that is written behind the letter of an option. -/
def attachedValue : List Char → Option String
  | [] => none
  | '=' :: value => some (String.ofList value)
  | value => some (String.ofList value)

/-- Reads options by their letters, which stand behind one hyphen. -/
def readShort (level : Level) (progress : Progress) : List Char → Except UsageError Progress
  | [] => .ok progress
  | letter :: rest =>
    match level.byLetter? letter with
    | none => .error .unknownArgument
    | some option =>
      if option.takesValue then progress.beginOption option (attachedValue rest)
      else do
        let progress ← progress.putFlag option
        readShort level progress rest

/-- Reads an argument in front of two hyphens. -/
def readArgument (level : Level) (progress : Progress) (argument : String) :
    Except UsageError Progress :=
  match argument.toList with
  | '-' :: '-' :: cs => readLong level progress cs
  | '-' :: c :: cs => readShort level progress (c :: cs)
  | _ =>
    match progress.pending with
    | some (.option name none) =>
      .ok { progress with pending := some (.option name (some argument)) }
    | _ => progress.addOperand level false argument

/-- Reads the arguments behind two hyphens. -/
def readOperands (level : Level) (progress : Progress) : List String → Except UsageError Progress
  | [] => .ok progress
  | argument :: later => do
    let progress ← progress.addOperand level true argument
    readOperands level progress later

/-- Reads the arguments behind the name of a command. -/
def readCommand (level : Level) (progress : Progress) : List String → Except UsageError Progress
  | [] => .ok progress
  | argument :: later =>
    if argument = "--" then readOperands level progress later
    else do
      let progress ← readArgument level progress argument
      readCommand level progress later

/-- The answer to a request for help on the commands named. -/
def helpError : List String → UsageError
  | [] => .helpRequested
  | [name] =>
    if (CommandName.ofText? name).isSome || name == helpCommand then .helpRequested
    else .unknownCommand
  | _ => .unknownCommand

/-- Reads the arguments up to the name of a command; gives the name and the arguments behind it. -/
def readTop (progress : Progress) :
    List String → Except UsageError (Progress × Option (CommandName × List String))
  | [] => .ok (progress, none)
  | argument :: later =>
    match CommandName.ofText? argument with
    | some name => if progress.isWaiting then goOn argument later else .ok (progress, some (name, later))
    | none =>
      if argument = helpCommand ∧ ¬ progress.isWaiting then .error (helpError later)
      else if argument = "--" then do
        return (← readOperands .top progress later, none)
      else goOn argument later
where
  /-- Reads an argument that is no name. -/
  goOn (argument : String) (later : List String) :
      Except UsageError (Progress × Option (CommandName × List String)) := do
    let progress ← readArgument .top progress argument
    readTop progress later

/-! ## Invocations -/

/-- How many rows the queue holds where nothing else is asked for. -/
def defaultQueue : Nat := 64

/-- The command that values make; some commands need an operand. -/
def Given.command (given : Given) : CommandName → Except UsageError Command
  | .scan =>
    if given.operands.isEmpty then .error .missingOperand
    else .ok (.scan {
      inputs := given.operands
      root := given.root
      output := given.output
      filter := ⟨given.included, given.excluded⟩
      queue := given.queue.getD defaultQueue
      timeLimit := given.timeLimit
      format := given.format.getD .json })
  | .read =>
    match given.operands with
    | report :: _ => .ok (.read report (given.format.getD .json))
    | [] => .error .missingOperand
  | .graph =>
    if given.operands.isEmpty then .error .missingOperand
    else .ok (.graph ⟨given.operands, given.output, ⟨given.included, given.excluded⟩⟩)
  | .closure =>
    if given.operands.isEmpty then .error .missingOperand
    else .ok (.closure given.operands (given.format.getD .json))
  | .namespaces => .ok (.namespaces (given.format.getD .text))

/-- What a command line asks for. -/
def parse (arguments : List String) : Except UsageError Invocation := do
  let (top, found) ← readTop Progress.start arguments
  match found with
  | none =>
    let top ← top.settle
    if top.given = Given.empty then throw .nothingGiven else throw .missingCommand
  | some (name, later) =>
    let inner ← (← readCommand (.command name) Progress.start later).settle
    let command ← inner.given.command name
    let outer ← top.settle
    return {
      command
      verbose := if inner.given.verbose = 0 then outer.given.verbose else inner.given.verbose
      threads := inner.given.threads <|> outer.given.threads }

end JarSurvey.CommandLine
