import JarSurvey.Calendar
import JarSurvey.Command.Run

/-!
# The program

Files are read into a `FileTree`, as far as a command needs them, and the command runs on that.  A scan
reads each archive when its turn comes, and looks at the clock between archives.
-/

namespace JarSurvey.Main

open Command CommandLine

/-! ## Files -/

/-- What an error of the system says of a file. -/
def fileError : IO.Error → FileError
  | .noFileOrDirectory _ _ _ => .notFound
  | error => .other (toString error)

/-- The place that a path leads to from a place, as its components say. -/
def placeFrom (start : Place) (path : String) : Place :=
  (Path.components path).foldl (fun place component =>
    match component with
    | .root => []
    | .current => place
    | .parent => place.dropLast
    | .normal name => place ++ [name]) start

/-- The paths on the way to a path, and the path itself. -/
def waypoints (path : String) : List String :=
  let parts := (Path.parts path.toList).map String.ofList
  ((List.range (parts.length + 1)).drop 1).map fun count =>
    let front := "/".intercalate (parts.take count)
    if front = "" then "/" else front

/-- The time of a change in milliseconds. -/
def millis (time : IO.FS.SystemTime) : Int :=
  Calendar.millisOfNanos (time.sec * 1000000000 + time.nsec.toNat)

/-- What is known about a path, if it leads to anything. -/
def metadata? (path : String) : IO (Option IO.FS.Metadata) := do
  try
    return some (← (← IO.FS.realPath path).metadata)
  catch _ => return none

/-- The tree with a node at a place where nothing is yet. -/
def addNode (tree : FileTree) (place : Place) (node : Node) : FileTree :=
  match tree.node? place with
  | some _ => tree
  | none => { tree with nodes := (place, node) :: tree.nodes }

/-- The tree with what a path and the paths on the way to it lead to; files are empty. -/
def addPath (tree : FileTree) (path : String) : IO FileTree := do
  let mut result := tree
  for waypoint in waypoints path do
    let place := placeFrom tree.workingDirectory waypoint
    match ← metadata? waypoint with
    | some data =>
      match data.type with
      | .dir => result := result.addDirectory place
      | .file => result := addNode result place (.file ByteArray.empty (millis data.modified))
      | _ => pure ()
    | none => pure ()
  return result

/-- The tree with all archives below a directory; files are empty.  Links are not followed. -/
partial def addArchives (tree : FileTree) (directory : String) : IO FileTree := do
  let entries ←
    try (← IO.FS.realPath directory).readDir
    catch _ => pure #[]
  let mut result := tree
  for entry in entries do
    let path := Path.join directory entry.fileName
    let place := placeFrom tree.workingDirectory path
    match (← entry.path.symlinkMetadata).type with
    | .dir => result ← addArchives (addNode result place .directory) path
    | .file =>
      if Path.isArchiveName path then
        result := addNode result place (.file ByteArray.empty 0)
    | _ => pure ()
  return result

/-- The tree with the content of the file that a path leads to. -/
def addContent (tree : FileTree) (path : String) : IO FileTree := do
  let tree ← addPath tree path
  match ← metadata? path with
  | some data =>
    match data.type with
    | .file =>
      try
        let content ← IO.FS.readBinFile path
        return tree.putFile (placeFrom tree.workingDirectory path) content (millis data.modified)
      catch _ => return tree
    | _ => return tree
  | none => return tree

/-- The tree with all that inputs lead to. -/
def addInputs (tree : FileTree) (inputs : List String) : IO FileTree := do
  let mut result := tree
  for input in inputs do
    result ← addPath result input
    match ← metadata? input with
    | some data => if data.type == .dir then result ← addArchives result input
    | none => pure ()
  return result

/-! ## Surroundings -/

/-- The characters of which the names of new reports are made. -/
def suffixCharacters : String :=
  "ABCDEFGHIJKLMNOPQRSTUVWXYZabcdefghijklmnopqrstuvwxyz0123456789"

/-- A text of characters drawn at random. -/
def drawSuffix (count : Nat) : IO String := do
  let characters := suffixCharacters.toList.toArray
  let mut drawn := ""
  for _ in [0:count] do
    drawn := drawn.push (characters.getD (← IO.rand 0 (characters.size - 1)) 'x')
  return drawn

/-- The time, in milliseconds, by the clock of the files. -/
def currentMillis : IO Int := do
  let (_, path) ← IO.FS.createTempFile
  let data ← path.metadata
  IO.FS.removeFile path
  return millis data.modified

/-- The surroundings of the program. -/
def surroundings : IO Surroundings := do
  let names := [Settings.rootVariable, Settings.outputVariable, Settings.threadsVariable]
  let values ← names.mapM fun name => do
    let value ← IO.getEnv name
    return (name, value)
  let now ← currentMillis
  return {
    environment := fun name => (values.lookup name).join
    date := (Calendar.Date.ofDays (now.fdiv 86400000).toNat).text
    suffix := ← drawSuffix 6
    now }

/-- The line that tells of a warning. -/
def warningLine (warning : Warning) : String :=
  let archive := (warning.archive?.map (" archive=" ++ ·)).getD ""
  let entry :=
    match warning.entry? with
    | some (name, error) => " entry=" ++ name ++ " error=" ++ error.message
    | none => ""
  "WARN " ++ warning.message ++ archive ++ entry

/-! ## Commands -/

/-- Prints how a command ends. -/
def report (ending : Ending) : IO UInt32 := do
  IO.print ending.output
  for line in ending.description.toList ++ ending.failure.toList do
    IO.eprintln line
  return ending.exitCode.toNat.toUInt32

/-- Writes a file, or says why it cannot be written. -/
def writeFile (tree : FileTree) (path : String) (content : ByteArray) :
    IO (Except FileError Unit) := do
  match (← addPath tree path).write path content 0 with
  | .error cause => return .error cause
  | .ok _ =>
    try
      IO.FS.writeBinFile path content
      return .ok ()
    catch error => return .error (fileError error)

/-- Writes the file of a report, where it is not printed. -/
def saveReport (tree : FileTree) (text : String) : Option String → IO (Except FileError Unit)
  | some path => writeFile tree path text.toUTF8
  | none => return .ok ()

/-- Plays a survey to its end, cancelling it when the clock shows the time `deadline`. -/
partial def survey (tree : FileTree) (deadline : Option Nat) (state : Survey.State) :
    IO Survey.State := do
  match state.next? with
  | none => return state
  | some move =>
    let now ← IO.monoMsNow
    let state := if deadline.any (· ≤ now) then { state with cancelled := true } else state
    let files ←
      match state.workers with
      | .inspecting path :: _ => addContent tree path
      | _ => pure tree
    match state.play Survey.sequential (Survey.inspect files) move with
    | none => return state
    | some next =>
      for warning in next.warnings.drop state.warnings.length do
        IO.eprintln (warningLine warning)
      survey tree deadline next

/-- Scans archives. -/
def runScan (around : Surroundings) (tree : FileTree) (options : ScanOptions) : IO UInt32 := do
  let started ← IO.monoMsNow
  match Scan.prepare around (← addInputs tree options.inputs) options with
  | .error failure => report (.failed failure)
  | .ok scan =>
    let path? := scan.path? around
    let created ← saveReport tree "" path?
    match created, scan.writer with
    | .error cause, _ => report (.failed (.uncreatableReport (path?.getD "") cause))
    | _, .error failure => report (.failed failure)
    | .ok (), .ok writer =>
      let deadline := scan.cancellation.timeLimit.map fun seconds => started + seconds * 1000
      let (text, result) ←
        if scan.isFeasible then
          let start := Survey.State.start scan.archives writer (scan.cancellation.holdsAfter 0)
          pure (scan.finish path? (← survey tree deadline start))
        else
          let (text, ending) := Scan.abandon path? writer
          pure (text, .ok ending)
      let written ← saveReport tree text path?
      match written, result with
      | .error cause, _ => report (.failed (.report (.io cause.message)))
      | _, .error failure => report (.failed failure)
      | .ok (), .ok ending => report ending

/-- Gathers the classes of archives. -/
def runGraph (around : Surroundings) (tree : FileTree) (options : GraphOptions) : IO UInt32 := do
  let listed ← addInputs tree options.inputs
  let mut files := listed
  for archive in (Finder.find listed options.filter options.inputs).toOption.getD [] do
    files ← addContent files archive
  for path in options.output.toList do
    files ← addPath files path
  match Command.runGraph around files options, options.output with
  | .error failure, _ => report (.failed failure)
  | .ok (_, ending), none => report ending
  | .ok (after, ending), some path =>
    let content := (after.contentOf path).toOption.getD ByteArray.empty
    let written ← writeFile tree path content
    match written with
    | .ok () => report ending
    | .error cause => report (.failed (.graphFile (.unwritable path cause)))

/-- Does what an invocation asks for. -/
def perform (around : Surroundings) (tree : FileTree) (invocation : Invocation) : IO UInt32 := do
  match Settings.threads around.environment invocation.threads with
  | .error error => report (.failed (.settings error))
  | .ok _ =>
    let named :=
      match invocation.command with
      | .read path _ => [path]
      | .closure paths _ => paths
      | _ => []
    match invocation.command with
    | .scan options => runScan around tree options
    | .graph options => runGraph around tree options
    | _ =>
      let mut files := tree
      for path in named do
        files ← addContent files path
      match invoke around files invocation with
      | .ok (_, ending) => report ending
      | .error failure => report (.failed failure)

end JarSurvey.Main

/-- Answers a command line. -/
def main (arguments : List String) : IO UInt32 := do
  match JarSurvey.CommandLine.parse arguments with
  | .error error =>
    let ending := JarSurvey.Command.usageEnding error
    if ending.exitCode ≠ 0 then
      for line in JarSurvey.Command.helpLines do
        IO.eprintln line
    JarSurvey.Main.report ending
  | .ok invocation =>
    let directory ← IO.currentDir
    let place := JarSurvey.Main.placeFrom [] directory.toString
    let tree := JarSurvey.FileTree.addDirectory ⟨place, []⟩ place
    JarSurvey.Main.perform (← JarSurvey.Main.surroundings) tree invocation
