import JarSurvey.Text.Quoted

/-!
# Why a report fails

The causes for which a report cannot be read or written.
-/

namespace JarSurvey.Report

/-- The causes for which a report cannot be read or written. -/
inductive Error where
  /-- The place of the report refuses to be read or written, for the given reason. -/
  | io (reason : String)
  | missingHeading
  /-- No layout has a heading with this digest. -/
  | unsupportedVersion (hash : String)
  /-- The path would break up the line it stands on. -/
  | unwritablePath (path : String)
  deriving DecidableEq, Repr

/-- The sentence that describes the cause. -/
def Error.message : Error → String
  | io reason => s!"report I/O failed: {reason}"
  | missingHeading => "report has no heading line"
  | unsupportedVersion hash => s!"unsupported report version (heading hash {hash})"
  | unwritablePath path => s!"archive path cannot be written to a report: {Text.Quoted.encode path}"

end JarSurvey.Report
