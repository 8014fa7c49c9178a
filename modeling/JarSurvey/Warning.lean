import JarSurvey.ClassFile.Error

/-!
# Warnings

What a survey passes over it reports as a `Warning`, and goes on.
-/

namespace JarSurvey

/-- Something that was passed over. -/
inductive Warning where
  /-- A class that cannot be read, by its archive and its entry. -/
  | unparseableClass (archive entry : String) (error : ClassFile.FormatError)
  /-- An archive inside of too many archives. -/
  | nestingTooDeep (archive : String)
  /-- An archive inside of another that cannot be read. -/
  | unreadableNested (archive : String)
  | unreadableArchive (archive : String)
  /-- An archive on which the reader gave up. -/
  | abandonedArchive (archive : String)
  /-- An archive whose path does not fit on a line of a report. -/
  | unwritablePath (path : String)
  /-- The survey was interrupted. -/
  | interrupted
  /-- Interrupts cannot be waited for. -/
  | uninterruptible
  deriving DecidableEq, Repr

namespace Warning

/-- The sentence that describes the warning. -/
def message : Warning → String
  | unparseableClass _ _ _ => "skipping unparseable class"
  | nestingTooDeep _ => "skipping nested archive: nesting too deep"
  | unreadableNested _ => "skipping unreadable nested archive"
  | unreadableArchive _ => "skipping unreadable archive"
  | abandonedArchive _ => "skipping archive: scanner panicked"
  | unwritablePath _ => "skipping archive with unwritable path"
  | interrupted => "interrupted, finishing archives already started"
  | uninterruptible => "cannot listen for interrupts"

/-- The archive that the warning is about. -/
def archive? : Warning → Option String
  | unparseableClass archive _ _ => some archive
  | nestingTooDeep archive => some archive
  | unreadableNested archive => some archive
  | unreadableArchive archive => some archive
  | abandonedArchive archive => some archive
  | unwritablePath path => some path
  | interrupted => none
  | uninterruptible => none

/-- The entry and the error of a class that cannot be read. -/
def entry? : Warning → Option (String × ClassFile.FormatError)
  | unparseableClass _ entry error => some (entry, error)
  | _ => none

end Warning

end JarSurvey
