import JarSurvey.Report.Row
import JarSurvey.Text.Decimal

/-!
# Lines of reports

`formatRow` writes a row as a line of a layout, and `parseLine` reads a line back.  A line whose digest
column holds nothing but zeros is the summary at the end of a report and gives no row.

Columns that a layout lacks read as unknown: minus one for sizes and counts, no versions.
-/

namespace JarSurvey.Report

/-- What stands for a size or a count that is not known. -/
def unknown : Int := -1

/-- The digest column of the summary line. -/
def summaryHash : String := String.ofList (List.replicate 40 '0')

/-! ## Writing -/

/-- The text of a column of a record, whose path is written as `path`. -/
def formatColumn (record : ArchiveRecord) (path : String) : Column → String
  | .sha1 => record.sha1
  | .lastModified => toString record.lastModified
  | .internalTimestamp => toString record.internalTimestamp
  | .size => toString record.size
  | .classCount => toString record.classCount
  | .bytecodeVersions => ",".intercalate (record.bytecodeVersions.map fun v => toString v.toNat)
  | .path => path

/-- The line of a record, whose path is written as `path`, with its usage. -/
def formatLine (schema : Schema) (record : ArchiveRecord) (path : String) (usage : Usage) : String :=
  Schema.joinFields (schema.columns.map (formatColumn record path) ++
    [toString usage.javax, toString usage.jakarta] ++
    usage.toList.map fun entry => toString entry.2) ++ "\n"

/-- The line at the end of a report, with the totals and their description in the place of a path. -/
def formatSummary (schema : Schema) (summary : Summary) : String :=
  formatLine schema {
    path := ""
    sha1 := summaryHash
    lastModified := 0
    internalTimestamp := 0
    size := min summary.bytes Text.Decimal.maxI64
    classCount := min summary.classes Text.Decimal.maxI64
    bytecodeVersions := [] } summary.describe summary.usage

/-! ## Reading -/

/-- Why a line cannot be read. -/
inductive LineError where
  | columnCount (expected found : Nat)
  | badHash (field : String)
  | badNumber (column : Column) (field : String)
  | badTotal (family : Family) (field : String)
  | badCount (field : String) (ns : Namespace)
  /-- The totals of the families are not the sums of the counts. -/
  | totalsDiffer
  deriving DecidableEq, Repr

/-- The sentence that describes the error. -/
def LineError.message : LineError → String
  | columnCount expected found => s!"expected {expected} columns, found {found}"
  | badHash field => s!"invalid sha1 `{field}`"
  | badNumber column field => s!"invalid {column.name} `{field}`"
  | badTotal family field => s!"invalid {family.label} total `{field}`"
  | badCount field ns => s!"invalid count `{field}` for {ns.name}"
  | totalsDiffer => "family totals do not match namespace counts"

/-- The texts between the separators of a text. -/
def splitAt (separator : Char) : List Char → List (List Char)
  | [] => [[]]
  | c :: rest =>
    if c = separator then [] :: splitAt separator rest
    else
      match splitAt separator rest with
      | part :: later => (c :: part) :: later
      | [] => [[c]]

/-- The fields of a text. -/
def fields (separator : Char) (text : String) : List String :=
  (splitAt separator text.toList).map String.ofList

/-- Whether a character is a hexadecimal digit, in either case. -/
def isHexDigit (c : Char) : Bool :=
  ('0' ≤ c && c ≤ '9') || ('a' ≤ c && c ≤ 'f') || ('A' ≤ c && c ≤ 'F')

/-- A record of which nothing is known. -/
def blankRecord : ArchiveRecord where
  path := ""
  sha1 := ""
  lastModified := 0
  internalTimestamp := 0
  size := unknown
  classCount := unknown
  bytecodeVersions := []

/-- Reads a signed number of a column. -/
def parseNumber (column : Column) (field : String) : Except LineError Int :=
  match Text.Decimal.intWithin? Text.Decimal.minI64 Text.Decimal.maxI64 field with
  | some n => .ok n
  | none => .error (.badNumber column field)

/-- Reads versions one after the other into the set of those `seen`; empty texts are passed over. -/
def parseVersions (seen : List UInt16) : List String → Except LineError (List UInt16)
  | [] => .ok seen
  | field :: later =>
    if field = "" then parseVersions seen later
    else
      match Text.Decimal.natUpTo? Text.Decimal.maxU16 field with
      | some n => parseVersions (Contents.insertVersion (UInt16.ofNat n) seen) later
      | none => .error (.badNumber .bytecodeVersions field)

/-- Reads a field into its place in a record. -/
def parseColumn (record : ArchiveRecord) (column : Column) (field : String) :
    Except LineError ArchiveRecord := do
  match column with
  | .sha1 =>
    if field.toList.length = 40 ∧ field.toList.all isHexDigit then
      return { record with sha1 := field.map Char.toLower }
    else throw (.badHash field)
  | .lastModified => return { record with lastModified := ← parseNumber column field }
  | .internalTimestamp => return { record with internalTimestamp := ← parseNumber column field }
  | .size => return { record with size := ← parseNumber column field }
  | .classCount => return { record with classCount := ← parseNumber column field }
  | .bytecodeVersions =>
    return { record with bytecodeVersions := ← parseVersions [] (fields ',' field) }
  | .path => return { record with path := field }

/-- Reads fields into the places of their columns. -/
def parseColumns (record : ArchiveRecord) : List (Column × String) →
    Except LineError ArchiveRecord
  | [] => .ok record
  | (column, field) :: later => do
    let record ← parseColumn record column field
    parseColumns record later

/-- Reads the total of a family. -/
def parseTotal (family : Family) (field : String) : Except LineError Nat :=
  match Text.Decimal.natUpTo? Text.Decimal.maxU64 field with
  | some n => .ok n
  | none => .error (.badTotal family field)

/-- Reads the counts of namespaces into a usage. -/
def parseCounts (usage : Usage) : List (Namespace × String) → Except LineError Usage
  | [] => .ok usage
  | (ns, field) :: later =>
    match Text.Decimal.natUpTo? Text.Decimal.maxU64 field with
    | some n => parseCounts (usage.add ns n) later
    | none => .error (.badCount field ns)

/-- Reads the totals and the counts at the end of a line. -/
def parseUsage (javaxField jakartaField : String) (counts : List String) :
    Except LineError Usage := do
  let javax ← parseTotal .javax javaxField
  let jakarta ← parseTotal .jakarta jakartaField
  let usage ← parseCounts Usage.empty (Namespace.all.zip counts)
  if usage.javax = javax ∧ usage.jakarta = jakarta then return usage else throw .totalsDiffer

/-- Reads a line; the summary line gives no row. -/
def parseLine (schema : Schema) (line : String) : Except LineError (Option Row) := do
  let fs := fields '\t' line
  if fs.length ≠ schema.fieldCount then throw (.columnCount schema.fieldCount fs.length)
  else if fs.head? = some summaryHash then return none
  else
    let record ← parseColumns blankRecord (schema.columns.zip fs)
    match fs.drop schema.columns.length with
    | javaxField :: jakartaField :: counts =>
      let usage ← parseUsage javaxField jakartaField counts
      return some ⟨record, usage⟩
    | _ => throw (.columnCount schema.fieldCount fs.length)

end JarSurvey.Report
