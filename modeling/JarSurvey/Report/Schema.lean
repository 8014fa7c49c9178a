import JarSurvey.Digest.Sha1
import JarSurvey.Namespace

/-!
# Layouts of reports

A report is a text of lines with columns divided by tabs.  Its first line is a *heading* that names the
columns, and the digest of the heading tells the version of the layout.  Later versions record more about
an archive; the counts at the end of a line are the same in all of them.
-/

namespace JarSurvey.Report

/-- The columns in front of the counts. -/
inductive Column where
  | sha1
  | lastModified
  | internalTimestamp
  | size
  | classCount
  | bytecodeVersions
  | path
  deriving DecidableEq, Repr

/-- The name of a column in the heading. -/
def Column.name : Column → String
  | sha1 => "sha1"
  | lastModified => "last_modified"
  | internalTimestamp => "internal_timestamp"
  | size => "size"
  | classCount => "class_count"
  | bytecodeVersions => "bytecode_versions"
  | path => "path"

/-- The versions of the layout. -/
inductive Schema where
  | v5
  | v6
  | v7
  deriving DecidableEq, Repr

namespace Schema

/-- Every version, oldest first. -/
def all : List Schema := [v5, v6, v7]

/-- The version that is written. -/
def current : Schema := v7

/-- The number of the version. -/
def version : Schema → Nat
  | v5 => 5
  | v6 => 6
  | v7 => 7

/-- The columns in front of the counts. -/
def columns : Schema → List Column
  | v5 => [.sha1, .lastModified, .internalTimestamp, .path]
  | v6 => [.sha1, .lastModified, .internalTimestamp, .size, .classCount, .path]
  | v7 => [.sha1, .lastModified, .internalTimestamp, .size, .classCount, .bytecodeVersions, .path]

/-- The layout with a version number. -/
def ofVersion? (version : Nat) : Option Schema :=
  all.find? (·.version == version)

/-- The texts of a line with tabs between them. -/
def joinFields (fields : List String) : String :=
  "\t".intercalate fields

/-- The heading: the columns, the totals of the two families, and the namespaces. -/
def heading (schema : Schema) : String :=
  joinFields (schema.columns.map Column.name ++ [Family.javax.label, Family.jakarta.label] ++
    Namespace.all.map Namespace.name)

/-- The digest of the heading. -/
def headingHash (schema : Schema) : String :=
  Digest.Sha1.ofText schema.heading

/-- The number of columns of a line. -/
def fieldCount (schema : Schema) : Nat :=
  schema.columns.length + 2 + Namespace.all.length

/-- The layout whose heading has a digest. -/
def ofHash? (hash : String) : Option Schema :=
  all.find? (·.headingHash == hash)

/-- The layout whose heading has the digest of `line`, or else that digest. -/
def detect (line : String) : Except String Schema :=
  (ofHash? (Digest.Sha1.ofText line)).elim (.error (Digest.Sha1.ofText line)) .ok

end Schema

end JarSurvey.Report
