import JarSurvey.Archive
import JarSurvey.Report.Schema

/-!
# Rows and totals

A row of a report is an archive with its usage of namespaces, and a `Summary` is the running total of rows.
-/

namespace JarSurvey.Report

/-- An archive with its usage of namespaces. -/
structure Row where
  record : ArchiveRecord
  usage : Usage
  deriving DecidableEq, Repr

/-- The total of some rows. -/
structure Summary where
  archives : Nat
  /-- The archives that mention the legacy family. -/
  legacyArchives : Nat
  classes : Nat
  bytes : Nat
  usage : Usage
  deriving DecidableEq, Repr

namespace Summary

/-- The total of no rows. -/
def empty : Summary := ⟨0, 0, 0, 0, Usage.empty⟩

instance : Inhabited Summary := ⟨empty⟩

/-- Adds a row.  Sizes and counts that are not known count nothing. -/
def add (summary : Summary) (row : Row) : Summary where
  archives := summary.archives + 1
  legacyArchives := summary.legacyArchives + (if 0 < row.usage.javax then 1 else 0)
  classes := summary.classes + row.record.classCount.toNat
  bytes := summary.bytes + row.record.size.toNat
  usage := summary.usage.merge row.usage

/-- The total of a list of rows. -/
def ofRows (rows : List Row) : Summary :=
  rows.foldl add empty

/-- How many of a hundred archives mention the legacy family, rounded down. -/
def legacyPercent (summary : Summary) : Nat :=
  if summary.archives = 0 then 0 else summary.legacyArchives * 100 / summary.archives

/-- The sentence that sums up the total. -/
def describe (summary : Summary) : String :=
  s!"{summary.legacyPercent}% ({summary.legacyArchives} of {summary.archives} archives " ++
    "use a legacy namespace)"

end Summary

end JarSurvey.Report
