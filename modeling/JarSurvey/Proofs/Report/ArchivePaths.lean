import JarSurvey.Proofs.Path
import JarSurvey.Proofs.Report.Writer

/-!
# Paths in a report tell archives apart

A report gives an archive by what is left of its path below the root.  The root is cut off the text of the path, but
it is found by its components: `/repo` is no root of `/repository`, and it makes no difference how the slashes and dots
between components are written.  So **the components of the root and those of the written text are together the
components of the path** (`components_relativePath`), and what is written tells the archives below a root apart.

What is left holds no characters but those of its names, and slashes and dots, so a path that is below the root can be
written if these names can (`isWritable_of_components`).
-/

namespace JarSurvey.Report

open JarSurvey.Path

/-- The path that a report with this root gives for an archive, if it fits on a line. -/
def reportPath (root : Option String) (path : String) : Except Error String :=
  if isWritable (relativePath root path) then .ok (relativePath root path)
  else .error (.unwritablePath (relativePath root path))

lemma reportPath_eq_ok_iff {root : Option String} {path text : String} :
    reportPath root path = .ok text ↔ relativePath root path = text ∧ isWritable text = true := by
  rw [reportPath]
  split_ifs with h
  · rw [Except.ok.injEq]
    exact ⟨fun heq => ⟨heq, heq ▸ h⟩, And.left⟩
  · simp only [false_iff, not_and]
    rintro rfl
    exact h

/-- A row is offered to the sink with its path given by `text`. -/
def Writer.offerAs (writer : Writer) (row : Row) (text : String) : Writer × Except Error Unit :=
  let line := formatLine Schema.current row.record text row.usage
  if writer.sink.accepts writer.sink.offered writer.sink.taken line then
    ({ writer with sink := writer.sink.took line, summary := writer.summary.add row }, .ok ())
  else ({ writer with sink := writer.sink.refused }, .error (.io writer.sink.refusal))

lemma write_of_reportPath_ok {writer : Writer} {row : Row} {text : String}
    (h : reportPath writer.root row.record.path = .ok text) : writer.write row = writer.offerAs row text := by
  obtain ⟨rfl, hwritable⟩ := reportPath_eq_ok_iff.mp h
  rw [Writer.write, if_pos hwritable, Sink.offer, Writer.offerAs]
  split_ifs <;> rfl

lemma write_of_reportPath_error {writer : Writer} {row : Row} {error : Error}
    (h : reportPath writer.root row.record.path = .error error) : writer.write row = (writer, .error error) := by
  rw [reportPath] at h
  split_ifs at h with hwritable
  cases h
  rw [Writer.write, if_neg hwritable]

/-! ## Below the root -/

lemma components_relativePath {root path : String} (h : components root <+: components path) :
    components root ++ components (relativePath (some root) path) = components path := by
  rcases relativeTo?_spec root path with ⟨left, hleft, heq⟩ | ⟨-, hnot⟩
  · rw [relativePath, hleft, Option.getD_some, heq]
  · exact absurd h hnot

lemma relativePath_of_not_below {root path : String} (h : ¬ components root <+: components path) :
    relativePath (some root) path = path := by
  rcases relativeTo?_spec root path with ⟨left, -, heq⟩ | ⟨hnone, -⟩
  · exact absurd ⟨_, heq.symm⟩ h
  · rw [relativePath, hnone, Option.getD_none]

lemma isWritable_of_components {path : String}
    (h : ∀ name, Component.normal name ∈ components path → isWritable name = true) : isWritable path = true := by
  rw [isWritable_iff]
  intro c hc
  rcases mem_components hc with rfl | rfl | ⟨name, hname, hmem⟩
  · decide
  · decide
  · exact isWritable_iff.mp (h name hname) c hmem

/-- **The paths in a report tell the archives below its root apart.**

* An archive below the root can be written if the names that follow the root can, and the written text has the
  components that follow those of the root.
* Two archives below the root that are written with the same text have the same components.
* The path of an archive that is not below the root is not changed.
* A writer writes the path so, or refuses the row for its path. -/
theorem report_paths_identify (root : String) :
    (∀ path rest, components path = components root ++ rest →
      (∀ name, Component.normal name ∈ rest → isWritable name = true) →
      ∃ text, reportPath (some root) path = .ok text ∧ components root ++ components text = components path) ∧
    (∀ path other text, components root <+: components path → components root <+: components other →
      reportPath (some root) path = .ok text → reportPath (some root) other = .ok text →
      components path = components other) ∧
    (∀ path, ¬ components root <+: components path → reportPath (some root) path =
      if isWritable path then .ok path else .error (.unwritablePath path)) ∧
    (∀ (writer : Writer) (row : Row), writer.root = some root →
      (∀ text, reportPath (some root) row.record.path = .ok text → writer.write row = writer.offerAs row text) ∧
      (∀ error, reportPath (some root) row.record.path = .error error →
        writer.write row = (writer, .error error))) := by
  refine ⟨?_, ?_, ?_, ?_⟩
  · intro path rest hpath hnames
    have hcomponents := components_relativePath ⟨rest, hpath.symm⟩
    have hrest : components (relativePath (some root) path) = rest :=
      List.append_cancel_left (hcomponents.trans hpath)
    have hwritable : isWritable (relativePath (some root) path) = true :=
      isWritable_of_components (by rwa [hrest])
    exact ⟨_, reportPath_eq_ok_iff.mpr ⟨rfl, hwritable⟩, hcomponents⟩
  · intro path other text hpath hother htext htext'
    obtain ⟨hsame, -⟩ := reportPath_eq_ok_iff.mp htext
    obtain ⟨hsame', -⟩ := reportPath_eq_ok_iff.mp htext'
    rw [← components_relativePath hpath, ← components_relativePath hother, hsame, hsame']
  · intro path hnot
    rw [reportPath, relativePath_of_not_below hnot]
  · rintro writer row hroot
    rw [← hroot]
    exact ⟨fun text => write_of_reportPath_ok, fun error => write_of_reportPath_error⟩

/-- A root with a slash at its end, and a path with slashes, dots and a step back that say nothing or stay. -/
theorem report_paths_identify_steps :
    components "/repo/" ++ [.normal "lib", .parent, .normal "a.jar"] = components "/repo//./lib/../a.jar/." ∧
    (∃ text, reportPath (some "/repo/") "/repo//./lib/../a.jar/." = .ok text ∧
      components "/repo/" ++ components text = components "/repo//./lib/../a.jar/.") := by
  have hbelow : components "/repo/" ++ [.normal "lib", .parent, .normal "a.jar"] =
      components "/repo//./lib/../a.jar/." := by
    decide
  refine ⟨hbelow, (report_paths_identify _).1 _ _ hbelow.symm ?_⟩
  simp only [List.mem_cons, List.not_mem_nil, or_false, Component.normal.injEq, reduceCtorEq, false_or]
  rintro name (rfl | rfl) <;> decide

end JarSurvey.Report
