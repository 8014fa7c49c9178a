import JarSurvey.Proofs.Report.Heading
import JarSurvey.Proofs.Report.Line

/-!
# Reading a report undoes writing it

`writeReport` writes a whole report: its heading, a line for each row, and the summary.  Every piece is a line
with its newline, so the bytes of the report are cut into the same lines again (`lines_encode`); the heading
is recognised, each row comes back from its line, and the summary gives no row.

**`report_round_trip`** says what comes back from the bytes of a report: the version, the rows in their order
with the paths that were written, no line that cannot be read, and the summary that the writer gave.
-/

namespace JarSurvey.Report

open Text.Utf8

/-! ## Lines -/

/-- The text of a line with its newline. -/
def terminated (text : String) : String :=
  text ++ "\n"

lemma trimLineEnd_terminated {text : String} (h : ∀ c ∈ text.toList, c ≠ '\n' ∧ c ≠ '\r') :
    trimLineEnd (terminated text) = text := by
  have hlast : text.toList.reverse.dropWhile (fun c => decide (c = '\n' ∨ c = '\r')) =
      text.toList.reverse := by
    cases hreverse : text.toList.reverse with
    | nil => rfl
    | cons c cs =>
        have hc : c ∈ text.toList := by
          rw [← List.mem_reverse, hreverse]
          exact List.mem_cons_self
        rw [List.dropWhile_cons_of_neg]
        simpa using h c hc
  rw [trimLineEnd, terminated, String.toList_append, List.reverse_append]
  show String.ofList (('\n' :: text.toList.reverse).dropWhile _).reverse = text
  rw [List.dropWhile_cons_of_pos (by decide), hlast, List.reverse_reverse]
  exact String.ofList_toList

lemma cutLines_append {seen bytes rest : List UInt8} (h : newline ∉ bytes) :
    cutLines seen (bytes ++ newline :: rest) =
      ((seen.reverse ++ bytes ++ [newline]) :: (cutLines [] rest).1, (cutLines [] rest).2) := by
  induction bytes generalizing seen with
  | nil =>
      rw [List.nil_append, cutLines, if_pos rfl]
      simp
  | cons byte bytes ih =>
      rw [List.mem_cons, not_or] at h
      rw [List.cons_append, cutLines, if_neg (Ne.symm h.1), ih h.2]
      simp

/-- The bytes of a line with its newline. -/
def IsTerminated (line : List UInt8) : Prop :=
  ∃ body, newline ∉ body ∧ line = body ++ [newline]

lemma cutLines_of_not_mem {seen bytes : List UInt8} (h : newline ∉ bytes) :
    cutLines seen bytes = ([], seen.reverse ++ bytes) := by
  induction bytes generalizing seen with
  | nil => rw [cutLines, List.append_nil]
  | cons byte bytes ih =>
      rw [List.mem_cons, not_or] at h
      rw [cutLines, if_neg (Ne.symm h.1), ih h.2]
      simp

/-- **Lines that are put together are cut apart again.** -/
lemma cutLines_flatten {lines : List (List UInt8)} {last : List UInt8}
    (hlines : ∀ line ∈ lines, IsTerminated line) (hlast : newline ∉ last) :
    cutLines [] (lines.flatten ++ last) = (lines, last) := by
  induction lines with
  | nil => exact cutLines_of_not_mem hlast
  | cons line lines ih =>
      rw [List.forall_mem_cons] at hlines
      obtain ⟨⟨body, hbody, rfl⟩, hlines⟩ := hlines
      rw [List.flatten_cons, List.append_assoc, List.append_assoc, List.singleton_append,
        cutLines_append hbody, ih hlines]
      simp

/-- **What bytes are cut into**: lines with their newlines, and a rest without one. -/
lemma cutLines_spec {seen bytes : List UInt8} (hseen : newline ∉ seen) :
    (cutLines seen bytes).1.flatten ++ (cutLines seen bytes).2 = seen.reverse ++ bytes ∧
      (∀ line ∈ (cutLines seen bytes).1, IsTerminated line) ∧ newline ∉ (cutLines seen bytes).2 := by
  induction bytes generalizing seen with
  | nil => simpa [cutLines] using hseen
  | cons byte bytes ih =>
      rw [cutLines]
      split_ifs with hbyte
      · obtain ⟨hflatten, hlines, hlast⟩ := @ih [] List.not_mem_nil
        refine ⟨?_, List.forall_mem_cons.mpr ⟨⟨seen.reverse, by simpa using hseen, ?_⟩, hlines⟩, hlast⟩
        · rw [List.flatten_cons, List.append_assoc, hflatten]
          simp
        · rw [hbyte, List.reverse_cons]
      · obtain ⟨hflatten, hpieces⟩ := @ih (byte :: seen) (by simp [hseen, Ne.symm hbyte])
        refine ⟨?_, hpieces⟩
        rw [hflatten]
        simp

/-- **The bytes of lines are cut into the lines.** -/
lemma lines_encode {texts : List String} (h : ∀ text ∈ texts, ∀ c ∈ text.toList, c ≠ '\n' ∧ c ≠ '\r') :
    Source.lines ⟨texts.flatMap (fun text => encode (terminated text)), none⟩ =
      texts.map fun text => encode (terminated text) := by
  have hterminated : ∀ line ∈ texts.map (fun text => encode (terminated text)), IsTerminated line := by
    intro line hline
    obtain ⟨text, htext, rfl⟩ := List.mem_map.mp hline
    exact ⟨encode text, fun hmem => (h text htext '\n' ((mem_encode_iff (by decide)).mp hmem)).1 rfl,
      encode_append text "\n"⟩
  have hcut := cutLines_flatten hterminated List.not_mem_nil
  rw [List.append_nil, ← List.flatMap_def] at hcut
  rw [Source.lines, hcut]
  simp

/-- What a line comes to if it can be read. -/
lemma readLine_terminated {schema : Schema} {text : String} {row : Option Row}
    (h : ∀ c ∈ text.toList, c ≠ '\n' ∧ c ≠ '\r') (hne : text ≠ "") (hrow : parseLine schema text = .ok row) :
    readLine schema (encode (terminated text)) = .ok row := by
  rw [readLine, decode_encode]
  simp only [trimLineEnd_terminated h, if_neg hne, hrow]

/-! ## Writing a whole report -/

/-- Writes rows, up to the first that cannot be written. -/
def writeRows (writer : Writer) : List Row → Except Error Writer
  | [] => .ok writer
  | row :: rows =>
    match writer.write row with
    | (writer, .ok ()) => writeRows writer rows
    | (_, .error error) => .error error

/-- Writes a whole report: its text and its summary. -/
def writeReport (root : Option String) (rows : List Row) : Except Error (String × Summary) := do
  let writer ← Writer.start Sink.unlimited root
  let writer ← writeRows writer rows
  match writer.finish with
  | (writer, .ok summary) => return (writer.sink.text, summary)
  | (_, .error error) => throw error

/-- The text of the line of a row, without its newline. -/
def rowText (root : Option String) (row : Row) : String :=
  Schema.joinFields (lineFields .v7 row.record (relativePath root row.record.path) row.usage)

/-- The text of the summary line, without its newline. -/
def summaryText (summary : Summary) : String :=
  Schema.joinFields (lineFields .v7 (summaryRecord summary) summary.describe summary.usage)

/-- A sink that takes everything takes the lines of the rows, one after the other. -/
lemma writeRows_eq {writer : Writer} {rows : List Row}
    (hsink : ∀ offered taken piece, writer.sink.accepts offered taken piece = true)
    (hpath : ∀ row ∈ rows, isWritable (relativePath writer.root row.record.path) = true) :
    ∃ final, writeRows writer rows = .ok final ∧
      final.sink.taken = writer.sink.taken ++ rows.map (fun row => terminated (rowText writer.root row)) ∧
      (∀ offered taken piece, final.sink.accepts offered taken piece = true) ∧
      final.summary = rows.foldl Summary.add writer.summary := by
  induction rows generalizing writer with
  | nil => exact ⟨writer, rfl, by simp, hsink, rfl⟩
  | cons row rows ih =>
      rw [List.forall_mem_cons] at hpath
      have hwrite : writer.write row = ({ writer with
          sink := { writer.sink with
            taken := writer.sink.taken ++ [terminated (rowText writer.root row)]
            offered := writer.sink.offered + 1 }
          summary := writer.summary.add row }, .ok ()) := by
        simp only [Writer.write, if_pos hpath.1, Sink.offer, hsink, if_true]
        rfl
      obtain ⟨final, hrows, htaken, haccepts, hsummary⟩ := @ih (writer.write row).1
        (by rw [hwrite]; exact hsink) (by rw [hwrite]; exact hpath.2)
      rw [hwrite] at hrows htaken hsummary
      refine ⟨final, ?_, ?_, haccepts, hsummary⟩
      · rw [writeRows, hwrite]
        exact hrows
      · rw [htaken]
        simp

/-- A sink that takes everything takes the heading. -/
lemma start_unlimited (root : Option String) :
    Writer.start Sink.unlimited root =
      .ok ⟨⟨[terminated Schema.v7.heading], 1, fun _ _ _ => true, ""⟩, root, Summary.empty⟩ := by
  simp only [Writer.start, Sink.offer, Sink.unlimited, if_true, List.nil_append]
  rfl

/-- The text of a report is its heading, its rows and its summary. -/
lemma writeReport_eq {root : Option String} {rows : List Row}
    (hpath : ∀ row ∈ rows, isWritable (relativePath root row.record.path) = true) :
    writeReport root rows = .ok
      (String.join ((Schema.v7.heading :: (rows.map (rowText root) ++
        [summaryText (Summary.ofRows rows)])).map terminated), Summary.ofRows rows) := by
  obtain ⟨final, hrows, htaken, haccepts, hsummary⟩ :=
    @writeRows_eq ⟨⟨[terminated Schema.v7.heading], 1, fun _ _ _ => true, ""⟩, root, Summary.empty⟩ rows
      (fun _ _ _ => rfl) hpath
  have hfinish : final.finish = ({ final with
      sink := { final.sink with
        taken := final.sink.taken ++ [terminated (summaryText final.summary)]
        offered := final.sink.offered + 1 } }, .ok final.summary) := by
    simp only [Writer.finish, Sink.offer, haccepts, if_true]
    rfl
  rw [writeReport, start_unlimited]
  show (writeRows _ rows >>= _) = _
  rw [hrows]
  show (match final.finish with
    | (writer, .ok summary) => pure (writer.sink.text, summary)
    | (_, .error error) => throw error) = _
  rw [hfinish]
  simp only [Sink.text, htaken, hsummary]
  simp only [List.map_append, List.map_cons, List.map_map, Function.comp_def]
  rfl

/-! ## Reading it back -/

/-- A row with the path that is written for it. -/
def Row.relative (root : Option String) (row : Row) : Row :=
  { row with record := { row.record with path := relativePath root row.record.path } }

lemma isLine_rowText {root : Option String} {row : Row} (h : row.Fits)
    (hpath : isWritable (relativePath root row.record.path) = true) :
    ∀ c ∈ (rowText root row).toList, c ≠ '\n' ∧ c ≠ '\r' :=
  isLine_joinFields fun _ => isWritable_of_mem_lineFields h.isWritable_sha1 hpath

lemma isLine_summaryText (summary : Summary) :
    ∀ c ∈ (summaryText summary).toList, c ≠ '\n' ∧ c ≠ '\r' :=
  isLine_joinFields fun _ =>
    isWritable_of_mem_lineFields isWritable_summaryHash (isWritable_describe summary)

/-- **The line of a row gives back the row**, with the path that was written. -/
lemma readLine_rowText {root : Option String} {row : Row} (h : row.Fits)
    (hpath : isWritable (relativePath root row.record.path) = true) :
    readLine .v7 (encode (terminated (rowText root row))) = .ok (some (row.relative root)) :=
  readLine_terminated (isLine_rowText h hpath) (joinFields_ne_empty h.isWritable_sha1 hpath)
    (parseLine_format h hpath)

/-- **The lines behind the heading give back the rows.** -/
lemma readLines_encode {root : Option String} {rows : List Row} (summary : Summary)
    (hfits : ∀ row ∈ rows, row.Fits)
    (hpath : ∀ row ∈ rows, isWritable (relativePath root row.record.path) = true) (number : Nat) :
    Reading.readLines .v7 number ((rows.map (rowText root) ++ [summaryText summary]).map
      fun text => encode (terminated text)) = (rows.map (Row.relative root), []) := by
  induction rows generalizing number with
  | nil =>
      have hread : readLine .v7 (encode (terminated (summaryText summary))) = .ok none :=
        readLine_terminated (isLine_summaryText summary)
          (joinFields_ne_empty isWritable_summaryHash (isWritable_describe summary))
          (parseLine_summary summary)
      simp only [List.map_nil, List.nil_append, List.map_cons, Reading.readLines, hread]
  | cons row rows ih =>
      rw [List.forall_mem_cons] at hfits hpath
      rw [List.map_cons, List.cons_append, List.map_cons, Reading.readLines, ih hfits.2 hpath.2]
      simp only [readLine_rowText hfits.1 hpath.1, List.map_cons]

/-- What is read of lines of which the first is a heading. -/
lemma ofSource_eq {source : Source} {heading : String} {schema : Schema} {lines : List (List UInt8)}
    (hlines : source.lines = encode (terminated heading) :: lines)
    (hline : ∀ c ∈ heading.toList, c ≠ '\n' ∧ c ≠ '\r') (hdetect : Schema.detect heading = .ok schema) :
    Reading.ofSource source = .ok ⟨schema, (Reading.readLines schema 2 lines).1,
      (Reading.readLines schema 2 lines).2, source.failure.map .io⟩ := by
  rw [Reading.ofSource, hlines]
  dsimp only
  rw [decodeLossy_encode, trimLineEnd_terminated hline, hdetect]
  rfl

lemma foldl_add_relative (root : Option String) (rows : List Row) (summary : Summary) :
    (rows.map (Row.relative root)).foldl Summary.add summary = rows.foldl Summary.add summary := by
  rw [List.foldl_map]
  rfl

/-- **Round trip of reports.**  The bytes of a report whose rows fit on lines are read as a report of version
seven.  No line of it is malformed, its rows are those that were written, in order and equal but for the path,
which is the one relative to the root, and their total is the summary that the writer gave. -/
theorem report_round_trip (root : Option String) (rows : List Row) (hfits : ∀ row ∈ rows, row.Fits)
    (hpath : ∀ row ∈ rows, isWritable (relativePath root row.record.path) = true) :
    ∃ text summary reading, writeReport root rows = .ok (text, summary) ∧
      Reading.ofSource ⟨text.toUTF8.toList, none⟩ = .ok reading ∧
      reading.schema.version = 7 ∧ reading.malformed = [] ∧ reading.failure = none ∧
      reading.rows = rows.map (Row.relative root) ∧
      reading.rows.foldl Summary.add Summary.empty = summary := by
  have hlines : Source.lines ⟨(Schema.v7.heading :: (rows.map (rowText root) ++
      [summaryText (Summary.ofRows rows)])).flatMap (fun text => encode (terminated text)), none⟩ =
      (Schema.v7.heading :: (rows.map (rowText root) ++ [summaryText (Summary.ofRows rows)])).map
        fun text => encode (terminated text) := by
    refine lines_encode fun text htext => ?_
    simp only [List.mem_cons, List.mem_append, List.mem_map, List.not_mem_nil, or_false] at htext
    rcases htext with rfl | ⟨row, hrow, rfl⟩ | rfl
    · exact Schema.isLine_heading .v7
    · exact isLine_rowText (hfits row hrow) (hpath row hrow)
    · exact isLine_summaryText _
  have hread := ofSource_eq hlines (Schema.isLine_heading .v7) (Schema.detect_heading .v7)
  rw [readLines_encode _ hfits hpath] at hread
  refine ⟨_, _, ⟨.v7, rows.map (Row.relative root), [], none⟩, writeReport_eq hpath, ?_, rfl, rfl, rfl,
    rfl, foldl_add_relative root rows _⟩
  rw [toList_toUTF8, encode_join, List.flatMap_map]
  exact hread

/-- Two rows at the bounds of what fits: one below the root with the largest count, one elsewhere without
any. -/
def extremeRows : List Row :=
  [⟨{ path := "/data/b/é 😀.jar"
      sha1 := "da39a3ee5e6b4b0d3255bfef95601890afd80709"
      lastModified := Text.Decimal.minI64
      internalTimestamp := 0
      size := Text.Decimal.maxI64
      classCount := -1
      bytecodeVersions := [0, 52, 65535] },
      Usage.empty.add ⟨.servlet, .javax⟩ Text.Decimal.maxU64⟩,
    ⟨{ path := "elsewhere.jar"
       sha1 := "0000000000000000000000000000000000000001"
       lastModified := 1
       internalTimestamp := -1
       size := 0
       classCount := 0
       bytecodeVersions := [] }, Usage.empty⟩]

lemma extremeRows_fit : ∀ row ∈ extremeRows, row.Fits := by
  rw [extremeRows, List.forall_mem_cons, List.forall_mem_singleton]
  refine ⟨⟨by decide, by decide, by decide, by decide, by decide, by decide, by decide, by decide,
    fun ns => ?_, by decide, by decide⟩, ⟨by decide, by decide, by decide, by decide, by decide,
    by decide, by decide, by decide, fun ns => Nat.zero_le _, by decide, by decide⟩⟩
  show (Usage.empty.add ⟨.servlet, .javax⟩ Text.Decimal.maxU64).get ns ≤ Text.Decimal.maxU64
  rw [Usage.get_add, Usage.get_empty]
  split_ifs <;> decide

lemma extremeRows_writable :
    ∀ row ∈ extremeRows, isWritable (relativePath (some "/data") row.record.path) = true := by
  decide

theorem report_round_trip_extreme :
    (∀ row ∈ extremeRows, row.Fits) ∧
    (∀ row ∈ extremeRows, isWritable (relativePath (some "/data") row.record.path) = true) ∧
    ∃ text summary reading, writeReport (some "/data") extremeRows = .ok (text, summary) ∧
      Reading.ofSource ⟨text.toUTF8.toList, none⟩ = .ok reading ∧
      reading.schema.version = 7 ∧ reading.malformed = [] ∧ reading.failure = none ∧
      reading.rows = extremeRows.map (Row.relative (some "/data")) ∧
      reading.rows.foldl Summary.add Summary.empty = summary :=
  ⟨extremeRows_fit, extremeRows_writable,
    report_round_trip (some "/data") extremeRows extremeRows_fit extremeRows_writable⟩

end JarSurvey.Report
