import JarSurvey.Proofs.Report.Upgrade

/-!
# Each line of a report is read on its own

A reader that goes on behind a line it cannot read is of use only if that line does no harm to the others.

* `lines_append` — bytes that end with a newline are cut into lines as if nothing followed them;
* `readLines_append`, `readLines_shift` — lines are read one by one, and what came before changes nothing but
  the numbers of the lines that cannot be read;
* `mem_malformed_iff` — such a number is the **place of the line in the file** (`Source.IsLine`).

**`reading_local`** puts these together: a report is read as the sum of its parts, and a source that fails in the
middle of a line gives what stands on the complete lines before it.
-/

namespace JarSurvey.Report

open Text.Utf8

/-! ## Cutting -/

/-- Bytes all of whose lines have their newlines. -/
def WholeLines (bytes : List UInt8) : Prop :=
  bytes = [] ∨ bytes.getLast? = some newline

lemma cutLines_nil_seen (bytes : List UInt8) :
    bytes = (cutLines [] bytes).1.flatten ++ (cutLines [] bytes).2 ∧
      (∀ line ∈ (cutLines [] bytes).1, IsTerminated line) ∧ newline ∉ (cutLines [] bytes).2 := by
  obtain ⟨hflatten, hpieces⟩ := @cutLines_spec [] bytes List.not_mem_nil
  exact ⟨hflatten.symm, hpieces⟩

/-- Whole lines leave no rest. -/
lemma WholeLines.cut_rest {bytes : List UInt8} (h : WholeLines bytes) : (cutLines [] bytes).2 = [] := by
  obtain ⟨hbytes, -, hlast⟩ := cutLines_nil_seen bytes
  by_contra hne
  rcases h with rfl | hnewline
  · exact hne rfl
  · rw [hbytes, List.getLast?_append_of_ne_nil _ hne] at hnewline
    exact hlast (List.mem_of_getLast? hnewline)

lemma WholeLines.flatten {lines : List (List UInt8)} (h : ∀ line ∈ lines, IsTerminated line) :
    WholeLines lines.flatten := by
  rcases List.eq_nil_or_concat lines with rfl | ⟨front, line, rfl⟩
  · exact Or.inl rfl
  · obtain ⟨body, -, rfl⟩ := h line (by simp)
    exact Or.inr (by simp)

/-- **Whole lines are cut as if nothing followed them.** -/
lemma WholeLines.cut_append {bytes : List UInt8} (h : WholeLines bytes) (later : List UInt8) :
    cutLines [] (bytes ++ later) =
      ((cutLines [] bytes).1 ++ (cutLines [] later).1, (cutLines [] later).2) := by
  obtain ⟨hbytes, hlines, -⟩ := cutLines_nil_seen bytes
  obtain ⟨hlater, hlaterLines, hlast⟩ := cutLines_nil_seen later
  rw [h.cut_rest, List.append_nil] at hbytes
  have hcut := @cutLines_flatten ((cutLines [] bytes).1 ++ (cutLines [] later).1) _
    (List.forall_mem_append.mpr ⟨hlines, hlaterLines⟩) hlast
  rwa [List.flatten_append, List.append_assoc, ← hbytes, ← hlater] at hcut

/-- There are as many complete lines as newlines. -/
lemma count_flatten_lines {lines : List (List UInt8)} (h : ∀ line ∈ lines, IsTerminated line) :
    lines.flatten.count newline = lines.length := by
  have hone : ∀ line ∈ lines, line.count newline = 1 := by
    intro line hline
    obtain ⟨body, hbody, rfl⟩ := h line hline
    simp [List.count_eq_zero_of_not_mem hbody]
  rw [List.count_flatten, List.map_congr_left hone]
  simp

lemma lines_of_whole {bytes : List UInt8} (h : WholeLines bytes) :
    Source.lines ⟨bytes, none⟩ = (cutLines [] bytes).1 := by
  simp [Source.lines, h.cut_rest]

lemma length_lines {bytes : List UInt8} (h : WholeLines bytes) :
    (Source.lines ⟨bytes, none⟩).length = bytes.count newline := by
  obtain ⟨hbytes, hlines, -⟩ := cutLines_nil_seen bytes
  rw [h.cut_rest, List.append_nil] at hbytes
  rw [lines_of_whole h, ← count_flatten_lines hlines, ← hbytes]

/-- **Whole lines are lines of their own**, whatever follows them. -/
lemma lines_append {bytes : List UInt8} (h : WholeLines bytes) (later : List UInt8) (failure : Option String) :
    Source.lines ⟨bytes ++ later, failure⟩ =
      Source.lines ⟨bytes, none⟩ ++ Source.lines ⟨later, failure⟩ := by
  rw [lines_of_whole h]
  simp only [Source.lines, h.cut_append later]
  split_ifs
  · rfl
  · rw [List.append_assoc]

lemma lines_terminated {line : List UInt8} (h : IsTerminated line) (later : List UInt8)
    (failure : Option String) :
    Source.lines ⟨line ++ later, failure⟩ = line :: Source.lines ⟨later, failure⟩ := by
  have hcut := @cutLines_flatten [line] [] (by simpa using h) List.not_mem_nil
  have hwhole : WholeLines line := by
    simpa using @WholeLines.flatten [line] (by simpa using h)
  rw [List.flatten_singleton, List.append_nil] at hcut
  rw [lines_append hwhole, lines_of_whole hwhole, hcut]
  rfl

/-- A source that fails loses what follows its last newline. -/
lemma lines_failure {bytes : List UInt8} (h : newline ∉ bytes) (reason : String) :
    Source.lines ⟨bytes, some reason⟩ = [] := by
  simp [Source.lines, cutLines_of_not_mem h]

/-! ## Places -/

/-- The line with a number, counted from one: it has its newline, or it is what follows the last newline of a source
that does not fail. -/
def Source.IsLine (source : Source) (number : Nat) (line : List UInt8) : Prop :=
  ∃ before after, source.bytes = before ++ line ++ after ∧ WholeLines before ∧
    number = before.count newline + 1 ∧
    (IsTerminated line ∨ (line ≠ [] ∧ newline ∉ line ∧ after = [] ∧ source.failure = none))

lemma isLine_of_lines {source : Source} {front later : List (List UInt8)} {line : List UInt8}
    (h : source.lines = front ++ line :: later) : source.IsLine (front.length + 1) line := by
  obtain ⟨hbytes, hlines, hlast⟩ := cutLines_nil_seen source.bytes
  have hcomplete : ∀ rest, (cutLines [] source.bytes).1 = front ++ line :: rest →
      source.IsLine (front.length + 1) line := by
    intro rest hcut
    rw [hcut, List.forall_mem_append, List.forall_mem_cons] at hlines
    rw [hcut, List.flatten_append, List.flatten_cons] at hbytes
    exact ⟨front.flatten, rest.flatten ++ (cutLines [] source.bytes).2, by simpa using hbytes,
      WholeLines.flatten hlines.1, by rw [count_flatten_lines hlines.1], Or.inl hlines.2.1⟩
  simp only [Source.lines] at h
  split_ifs at h with hend
  · exact hcomplete later h
  · -- What follows the last newline is the last line.
    simp only [Bool.or_eq_true, List.isEmpty_iff, not_or, Bool.not_eq_true, Option.isSome_eq_false_iff,
      Option.isNone_iff_eq_none] at hend
    rcases List.eq_nil_or_concat later with rfl | ⟨rest, last, rfl⟩
    · obtain ⟨rfl, hline⟩ := List.append_inj' h rfl
      cases hline
      exact ⟨_, [], by simpa using hbytes, WholeLines.flatten hlines, by rw [count_flatten_lines hlines],
        Or.inr ⟨hend.2, hlast, rfl, hend.1⟩⟩
    · rw [List.concat_eq_append, ← List.cons_append, ← List.append_assoc] at h
      exact hcomplete rest (List.append_inj' h rfl).1

/-- **The lines of a source stand at their places.** -/
lemma getElem?_lines_iff {source : Source} {i : Nat} {line : List UInt8} :
    source.lines[i]? = some line ↔ source.IsLine (i + 1) line := by
  constructor
  · intro h
    obtain ⟨hi, rfl⟩ := List.getElem?_eq_some_iff.mp h
    have hsplit : source.lines = source.lines.take i ++ source.lines[i] :: source.lines.drop (i + 1) := by
      rw [List.getElem_cons_drop, List.take_append_drop]
    have hline := isLine_of_lines hsplit
    rwa [List.length_take, Nat.min_eq_left hi.le] at hline
  · obtain ⟨bytes, failure⟩ := source
    rintro ⟨before, after, rfl, hbefore, hnumber, hline⟩
    obtain ⟨rest, hrest⟩ : ∃ rest, Source.lines ⟨line ++ after, failure⟩ = line :: rest := by
      rcases hline with hline | ⟨hne, hclear, rfl, rfl⟩
      · exact ⟨_, lines_terminated hline after failure⟩
      · exact ⟨[], by simp [Source.lines, cutLines_of_not_mem hclear, hne]⟩
    have hi : i = (Source.lines ⟨before, none⟩).length := by
      rw [length_lines hbefore]
      omega
    rw [List.append_assoc, lines_append hbefore, hrest, hi, List.getElem?_append_right le_rfl]
    simp

/-! ## Reading -/

/-- The line with a number that is larger by `count`. -/
def MalformedLine.shift (count : Nat) (line : MalformedLine) : MalformedLine :=
  { line with number := line.number + count }

@[simp] lemma MalformedLine.shift_shift (line : MalformedLine) (count more : Nat) :
    (line.shift count).shift more = line.shift (count + more) := by
  simp [shift, Nat.add_assoc]

namespace Reading

/-- **The lines before change nothing but the numbers.** -/
lemma readLines_shift (schema : Schema) (number count : Nat) (lines : List (List UInt8)) :
    readLines schema (number + count) lines =
      ((readLines schema number lines).1, (readLines schema number lines).2.map (·.shift count)) := by
  induction lines generalizing number with
  | nil => rfl
  | cons bytes lines ih =>
      have hlater := ih (number + 1)
      rw [Nat.add_right_comm] at hlater
      rw [readLines, readLines, hlater]
      rcases readLine schema bytes with fault | _ | row <;> rfl

/-- **Lines are read one after the other.** -/
lemma readLines_append (schema : Schema) (number : Nat) (lines later : List (List UInt8)) :
    readLines schema number (lines ++ later) =
      ((readLines schema number lines).1 ++ (readLines schema number later).1,
        (readLines schema number lines).2 ++
          (readLines schema number later).2.map (·.shift lines.length)) := by
  induction lines generalizing number with
  | nil => simp [readLines, MalformedLine.shift]
  | cons bytes lines ih =>
      rw [List.cons_append, readLines, readLines, ih, readLines_shift schema number 1 later]
      rcases readLine schema bytes with fault | _ | row <;> simp [Nat.add_comm 1]

/-- A line that cannot be read, under its number. -/
def faultAt (schema : Schema) (line : List UInt8 × Nat) : Option MalformedLine :=
  match readLine schema line.1 with
  | .error (text, reason) => some ⟨line.2, text, reason⟩
  | .ok _ => none

lemma faultAt_eq_some_iff {schema : Schema} {line : List UInt8 × Nat} {fault : MalformedLine} :
    faultAt schema line = some fault ↔
      fault.number = line.2 ∧ readLine schema line.1 = .error (fault.text, fault.reason) := by
  obtain ⟨number, text, reason⟩ := fault
  rw [faultAt]
  rcases readLine schema line.1 with fault | row
  · simp [Prod.ext_iff, eq_comm]
  · simp

lemma malformed_eq (schema : Schema) (number : Nat) (lines : List (List UInt8)) :
    (readLines schema number lines).2 = (lines.zipIdx number).filterMap (faultAt schema) := by
  induction lines generalizing number with
  | nil => rfl
  | cons bytes lines ih =>
      rw [readLines, List.zipIdx_cons, List.filterMap_cons, faultAt, ← ih]
      rcases readLine schema bytes with fault | _ | row <;> rfl

/-- **What cannot be read is listed under its number**, and nothing else is. -/
lemma mem_malformed_iff {schema : Schema} {number : Nat} {lines : List (List UInt8)} {fault : MalformedLine} :
    fault ∈ (readLines schema number lines).2 ↔
      ∃ i bytes, lines[i]? = some bytes ∧ fault.number = number + i ∧
        readLine schema bytes = .error (fault.text, fault.reason) := by
  simp only [malformed_eq, List.mem_filterMap, faultAt_eq_some_iff, Prod.exists,
    List.mem_zipIdx_iff_le_and_getElem?_sub]
  constructor
  · rintro ⟨bytes, place, ⟨hle, hbytes⟩, rfl, hread⟩
    exact ⟨_, bytes, hbytes, by omega, hread⟩
  · rintro ⟨i, bytes, hbytes, hnumber, hread⟩
    exact ⟨bytes, number + i, ⟨by omega, by simpa using hbytes⟩, hnumber, hread⟩

lemma pairwise_malformed (schema : Schema) (number : Nat) (lines : List (List UInt8)) :
    (readLines schema number lines).2.Pairwise fun a b => a.number < b.number := by
  have hplaces : (lines.zipIdx number).Pairwise fun a b => a.2 < b.2 := by
    rw [← List.pairwise_map, List.zipIdx_map_snd]
    exact List.pairwise_lt_range'
  rw [malformed_eq, List.pairwise_filterMap]
  refine hplaces.imp fun hlt first hfirst second hsecond => ?_
  rwa [(faultAt_eq_some_iff.mp hfirst).1, (faultAt_eq_some_iff.mp hsecond).1]

end Reading

/-! ## Reports -/

/-- The heading of a version with any bytes behind it. -/
def headed (schema : Schema) (body : List UInt8) (failure : Option String) : Source where
  bytes := encode (terminated schema.heading) ++ body
  failure := failure

lemma isTerminated_heading (schema : Schema) : IsTerminated (encode (terminated schema.heading)) := by
  refine ⟨encode schema.heading, fun hmem => ?_, encode_append schema.heading "\n"⟩
  exact (schema.isLine_heading '\n' ((mem_encode_iff (by decide)).mp hmem)).1 rfl

lemma lines_headed (schema : Schema) (body : List UInt8) (failure : Option String) :
    (headed schema body failure).lines =
      encode (terminated schema.heading) :: Source.lines ⟨body, failure⟩ :=
  lines_terminated (isTerminated_heading schema) body failure

/-- What is read behind a heading. -/
lemma ofSource_headed (schema : Schema) (body : List UInt8) (failure : Option String) :
    Reading.ofSource (headed schema body failure) =
      .ok ⟨schema, (Reading.readLines schema 2 (Source.lines ⟨body, failure⟩)).1,
        (Reading.readLines schema 2 (Source.lines ⟨body, failure⟩)).2, failure.map .io⟩ :=
  ofSource_eq (lines_headed schema body failure) schema.isLine_heading schema.detect_heading

/-- **The number of a line that cannot be read is its place in the file.** -/
lemma mem_malformed_headed_iff {schema : Schema} {body : List UInt8} {failure : Option String}
    {fault : MalformedLine} :
    fault ∈ (Reading.readLines schema 2 (Source.lines ⟨body, failure⟩)).2 ↔
      1 < fault.number ∧ ∃ line, (headed schema body failure).IsLine fault.number line ∧
        readLine schema line = .error (fault.text, fault.reason) := by
  rw [Reading.mem_malformed_iff]
  constructor
  · rintro ⟨i, line, hline, hnumber, hread⟩
    refine ⟨by omega, line, ?_, hread⟩
    rw [hnumber, show 2 + i = (i + 1) + 1 by omega, ← getElem?_lines_iff, lines_headed]
    exact hline
  · rintro ⟨hnumber, line, hline, hread⟩
    obtain ⟨i, hi⟩ : ∃ i, fault.number = (i + 1) + 1 := ⟨fault.number - 2, by omega⟩
    rw [hi, ← getElem?_lines_iff, lines_headed] at hline
    exact ⟨i, line, hline, by omega, hread⟩

/-- **A report is read line by line.**  Let the lines `first` of a report have their newlines, and let any bytes
`later` follow them.

* The rows are those of the two parts, one after the other, and so are the lines that cannot be read; those of the
  later part have numbers that are larger by the newlines of the first.
* A line between the two parts, whatever stands on it, adds what it gives by itself, and one to the numbers behind it.
* A line that cannot be read is listed once, in the order of the lines, with its place in the file as its number.
* A source that fails gives the rows and the lines of its complete lines, and then the failure. -/
theorem reading_local (schema : Schema) (first later : List UInt8) (failure : Option String)
    (hfirst : WholeLines first) :
    ∃ front back whole,
      Reading.ofSource (headed schema first none) = .ok front ∧
      Reading.ofSource (headed schema later failure) = .ok back ∧
      Reading.ofSource (headed schema (first ++ later) failure) = .ok whole ∧
      whole.schema = schema ∧ whole.failure = failure.map .io ∧
      whole.rows = front.rows ++ back.rows ∧
      whole.malformed = front.malformed ++ back.malformed.map (·.shift (first.count newline)) ∧
      (∀ line, IsTerminated line → ∃ own between,
        Reading.ofSource (headed schema line none) = .ok own ∧
        Reading.ofSource (headed schema (first ++ line ++ later) failure) = .ok between ∧
        between.rows = front.rows ++ own.rows ++ back.rows ∧
        between.malformed = front.malformed ++ own.malformed.map (·.shift (first.count newline)) ++
          back.malformed.map (·.shift (first.count newline + 1))) ∧
      (∀ fault, fault ∈ whole.malformed ↔
        1 < fault.number ∧ ∃ line, (headed schema (first ++ later) failure).IsLine fault.number line ∧
          readLine schema line = .error (fault.text, fault.reason)) ∧
      whole.malformed.Pairwise (fun a b => a.number < b.number) ∧
      (∀ cut reason, newline ∉ cut →
        Reading.ofSource (headed schema (first ++ cut) (some reason)) =
          .ok ⟨schema, front.rows, front.malformed, some (.io reason)⟩) := by
  refine ⟨_, _, _, ofSource_headed schema first none, ofSource_headed schema later failure,
    ofSource_headed schema (first ++ later) failure, rfl, rfl, ?_, ?_, ?_, fun _ => mem_malformed_headed_iff,
    Reading.pairwise_malformed _ _ _, ?_⟩
  · dsimp only
    rw [lines_append hfirst, Reading.readLines_append]
  · dsimp only
    rw [lines_append hfirst, Reading.readLines_append, length_lines hfirst]
  · intro line hline
    have hown : Source.lines ⟨line, none⟩ = [line] := by
      simpa [Source.lines, cutLines] using lines_terminated hline [] none
    refine ⟨_, _, ofSource_headed schema line none,
      ofSource_headed schema (first ++ line ++ later) failure, ?_, ?_⟩
    all_goals
      dsimp only
      rw [List.append_assoc, lines_append hfirst, lines_terminated hline, Reading.readLines_append,
        ← List.singleton_append, Reading.readLines_append, hown, length_lines hfirst]
      simp [Nat.add_comm 1]
  · intro cut reason hcut
    rw [ofSource_headed, lines_append hfirst, lines_failure hcut, List.append_nil]
    rfl

/-- A line that is not UTF-8, a blank one, and one with a single column. -/
def corruptLines : List UInt8 := [0xFF, newline, newline, 0x78, newline]

def corruptFaults : List MalformedLine :=
  [⟨2, "\uFFFD", "not valid UTF-8: invalid utf-8 sequence of 1 bytes from index 0"⟩,
    ⟨4, "x", "expected 72 columns, found 1"⟩]

lemma ofSource_corruptLines :
    Reading.ofSource (headed .v5 corruptLines none) = .ok ⟨.v5, [], corruptFaults, none⟩ := by
  rw [ofSource_headed]
  rfl

theorem reading_local_corrupt_lines :
    WholeLines corruptLines ∧ newline ∉ [(0x79 : UInt8)] ∧
    (∃ whole,
      Reading.ofSource (headed .v5 (corruptLines ++ encode (terminated (Schema.joinFields oldFields))) none) =
        .ok whole ∧ whole.rows = [upgradedRow] ∧ whole.malformed = corruptFaults) ∧
    Reading.ofSource (headed .v5 (corruptLines ++ [0x79]) (some "gone")) =
      .ok ⟨.v5, [], corruptFaults, some (.io "gone")⟩ := by
  have hwhole : WholeLines corruptLines := Or.inr rfl
  have hcut : newline ∉ [(0x79 : UInt8)] := by decide
  obtain ⟨front, back, whole, hfront, hback, hread, -, -, hrows, hmalformed, -, -, -, hfailure⟩ :=
    reading_local .v5 corruptLines (encode (terminated (Schema.joinFields oldFields))) none hwhole
  cases hfront.symm.trans ofSource_corruptLines
  cases hback.symm.trans ofSource_oldSource
  exact ⟨hwhole, hcut, ⟨whole, hread, hrows, hmalformed⟩, hfailure _ _ hcut⟩

end JarSurvey.Report
