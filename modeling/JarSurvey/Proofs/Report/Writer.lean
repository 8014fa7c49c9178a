import JarSurvey.Proofs.Report.RoundTrip

/-!
# What a writer leaves in its sink

A write ends in one of three ways (`write_cases`): the sink takes the line and the row is added to the total, the
sink refuses the line, or the path does not fit on a line and nothing is offered.  So a write that fails changes
neither what the sink holds nor the total, and

* after any writes **the sink holds the heading and the lines of the rows that were written**, and the total is
  that of these rows (`writeAll_holds`);
* later writes go as if it had not been made: two writers that `Agree` now agree after any writes, and a
  refusal leaves a writer that agrees with one whose sink leaves that refusal out (`agree_refused`).

**`writer_keeps_written`** puts this together for all runs.
-/

namespace JarSurvey.Report

/-- The sink after it has taken a piece. -/
def Sink.took (sink : Sink) (piece : String) : Sink :=
  { sink with taken := sink.taken ++ [piece], offered := sink.offered + 1 }

/-- The sink after it has refused a piece. -/
def Sink.refused (sink : Sink) : Sink :=
  { sink with offered := sink.offered + 1 }

/-- The sink that leaves out the decision it would make next. -/
def Sink.skip (sink : Sink) : Sink :=
  { sink with accepts := fun offered => sink.accepts (offered + 1) }

namespace Writer

/-! ## Writing one row -/

/-- The line that is offered for a row. -/
def lineOf (writer : Writer) (row : Row) : String :=
  terminated (rowText writer.root row)

/-- Whether a row is written: its path fits on a line, and the sink takes the line. -/
def Writes (writer : Writer) (row : Row) : Prop :=
  isWritable (relativePath writer.root row.record.path) = true ∧
    writer.sink.accepts writer.sink.offered writer.sink.taken (writer.lineOf row) = true

/-- Whether the report can be ended: the sink takes the line of the summary. -/
def Finishes (writer : Writer) : Prop :=
  writer.sink.accepts writer.sink.offered writer.sink.taken (terminated (summaryText writer.summary)) = true

section OneRow

variable {writer after : Writer} {row : Row}

lemma start_eq {sink : Sink} {root : Option String} (h : start sink root = .ok writer) :
    writer = ⟨sink.took (terminated Schema.current.heading), root, Summary.empty⟩ := by
  simp only [start, Sink.offer] at h
  split at h
  · rename_i after hafter
    split_ifs at hafter <;> cases hafter
    cases h
    rfl
  · cases h

/-- **The three ways in which a write ends.** -/
lemma write_cases {result : Except Error Unit} (h : writer.write row = (after, result)) :
    writer.Writes row ∧ result = .ok () ∧
      after = { writer with
        sink := writer.sink.took (writer.lineOf row)
        summary := writer.summary.add row } ∨
    isWritable (relativePath writer.root row.record.path) = true ∧ ¬ writer.Writes row ∧
      result = .error (.io writer.sink.refusal) ∧ after = { writer with sink := writer.sink.refused } ∨
    ¬ isWritable (relativePath writer.root row.record.path) = true ∧
      result = .error (.unwritablePath (relativePath writer.root row.record.path)) ∧ after = writer := by
  simp only [write, Sink.offer] at h
  split_ifs at h with hpath haccepts
  · cases h
    exact Or.inl ⟨⟨hpath, haccepts⟩, rfl, rfl⟩
  · cases h
    exact Or.inr (Or.inl ⟨hpath, fun hwrites => haccepts hwrites.2, rfl, rfl⟩)
  · cases h
    exact Or.inr (Or.inr ⟨hpath, rfl, rfl⟩)

lemma write_ok (h : writer.write row = (after, .ok ())) :
    isWritable (relativePath writer.root row.record.path) = true ∧ after.root = writer.root ∧
      after.summary = writer.summary.add row ∧
      after.sink.taken = writer.sink.taken ++ [terminated (rowText writer.root row)] := by
  rcases write_cases h with ⟨hwrites, -, rfl⟩ | ⟨-, -, hresult, -⟩ | ⟨-, hresult, -⟩
  · exact ⟨hwrites.1, rfl, rfl, rfl⟩
  · cases hresult
  · cases hresult

lemma write_unwritable {path : String} (h : writer.write row = (after, .error (.unwritablePath path))) :
    ¬ isWritable (relativePath writer.root row.record.path) = true ∧ after = writer := by
  rcases write_cases h with ⟨-, hresult, -⟩ | ⟨-, -, hresult, -⟩ | ⟨hpath, -, rfl⟩
  · cases hresult
  · cases hresult
  · exact ⟨hpath, rfl⟩

lemma write_error {error : Error} (h : writer.write row = (after, .error error)) :
    after.root = writer.root ∧ after.summary = writer.summary ∧ after.sink.taken = writer.sink.taken := by
  rcases write_cases h with ⟨-, hresult, -⟩ | ⟨-, -, -, rfl⟩ | ⟨-, -, rfl⟩
  · cases hresult
  · exact ⟨rfl, rfl, rfl⟩
  · exact ⟨rfl, rfl, rfl⟩

lemma write_accepts {result : Except Error Unit} (h : writer.write row = (after, result)) :
    after.sink.accepts = writer.sink.accepts := by
  rcases write_cases h with ⟨-, -, rfl⟩ | ⟨-, -, -, rfl⟩ | ⟨-, -, rfl⟩ <;> rfl

/-- A sink that takes everything refuses a row for its path only. -/
lemma unwritable_of_write_error {error : Error}
    (haccepts : ∀ offered taken piece, writer.sink.accepts offered taken piece = true)
    (h : writer.write row = (after, .error error)) : ∃ path, error = .unwritablePath path := by
  rcases write_cases h with ⟨-, hresult, -⟩ | ⟨hpath, hnot, -, -⟩ | ⟨-, hresult, -⟩
  · cases hresult
  · exact absurd ⟨hpath, haccepts _ _ _⟩ hnot
  · cases hresult
    exact ⟨_, rfl⟩

lemma write_ok_iff : (writer.write row).2 = .ok () ↔ writer.Writes row := by
  rcases write_cases (Prod.mk.eta (p := writer.write row)).symm with
    ⟨hwrites, hresult, -⟩ | ⟨-, hnot, hresult, -⟩ | ⟨hpath, hresult, -⟩
  · simp [hresult, hwrites]
  · simp [hresult, hnot]
  · simp [hresult, Writes, hpath]

lemma write_unwritable_iff :
    (writer.write row).2 = .error (.unwritablePath (relativePath writer.root row.record.path)) ↔
      ¬ isWritable (relativePath writer.root row.record.path) = true := by
  rcases write_cases (Prod.mk.eta (p := writer.write row)).symm with
    ⟨hwrites, hresult, -⟩ | ⟨hpath, -, hresult, -⟩ | ⟨hpath, hresult, -⟩
  · simp [hresult, hwrites.1]
  · simp [hresult, hpath]
  · simp [hresult, hpath]

lemma finish_cases {result : Except Error Summary} (h : writer.finish = (after, result)) :
    writer.Finishes ∧ result = .ok writer.summary ∧
      after = { writer with sink := writer.sink.took (terminated (summaryText writer.summary)) } ∨
    ¬ writer.Finishes ∧ result = .error (.io writer.sink.refusal) ∧
      after = { writer with sink := writer.sink.refused } := by
  simp only [finish, Sink.offer] at h
  split_ifs at h with haccepts
  · cases h
    exact Or.inl ⟨haccepts, rfl, rfl⟩
  · cases h
    exact Or.inr ⟨haccepts, rfl, rfl⟩

lemma finish_ok {summary : Summary} (h : writer.finish = (after, .ok summary)) :
    summary = writer.summary ∧
      after.sink.taken = writer.sink.taken ++ [terminated (summaryText writer.summary)] := by
  rcases finish_cases h with ⟨-, hresult, rfl⟩ | ⟨-, hresult, -⟩
  · cases hresult
    exact ⟨rfl, rfl⟩
  · cases hresult

end OneRow

/-! ## Writing rows, whatever becomes of each -/

/-- Writes rows one after the other, and goes on where a write fails: the writer afterwards, and what became of
each row. -/
def writeAll (writer : Writer) : List Row → Writer × List (Except Error Unit)
  | [] => (writer, [])
  | row :: rows =>
    let first := writer.write row
    let rest := writeAll first.1 rows
    (rest.1, first.2 :: rest.2)

/-- The rows that were written. -/
def written (rows : List Row) (results : List (Except Error Unit)) : List Row :=
  ((rows.zip results).filter (·.2.isOk)).map (·.1)

/-- **After any writes the sink holds the lines of the rows that were written, and the total is theirs.** -/
lemma writeAll_holds (writer : Writer) (rows : List Row) :
    (writer.writeAll rows).1.root = writer.root ∧
    (writer.writeAll rows).1.sink.refusal = writer.sink.refusal ∧
    (writer.writeAll rows).1.sink.taken = writer.sink.taken ++
      (written rows (writer.writeAll rows).2).map (fun row => terminated (rowText writer.root row)) ∧
    (writer.writeAll rows).1.summary =
      (written rows (writer.writeAll rows).2).foldl Summary.add writer.summary := by
  induction rows generalizing writer with
  | nil => simp [writeAll, written]
  | cons row rows ih =>
      obtain ⟨hroot, hrefusal, htaken, hsummary⟩ := ih (writer.write row).1
      rcases hwrite : writer.write row with ⟨after, result⟩
      rw [hwrite] at hroot hrefusal htaken hsummary
      simp only [writeAll, hwrite, hroot, hrefusal, htaken, hsummary]
      rcases write_cases hwrite with ⟨-, rfl, rfl⟩ | ⟨-, -, rfl, rfl⟩ | ⟨-, rfl, rfl⟩
      · simp [written, Except.isOk, Except.toBool, Sink.took, lineOf]
      · simp [written, Except.isOk, Except.toBool, Sink.refused]
      · simp [written, Except.isOk, Except.toBool]

/-! ## Writers that go on alike -/

/-- Two writers have written the same and go on alike: their sinks make the same decisions from now on. -/
structure Agree (a b : Writer) : Prop where
  root : a.root = b.root
  summary : a.summary = b.summary
  taken : a.sink.taken = b.sink.taken
  refusal : a.sink.refusal = b.sink.refusal
  accepts : ∀ n, a.sink.accepts (a.sink.offered + n) = b.sink.accepts (b.sink.offered + n)

lemma Agree.write {a b : Writer} (h : Agree a b) (row : Row) :
    (a.write row).2 = (b.write row).2 ∧ Agree (a.write row).1 (b.write row).1 := by
  have hline : a.lineOf row = b.lineOf row := by rw [lineOf, lineOf, h.root]
  have hwrites : a.Writes row ↔ b.Writes row := by
    have hnow := h.accepts 0
    simp only [Nat.add_zero] at hnow
    rw [Writes, Writes, hline, h.root, h.taken, hnow]
  have hlater : ∀ n, a.sink.accepts (a.sink.offered + 1 + n) = b.sink.accepts (b.sink.offered + 1 + n) := by
    intro n
    rw [Nat.add_assoc, Nat.add_assoc]
    exact h.accepts (1 + n)
  rcases ha : a.write row with ⟨after, result⟩
  rcases hb : b.write row with ⟨after', result'⟩
  rcases write_cases ha with ⟨hwa, rfl, rfl⟩ | ⟨hpa, hwa, rfl, rfl⟩ | ⟨hpa, rfl, rfl⟩
  · rcases write_cases hb with ⟨-, rfl, rfl⟩ | ⟨-, hwb, -, -⟩ | ⟨hpb, -, -⟩
    · exact ⟨rfl, h.root, by rw [h.summary], by simp only [Sink.took, h.taken, hline], h.refusal, hlater⟩
    · exact absurd (hwrites.mp hwa) hwb
    · exact absurd (hwrites.mp hwa).1 hpb
  · rcases write_cases hb with ⟨hwb, -, -⟩ | ⟨-, -, rfl, rfl⟩ | ⟨hpb, -, -⟩
    · exact absurd (hwrites.mpr hwb) hwa
    · exact ⟨by rw [h.refusal], h.root, h.summary, h.taken, h.refusal, hlater⟩
    · exact absurd (h.root ▸ hpa) hpb
  · rcases write_cases hb with ⟨hwb, -, -⟩ | ⟨hpb, -, -, -⟩ | ⟨-, rfl, rfl⟩
    · exact absurd (hwrites.mpr hwb).1 hpa
    · exact absurd (h.root ▸ hpb) hpa
    · exact ⟨by rw [h.root], h⟩

/-- **Writers that agree now agree after any writes**, and have had the same results. -/
lemma Agree.writeAll {a b : Writer} (h : Agree a b) (rows : List Row) :
    (a.writeAll rows).2 = (b.writeAll rows).2 ∧ Agree (a.writeAll rows).1 (b.writeAll rows).1 := by
  induction rows generalizing a b with
  | nil => exact ⟨rfl, h⟩
  | cons row rows ih =>
      obtain ⟨hresult, hagree⟩ := h.write row
      obtain ⟨hresults, hlast⟩ := ih hagree
      exact ⟨by simp only [Writer.writeAll, hresult, hresults], hlast⟩

lemma agree_refused (writer : Writer) :
    Agree { writer with sink := writer.sink.refused } { writer with sink := writer.sink.skip } where
  root := rfl
  summary := rfl
  taken := rfl
  refusal := rfl
  accepts _ := congrArg writer.sink.accepts (Nat.add_right_comm _ _ _)

end Writer

open Writer

/-- **The sink holds what was written, and failed writes leave no trace.**  Whatever a sink refuses, at every
moment after a report was begun

* the sink holds the heading and the complete lines of the rows whose write succeeded, in order, and the summary
  is the total of exactly these rows;
* ending the report adds the line of that summary and yields the summary, or the sink refuses that line and
  nothing is added;
* a row is written exactly when its path fits on a line and the sink takes the line.  A write that fails changes
  neither what the sink holds nor the summary, and all later writes have the results and the effect that they
  have without it: from the same writer if nothing was offered, and else if the sink leaves out its refusal. -/
theorem writer_keeps_written {sink : Sink} {root : Option String} {writer : Writer}
    (hstart : Writer.start sink root = .ok writer) (rows : List Row) :
    let now := (writer.writeAll rows).1
    let kept := written rows (writer.writeAll rows).2
    now.sink.taken = sink.taken ++ terminated Schema.current.heading ::
      kept.map (fun row => terminated (rowText root row)) ∧
    now.summary = Summary.ofRows kept ∧
    (∀ after result, now.finish = (after, result) →
      now.Finishes ∧ result = .ok (Summary.ofRows kept) ∧
        after.sink.taken = now.sink.taken ++ [terminated (summaryText (Summary.ofRows kept))] ∨
      ¬ now.Finishes ∧ result = .error (.io sink.refusal) ∧ after.sink.taken = now.sink.taken) ∧
    (∀ row, (now.write row).2 = .ok () ↔ now.Writes row) ∧
    ∀ row after error, now.write row = (after, .error error) →
      after.sink.taken = now.sink.taken ∧ after.summary = now.summary ∧
      ∃ unmade, (error = .unwritablePath (relativePath root row.record.path) ∧ unmade = now ∨
          error = .io sink.refusal ∧ unmade = { now with sink := now.sink.skip }) ∧
        ∀ later, (after.writeAll later).2 = (unmade.writeAll later).2 ∧
          Agree (after.writeAll later).1 (unmade.writeAll later).1 := by
  intro now kept
  obtain rfl := start_eq hstart
  obtain ⟨hroot, hrefusal, htaken, hsummary⟩ := writeAll_holds ⟨_, root, _⟩ rows
  refine ⟨?_, hsummary, ?_, fun row => write_ok_iff, ?_⟩
  · rw [htaken]
    simp [Sink.took, kept]
  · intro after result hfinish
    rw [Summary.ofRows, ← hsummary]
    rcases finish_cases hfinish with ⟨hfinishes, rfl, rfl⟩ | ⟨hnot, rfl, rfl⟩
    · exact Or.inl ⟨hfinishes, rfl, rfl⟩
    · exact Or.inr ⟨hnot, by rw [hrefusal]; rfl, rfl⟩
  · intro row after error hwrite
    obtain ⟨-, hsame, hheld⟩ := write_error hwrite
    refine ⟨hheld, hsame, ?_⟩
    rcases write_cases hwrite with ⟨-, hresult, -⟩ | ⟨-, -, hresult, rfl⟩ | ⟨-, hresult, rfl⟩
    · cases hresult
    · cases hresult
      exact ⟨_, Or.inr ⟨by rw [hrefusal]; rfl, rfl⟩, (agree_refused now).writeAll⟩
    · cases hresult
      exact ⟨_, Or.inl ⟨by rw [hroot], rfl⟩, fun _ => ⟨rfl, ⟨rfl, rfl, rfl, rfl, fun _ => rfl⟩⟩⟩

/-! The sink refuses the third piece it is offered, and the path of the second row does not fit on a line. -/

def refusingSink : Sink := ⟨[], 0, fun offered _ _ => offered ≠ 2, "full"⟩

def refusedRows : List Row :=
  ["a.jar", "b\tc.jar", "d.jar", "e.jar"].map fun path => ⟨⟨path, "", 0, 0, 0, 0, []⟩, Usage.empty⟩

theorem writer_keeps_written_refusals :
    ∃ writer, Writer.start refusingSink none = .ok writer ∧
      (writer.writeAll refusedRows).2 =
        [.ok (), .error (.unwritablePath "b\tc.jar"), .error (.io "full"), .ok ()] ∧
      (writer.writeAll refusedRows).1.summary =
        Summary.ofRows (written refusedRows (writer.writeAll refusedRows).2) ∧
      (written refusedRows (writer.writeAll refusedRows).2).map (·.record.path) = ["a.jar", "e.jar"] := by
  have hstart : Writer.start refusingSink none = .ok
      ⟨refusingSink.took (terminated Schema.current.heading), none, Summary.empty⟩ := rfl
  exact ⟨_, hstart, rfl, (writer_keeps_written hstart refusedRows).2.1, rfl⟩

end JarSurvey.Report
