import JarSurvey.Proofs.Survey.Schedule

/-!
# A survey whose report cannot be written

The writer stops at the first line that its sink refuses.  By then workers may still inspect archives, send rows
and cancel the survey; none of that can write another line or end the survey well.

`Delivered` says what the sink has been through: it took `pieces`, each when it was offered next, and either the
writer goes on or the sink has refused the line of one more row and nothing was offered to it since.  A step
keeps this (`Delivered.step`), for a writer that has stopped makes no further move, and so does a whole course
(`delivered_of_course`).  The end of the survey offers the summary only where no row was refused.

Every survey comes to that end: all moves but cancellations use up a bounded number of moves
(`countP_add_weight_le`), and before the end one is always allowed (`exists_move`).

**`survey_stops_at_refusal`** puts this together.
-/

namespace JarSurvey

namespace Report.Sink

variable {sink : Sink} {piece : String} {pieces more : List String}

/-- The sink takes the piece if that is offered next. -/
def Takes (sink : Sink) (piece : String) : Prop :=
  sink.accepts sink.offered sink.taken piece = true

/-- The sink takes all pieces if they are offered next, one after the other. -/
def TakesAll (sink : Sink) : List String → Prop
  | [] => True
  | piece :: pieces => sink.Takes piece ∧ (sink.took piece).TakesAll pieces

/-- The sink after it has taken pieces one after the other. -/
def tookAll (sink : Sink) (pieces : List String) : Sink :=
  pieces.foldl took sink

/-- From one moment to a later one, the sink took fewer pieces than it was offered. -/
def HasRefused (sink later : Sink) : Prop :=
  later.taken.length - sink.taken.length < later.offered - sink.offered

lemma takesAll_append : sink.TakesAll (pieces ++ more) ↔
    sink.TakesAll pieces ∧ (sink.tookAll pieces).TakesAll more := by
  induction pieces generalizing sink with
  | nil => simp [TakesAll, tookAll]
  | cons piece pieces ih => simp only [List.cons_append, TakesAll, ih, tookAll, List.foldl_cons, and_assoc]

lemma takesAll_singleton : sink.TakesAll [piece] ↔ sink.Takes piece :=
  and_iff_left trivial

lemma tookAll_append : sink.tookAll (pieces ++ more) = (sink.tookAll pieces).tookAll more :=
  List.foldl_append

/-- Taking pieces adds them to what the sink holds, and changes nothing else. -/
lemma tookAll_eq (sink : Sink) (pieces : List String) :
    sink.tookAll pieces =
      { sink with taken := sink.taken ++ pieces, offered := sink.offered + pieces.length } := by
  induction pieces generalizing sink with
  | nil => simp [tookAll]
  | cons piece pieces ih =>
      rw [tookAll, List.foldl_cons, ← tookAll, ih]
      simp [took, Nat.add_assoc, Nat.add_comm 1]

lemma not_hasRefused_tookAll (sink : Sink) (pieces : List String) :
    ¬ sink.HasRefused (sink.tookAll pieces) := by
  simp [HasRefused, tookAll_eq]

lemma hasRefused_refused (sink : Sink) (pieces : List String) :
    sink.HasRefused (sink.tookAll pieces).refused := by
  simp only [HasRefused, refused, tookAll_eq, List.length_append]
  omega

lemma takes_of_start {root : Option String} {writer : Writer} (h : Writer.start sink root = .ok writer) :
    sink.Takes (terminated Schema.current.heading) := by
  by_contra hnot
  rw [Takes, terminated] at hnot
  simp only [Writer.start, offer, if_neg hnot] at h
  cases h

end Report.Sink

namespace Survey

open Report

/-- The lines of a report without its summary: the heading and one line for each row. -/
def reportLines (root : Option String) (rows : List Row) : List String :=
  terminated Schema.current.heading :: rows.map fun row => terminated (rowText root row)

/-- The line at the end of a report of these rows. -/
def summaryLine (rows : List Row) : String :=
  terminated (summaryText (Summary.ofRows rows))

/-! ## What the sink has been through -/

/-- The sink took `pieces`, and the writer goes on; or it has refused the line of a row after them, and the
writer has stopped. -/
structure Delivered (inspection : String → Inspection) (archives : List String) (sink : Sink)
    (root : Option String) (s : State) (pieces : List String) : Prop where
  takes : sink.TakesAll pieces
  going : s.failure = none → s.writer.sink = sink.tookAll pieces
  stopped : ∀ error, s.failure = some error → error = .io sink.refusal ∧
    s.writer.sink = (sink.tookAll pieces).refused ∧
    ∃ row ∈ archives.filterMap (rowOf inspection), Writable root row ∧
      ¬ (sink.tookAll pieces).Takes (terminated (rowText root row))

section Delivery

variable {limits : Limits} {inspection : String → Inspection} {archives : List String} {sink : Sink}
  {root : Option String} {s t : State} {ledger : Ledger} {pieces : List String}

lemma delivered_start {writer : Writer} (h : Writer.start sink root = .ok writer) (cancelled : Bool) :
    Delivered inspection archives sink root (State.start archives writer cancelled)
      [terminated Schema.current.heading] where
  takes := Sink.takesAll_singleton.mpr (Sink.takes_of_start h)
  going := by
    intro _
    rw [Writer.start_eq h]
    rfl
  stopped := by
    intro error herror
    cases herror

/-- A row in the queue is that of one of the archives. -/
lemma Ledger.Balances.mem_of_mem_queue {before : List String} {row : Row}
    (h : ledger.Balances inspection archives before root s) (hwriting : s.failure = none)
    (hrow : row ∈ s.queue) : row ∈ archives.filterMap (rowOf inspection) := by
  refine Multiset.mem_of_le h.rows_le ?_
  rw [h.rows hwriting, State.underway]
  simp [hrow]

/-- **A step keeps what the sink has been through**: only a write that succeeds adds a line. -/
lemma Delivered.step {move : Move} (h : Delivered inspection archives sink root s pieces)
    (hledger : ledger.Balances inspection archives sink.taken root s)
    (hstep : Step limits inspection s move t) :
    ∃ pieces, Delivered inspection archives sink root t pieces := by
  cases hstep with
  | take | skip | goOn | scan | fail | lose | send | cancel => exact ⟨pieces, { h with }⟩
  | @write row later writer hwriting hqueue hwrite =>
      have hsink := h.going hwriting
      rcases Writer.write_cases hwrite with ⟨hwrites, -, rfl⟩ | ⟨-, -, hresult, -⟩ | ⟨-, hresult, -⟩
      · refine ⟨pieces ++ [s.writer.lineOf row], ?_, ?_, fun error herror => ?_⟩
        · have htakes : (sink.tookAll pieces).Takes (s.writer.lineOf row) := hsink ▸ hwrites.2
          exact Sink.takesAll_append.mpr ⟨h.takes, Sink.takesAll_singleton.mpr htakes⟩
        · intro _
          rw [Sink.tookAll_append, ← hsink]
          rfl
        · rw [hwriting] at herror
          cases herror
      · cases hresult
      · cases hresult
  | leaveOut _ _ hwrite =>
      obtain ⟨-, rfl⟩ := Writer.write_unwritable hwrite
      exact ⟨pieces, { h with }⟩
  | @stop row later writer error hwriting hqueue hwrite herror =>
      have hsink := h.going hwriting
      rcases Writer.write_cases hwrite with ⟨-, hresult, -⟩ | ⟨hpath, hnot, hresult, rfl⟩ | ⟨-, hresult, -⟩
      · cases hresult
      · cases hresult
        refine ⟨pieces, h.takes, fun hnone => absurd hnone (Option.some_ne_none _), fun error heq => ?_⟩
        cases heq
        have hpath' : Writable root row := hledger.sameRoot ▸ hpath
        have hrow := hledger.mem_of_mem_queue hwriting (hqueue ▸ List.mem_cons_self)
        refine ⟨by rw [hsink, Sink.tookAll_eq], by rw [hsink], row, hrow, hpath', fun htakes => ?_⟩
        refine hnot ⟨hpath, ?_⟩
        rw [hsink, Writer.lineOf, hledger.sameRoot]
        exact htakes
      · cases hresult
        exact absurd rfl (herror _)

/-- **After any course** some ledger balances, and the sink holds the heading and the lines of the rows that the
ledger has as written. -/
lemma delivered_of_course {writer : Writer} {cancelled : Bool} {moves : List Move}
    (hwriter : Writer.start sink root = .ok writer)
    (h : moves.foldlM (State.play limits inspection) (State.start archives writer cancelled) = some t) :
    ∃ ledger : Ledger, ledger.Balances inspection archives sink.taken root t ∧
      Delivered inspection archives sink root t (reportLines root ledger.written) := by
  have hall : (∃ ledger : Ledger, ledger.Balances inspection archives sink.taken root t) ∧
      ∃ pieces, Delivered inspection archives sink root t pieces := by
    refine course_induction (motive := fun s =>
      (∃ ledger : Ledger, ledger.Balances inspection archives sink.taken root s) ∧
        ∃ pieces, Delivered inspection archives sink root s pieces) ?_ h ?_
    · rintro s move t - hstep ⟨⟨ledger, hledger⟩, pieces, hpieces⟩
      exact ⟨hledger.step hstep, hpieces.step hledger hstep⟩
    · exact ⟨⟨_, balances_start hwriter cancelled⟩, _, delivered_start hwriter cancelled⟩
  obtain ⟨⟨ledger, hledger⟩, pieces, hpieces⟩ := hall
  -- Both tell what the sink holds, so the pieces are the lines of the written rows.
  have htaken : t.writer.sink.taken = sink.taken ++ pieces := by
    cases hfailure : t.failure with
    | none => rw [hpieces.going hfailure, Sink.tookAll_eq]
    | some error =>
        rw [(hpieces.stopped error hfailure).2.1, Sink.tookAll_eq]
        rfl
  have hlines : pieces = reportLines root ledger.written :=
    List.append_cancel_left (htaken.symm.trans hledger.lines)
  exact ⟨ledger, hledger, hlines ▸ hpieces⟩

end Delivery

/-! ## The end of a survey -/

/-- A survey has ended with an error: the sink took the heading and the lines of these rows, refused the next
line, which was that of one more row or of the summary, and was offered nothing after that. -/
def Broken (inspection : String → Inspection) (archives : List String) (sink : Sink)
    (root : Option String) (rows : List Row) (report : Writer) (result : Except Report.Error Outcome) : Prop :=
  result = .error (.io sink.refusal) ∧
  report.sink.taken = sink.taken ++ reportLines root rows ∧
  report.sink.offered = sink.offered + (reportLines root rows).length + 1 ∧
  ∃ line, ¬ (sink.tookAll (reportLines root rows)).Takes line ∧
    (line = summaryLine rows ∨ ∃ row ∈ archives.filterMap (rowOf inspection), Writable root row ∧
      line = terminated (rowText root row))

/-- A survey has ended well: the sink took the heading, the lines of these rows and their summary, and the rows
are those of all scanned archives, as far as their paths fit on a line. -/
def Complete (inspection : String → Inspection) (archives : List String) (sink : Sink)
    (root : Option String) (rows : List Row) (report : Writer) (result : Except Report.Error Outcome) : Prop :=
  ∃ outcome, result = .ok outcome ∧ outcome.summary = Summary.ofRows rows ∧
  report.sink.taken = sink.taken ++ (reportLines root rows ++ [summaryLine rows]) ∧
  ∃ scanned : Multiset String, scanned ≤ archives ∧ outcome.scanned = scanned.card ∧
    (rows : Multiset Row) = (scanned.filterMap (rowOf inspection)).filter (Writable root)

section Ending

variable {inspection : String → Inspection} {archives : List String} {sink : Sink} {root : Option String}
  {s : State} {ledger : Ledger} {report : Writer} {result : Except Report.Error Outcome}

lemma broken_of_refused {rows : List Row} {line : String} (hresult : result = .error (.io sink.refusal))
    (hsink : report.sink = (sink.tookAll (reportLines root rows)).refused)
    (hnot : ¬ (sink.tookAll (reportLines root rows)).Takes line)
    (hline : line = summaryLine rows ∨ ∃ row ∈ archives.filterMap (rowOf inspection), Writable root row ∧
      line = terminated (rowText root row)) :
    sink.HasRefused report.sink ∧ Broken inspection archives sink root rows report result := by
  refine ⟨?_, hresult, ?_, ?_, line, hnot, hline⟩
  · rw [hsink]
    exact Sink.hasRefused_refused _ _
  · rw [hsink, Sink.tookAll_eq]
    rfl
  · rw [hsink, Sink.tookAll_eq]
    rfl

/-- **A survey that has come to its end is broken or complete**, as its sink has refused a line or not. -/
lemma ended (hledger : ledger.Balances inspection archives sink.taken root s)
    (h : Delivered inspection archives sink root s (reportLines root ledger.written))
    (hdone : s.isDone = true) (hend : s.conclude = (report, result)) :
    sink.HasRefused report.sink ∧
        Broken inspection archives sink root ledger.written report result ∨
      ¬ sink.HasRefused report.sink ∧
        Complete inspection archives sink root ledger.written report result := by
  unfold State.conclude at hend
  split at hend
  · rename_i error hfailure
    cases hend
    obtain ⟨rfl, hsink, row, hrow, hpath, hnot⟩ := h.stopped error hfailure
    exact Or.inl (broken_of_refused rfl hsink hnot (Or.inr ⟨row, hrow, hpath, rfl⟩))
  · rename_i hfailure
    have hsink := h.going hfailure
    have hsummary := hledger.summary
    generalize hfinish : s.writer.finish = finished at hend
    obtain ⟨after, ended⟩ := finished
    cases hend
    rcases Writer.finish_cases hfinish with ⟨hfinishes, rfl, rfl⟩ | ⟨hnot, rfl, rfl⟩
    · obtain ⟨hshared, hrows⟩ := hledger.settled hdone hfailure
      have hlast : s.writer.sink.took (terminated (summaryText s.writer.summary)) =
          sink.tookAll (reportLines root ledger.written ++ [summaryLine ledger.written]) := by
        rw [Sink.tookAll_append, ← hsink, hsummary]
        rfl
      refine Or.inr ⟨?_, _, rfl, hsummary, ?_, ledger.scanned, ?_, hledger.scanned,
        (hledger.written_eq hrows).1⟩
      · rw [hlast]
        exact Sink.not_hasRefused_tookAll _ _
      · rw [hlast, Sink.tookAll_eq]
      · rw [hshared, add_assoc]
        exact Multiset.le_add_right _ _
    · have hline : ¬ (sink.tookAll (reportLines root ledger.written)).Takes (summaryLine ledger.written) := by
        rw [← hsink, summaryLine, ← hsummary]
        exact hnot
      have hrefusal : s.writer.sink.refusal = sink.refusal := by rw [hsink, Sink.tookAll_eq]
      refine Or.inl (broken_of_refused ?_ (congrArg Sink.refused hsink) hline (Or.inl rfl))
      rw [hrefusal]
      rfl

end Ending

/-! ## Surveys come to their end -/

section Termination

variable {limits : Limits} {inspection : String → Inspection} {s t : State}

/-- Moves that are not cancellations use up the weight of a survey. -/
lemma countP_add_weight_le {moves : List Move}
    (h : moves.foldlM (State.play limits inspection) s = some t) :
    moves.countP (· ≠ .cancel) + t.weight ≤ s.weight := by
  induction moves generalizing s with
  | nil =>
      cases h
      simp
  | cons move moves ih =>
      rw [List.foldlM_cons] at h
      obtain ⟨between, hmove, hrest⟩ := Option.bind_eq_some_iff.mp h
      have hle := ih hrest
      by_cases hcancel : move = .cancel
      · subst hcancel
        cases hmove
        rw [List.countP_cons_of_neg (by simp)]
        exact hle
      · have hlt := weight_lt (step_of_play hmove) hcancel
        rw [List.countP_cons_of_pos (by simpa using hcancel)]
        omega

/-- Before its end, a survey with a worker has a move to make. -/
lemma exists_move (hlimits : 0 < limits.workers) (hs : s.Drained) (hdone : s.isDone = false) :
    ∃ move, move ≠ .cancel ∧ (s.play limits inspection move).isSome = true := by
  cases hnext : s.next? with
  | none =>
      rw [isDone_of_next?_eq_none hnext] at hdone
      cases hdone
  | some move =>
      obtain ⟨hmove, t, ht⟩ := @play_next limits inspection s move hlimits hs hnext
      exact ⟨move, hmove, by rw [ht]; rfl⟩

end Termination

/-- **A survey ends with an error at the first line that is refused.**  Whatever the sink refuses, the number of
workers, the depth of the queue, the order of the moves and the moments of cancellations,

* the survey comes to its end: its moves but for cancellations are bounded, and before the end one is allowed;
* at its end the sink has taken, one after the other, the heading and the lines of rows of the archives.  If it
  has refused a line, the survey ends with an error, and the sink holds just these lines, was refused the next one
  it was offered, and was offered nothing more: no later row, no summary;
* if it has refused nothing, the survey ends well, and the lines of all its rows and their summary are there. -/
theorem survey_stops_at_refusal {limits : Limits} {inspection : String → Inspection}
    {archives : List String} {sink : Sink} {root : Option String} {writer : Writer} {cancelled : Bool}
    {moves : List Move} {state : State} (hwriter : Writer.start sink root = .ok writer)
    (hmoves : moves.foldlM (State.play limits inspection) (State.start archives writer cancelled) =
      some state) :
    moves.countP (· ≠ .cancel) ≤ movesPerArchive * archives.length ∧
    (0 < limits.workers → state.isDone = false →
      ∃ move, move ≠ .cancel ∧ (state.play limits inspection move).isSome = true) ∧
    ∀ report result, state.isDone = true → state.conclude = (report, result) →
      ∃ rows : List Row,
        (rows : Multiset Row) ≤ ((archives.filterMap (rowOf inspection)).filter (Writable root ·) : List Row) ∧
        sink.TakesAll (reportLines root rows) ∧
        (sink.HasRefused report.sink → Broken inspection archives sink root rows report result) ∧
        (¬ sink.HasRefused report.sink → Complete inspection archives sink root rows report result) := by
  refine ⟨?_, ?_, ?_⟩
  · have hle := countP_add_weight_le hmoves
    have hstart : (State.start archives writer cancelled).weight = movesPerArchive * archives.length := by
      simp [State.weight, State.start]
    omega
  · intro hlimits
    refine exists_move hlimits (course_induction (fun _ => drained_step) hmoves ?_)
    exact fun _ => rfl
  · intro report result hdone hend
    obtain ⟨ledger, hledger, hdelivered⟩ := delivered_of_course hwriter hmoves
    refine ⟨ledger.written, ?_, hdelivered.takes, ?_⟩
    · rw [← Multiset.filter_coe]
      exact Multiset.le_filter.mpr ⟨hledger.drawn, hledger.writable⟩
    · rcases ended hledger hdelivered hdone hend with ⟨hrefused, hbroken⟩ | ⟨hnot, hcomplete⟩
      · exact ⟨fun _ => hbroken, fun hnot => absurd hrefused hnot⟩
      · exact ⟨fun hrefused => absurd hrefused hnot, fun _ => hcomplete⟩

/-! Two workers and a sink that refuses the second row: a worker that sends the third cancels the survey, and the
last archive is skipped. -/

def refusedCourse : List Move :=
  [.take 0, .take 0, .check 0, .check 1, .inspect 0, .inspect 1, .send 0, .take 0, .send 0, .check 0, .write,
    .inspect 0, .write, .send 0, .take 0, .check 0]

lemma refusedCourse_ends {writer : Writer} (hwriter : Writer.start refusingSink none = .ok writer) :
    ∃ state report result, refusedCourse.foldlM (State.play ⟨2, 2⟩ sampleInspection)
        (State.start ["a.jar", "c.jar", "d.jar", "e.jar"] writer false) = some state ∧
      state.isDone = true ∧ (state.cancelled, state.scanned, state.skipped) = (true, 3, 1) ∧
      state.conclude = (report, result) ∧ refusingSink.HasRefused report.sink ∧
      report.sink.taken = reportLines none [sampleRow "a.jar"] := by
  cases hwriter
  refine ⟨_, _, _, rfl, rfl, rfl, rfl, ?_, rfl⟩
  -- Three pieces were offered, and two of them taken.
  show 2 - 0 < 3 - 0
  decide

theorem survey_stops_at_refusal_second_row :
    ∃ writer state report result, Writer.start refusingSink none = .ok writer ∧
      refusedCourse.foldlM (State.play ⟨2, 2⟩ sampleInspection)
        (State.start ["a.jar", "c.jar", "d.jar", "e.jar"] writer false) = some state ∧
      state.isDone = true ∧ (state.cancelled, state.scanned, state.skipped) = (true, 3, 1) ∧
      state.conclude = (report, result) ∧ refusingSink.HasRefused report.sink ∧
      report.sink.taken = reportLines none [sampleRow "a.jar"] ∧ result = .error (.io "full") := by
  have hwriter : Writer.start refusingSink none = .ok
      ⟨refusingSink.took (terminated Schema.current.heading), none, Summary.empty⟩ := rfl
  obtain ⟨state, report, result, hmoves, hdone, hcounts, hend, hrefused, htaken⟩ := refusedCourse_ends hwriter
  obtain ⟨rows, -, -, hbroken, -⟩ := (survey_stops_at_refusal hwriter hmoves).2.2 report result hdone hend
  exact ⟨_, state, report, result, hwriter, hmoves, hdone, hcounts, hend, hrefused, htaken,
    (hbroken hrefused).1⟩

end Survey

end JarSurvey
