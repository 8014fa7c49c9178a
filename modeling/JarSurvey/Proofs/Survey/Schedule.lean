import JarSurvey.Proofs.Survey.Ledger

/-!
# The outcome of a survey does not depend on its course

A survey that has come to its end with an outcome has settled every archive and every row: its ledger says
which, and nothing is underway any more.  If it was not cancelled, no archive was skipped, so that what
inspecting the archives gives fixes the accounts (`outcome_eq_expected`).  The order of the lines is all
that is left open, and totals do not depend on it (`ofRows_eq_of_coe_eq`).

Surveying the archives one after the other is one such course: every move but a cancellation lowers the
`weight` of the state (`weight_lt`), the next move is always allowed (`play_next`), and so the survey comes
to its end (`advance_course`).

**`survey_any_schedule`** puts both together.
-/

namespace JarSurvey.Survey

open Report

/-! ## Totals -/

instance : RightCommutative Summary.add where
  right_comm summary a b := by
    simp only [Summary.add, Usage.merge_right_comm, Nat.add_right_comm]

/-- A total does not depend on the order of the rows. -/
lemma ofRows_eq_of_coe_eq {a b : List Row} (h : (a : Multiset Row) = b) :
    Summary.ofRows a = Summary.ofRows b :=
  (Multiset.coe_eq_coe.mp h).foldl_eq _

lemma archives_foldl_add (rows : List Row) (summary : Summary) :
    (rows.foldl Summary.add summary).archives = summary.archives + rows.length := by
  induction rows generalizing summary with
  | nil => rfl
  | cons row rows ih =>
      rw [List.foldl_cons, ih, List.length_cons]
      show summary.archives + 1 + rows.length = _
      omega

lemma archives_ofRows (rows : List Row) : (Summary.ofRows rows).archives = rows.length := by
  rw [Summary.ofRows, archives_foldl_add]
  exact Nat.zero_add _

lemma card_filterMap_of_isSome {α β : Type} {f : α → Option β} {m : Multiset α}
    (h : ∀ x ∈ m, (f x).isSome) : (m.filterMap f).card = m.card := by
  induction m using Multiset.induction_on with
  | empty => rfl
  | cons x m ih =>
      obtain ⟨hx, hm⟩ := Multiset.forall_mem_cons.mp h
      obtain ⟨y, hy⟩ := Option.isSome_iff_exists.mp hx
      rw [Multiset.filterMap_cons_some f x m hy, Multiset.card_cons, Multiset.card_cons, ih hm]

lemma filterMap_eq_zero {α β : Type} {f : α → Option β} {m : Multiset α} (h : ∀ x ∈ m, f x = none) :
    m.filterMap f = 0 := by
  induction m using Multiset.induction_on with
  | empty => rfl
  | cons x m ih =>
      obtain ⟨hx, hm⟩ := Multiset.forall_mem_cons.mp h
      rw [Multiset.filterMap_cons_none x m hx, ih hm]

/-! ## The end of a course -/

section Ending

variable {inspection : String → Inspection} {archives before : List String} {root : Option String}
  {s : State} {ledger : Ledger} {report : Writer} {outcome : Outcome}

lemma isDone_iff : s.isDone = true ↔ s.waiting = [] ∧ s.workers = [] ∧ s.queue = [] := by
  simp only [State.isDone, Bool.and_eq_true, List.isEmpty_iff, and_assoc]

lemma conclude_ok (h : s.conclude = (report, .ok outcome)) :
    s.failure = none ∧ s.writer.finish = (report, .ok outcome.summary) ∧
      outcome = ⟨s.scanned, s.failed, s.skipped, s.unwritable, outcome.summary⟩ := by
  unfold State.conclude at h
  split at h
  · cases h
  · rename_i hfailure
    generalize s.writer.finish = finished at h ⊢
    obtain ⟨after, result⟩ := finished
    cases result with
    | error error => cases h
    | ok summary =>
        cases h
        exact ⟨hfailure, rfl, rfl⟩

/-- At the end of a course nothing is undecided, and no row is underway. -/
lemma Ledger.Balances.settled (h : ledger.Balances inspection archives before root s)
    (hdone : s.isDone = true) (hfailure : s.failure = none) :
    (archives : Multiset String) = ledger.scanned + ledger.failed + ledger.skipped ∧
      ledger.scanned.filterMap (rowOf inspection) = ledger.written + ledger.leftOut := by
  obtain ⟨hwaiting, hworkers, hqueue⟩ := isDone_iff.mp hdone
  have hshared := h.shared
  have hrows := h.rows hfailure
  simp only [State.undecided, State.underway, hwaiting, hworkers, hqueue, Multiset.coe_nil,
    Multiset.filterMap_zero, zero_add] at hshared hrows
  exact ⟨hshared, hrows⟩

/-- The written rows are those that fit on a line, and the others were left out. -/
lemma Ledger.Balances.written_eq (h : ledger.Balances inspection archives before root s)
    {rows : Multiset Row} (hrows : rows = ledger.written + ledger.leftOut) :
    (ledger.written : Multiset Row) = rows.filter (Writable root) ∧
      ledger.leftOut = rows.filter (¬ Writable root ·) := by
  have hwritten : ∀ row ∈ (ledger.written : Multiset Row), Writable root row := h.writable
  subst hrows
  constructor
  · rw [Multiset.filter_add, Multiset.filter_eq_self.mpr hwritten, Multiset.filter_eq_nil.mpr h.unwritable,
      add_zero]
  · rw [Multiset.filter_add, Multiset.filter_eq_self.mpr h.unwritable, Multiset.filter_eq_nil.mpr, zero_add]
    intro row hrow
    exact not_not.mpr (hwritten row hrow)

/-- The report holds the heading, the lines of the written rows, and the line of their total. -/
lemma Ledger.Balances.report_eq (h : ledger.Balances inspection archives before root s)
    (hok : s.conclude = (report, .ok outcome)) :
    outcome.summary = Summary.ofRows ledger.written ∧
      report.sink.taken = before ++ terminated Schema.current.heading ::
        (ledger.written.map (fun row => terminated (rowText root row)) ++
          [terminated (summaryText (Summary.ofRows ledger.written))]) := by
  obtain ⟨-, hfinish, -⟩ := conclude_ok hok
  obtain ⟨hsummary, htaken⟩ := Writer.finish_ok hfinish
  rw [h.summary] at hsummary htaken
  refine ⟨hsummary, ?_⟩
  rw [htaken, h.lines]
  simp

/-- What the survey of archives comes to if it is not cancelled. -/
def expected (inspection : String → Inspection) (root : Option String) (archives : List String) : Outcome :=
  let rows := archives.filterMap (rowOf inspection)
  { scanned := rows.length
    failed := archives.length - rows.length
    skipped := 0
    unwritable := (rows.filter (¬ Writable root ·)).length
    summary := Summary.ofRows (rows.filter (Writable root ·)) }

/-- **Without a cancellation what inspecting the archives gives fixes the outcome** and, but for their
order, the rows that are written. -/
lemma outcome_eq_expected (h : ledger.Balances inspection archives before root s)
    (hdone : s.isDone = true) (hok : s.conclude = (report, .ok outcome)) (hcancelled : s.cancelled = false) :
    outcome = expected inspection root archives ∧
      (ledger.written : Multiset Row) =
        ((archives.filterMap (rowOf inspection)).filter (Writable root ·) : List Row) := by
  obtain ⟨hfailure, -, houtcome⟩ := conclude_ok hok
  obtain ⟨hshared, hrows⟩ := h.settled hdone hfailure
  rw [h.uncancelled hcancelled, add_zero] at hshared
  -- The archives that could not be read give no rows.
  have hall : ledger.scanned.filterMap (rowOf inspection) =
      (archives.filterMap (rowOf inspection) : List Row) := by
    rw [← Multiset.filterMap_coe, hshared, Multiset.filterMap_add, filterMap_eq_zero h.unreadable, add_zero]
  have hscanned : ledger.scanned.card = (archives.filterMap (rowOf inspection)).length := by
    rw [← card_filterMap_of_isSome h.readable, hall, Multiset.coe_card]
  have hcount : archives.length = ledger.scanned.card + ledger.failed.card := by
    rw [← Multiset.coe_card, hshared, Multiset.card_add]
  obtain ⟨hwritten, hleftOut⟩ := h.written_eq (hall.symm.trans hrows)
  rw [Multiset.filter_coe] at hwritten hleftOut
  refine ⟨?_, hwritten⟩
  have hskipped : s.skipped = 0 := by rw [h.skipped, h.uncancelled hcancelled, Multiset.card_zero]
  have hunwritable : s.unwritable = (expected inspection root archives).unwritable := by
    rw [h.leftOut, hleftOut, Multiset.coe_card]
    rfl
  have hsummary : outcome.summary = (expected inspection root archives).summary :=
    (h.report_eq hok).1.trans (ofRows_eq_of_coe_eq hwritten)
  rw [houtcome, h.scanned, h.failed, hskipped, hunwritable, hsummary, hscanned]
  simp only [expected, Outcome.mk.injEq, true_and, and_true]
  omega

end Ending

/-! ## One archive after the other -/

section Sequential

variable {limits : Limits} {inspection : String → Inspection} {s t : State} {move : Move}

/-- How many moves a worker has left at most, with those of its row in the queue. -/
def Worker.weight : Worker → Nat
  | taken _ => 4
  | inspecting _ => 3
  | sending _ => 2

/-- How many moves a survey has left at most. -/
def State.weight (s : State) : Nat :=
  movesPerArchive * s.waiting.length + ((s.workers : Multiset Worker).map Worker.weight).sum + s.queue.length

/-- **Every move but a cancellation brings the survey closer to its end.** -/
lemma weight_lt (h : Step limits inspection s move t) (hmove : move ≠ .cancel) : t.weight < s.weight := by
  cases h with
  | take hpath hfree =>
      have hlength := congrArg Multiset.card (coe_eraseIdx hpath)
      simp only [Multiset.card_add, Multiset.coe_card, Multiset.card_singleton] at hlength
      simp only [State.weight, coe_push, Multiset.map_add, Multiset.map_singleton, Multiset.sum_add,
        Multiset.sum_singleton, Worker.weight, movesPerArchive]
      omega
  | skip hworker | fail hworker | lose hworker | send hworker =>
      simp only [State.weight, coe_eraseIdx hworker, Multiset.map_add, Multiset.map_singleton,
        Multiset.sum_add, Multiset.sum_singleton, Worker.weight, List.length_append, List.length_singleton]
      omega
  | goOn hworker | scan hworker =>
      simp only [State.weight, coe_eraseIdx hworker, coe_set hworker, Multiset.map_add,
        Multiset.map_singleton, Multiset.sum_add, Multiset.sum_singleton, Worker.weight]
      omega
  | write hwriting hqueue | leaveOut hwriting hqueue | stop hwriting hqueue =>
      simp only [State.weight, hqueue, List.length_cons, List.length_nil]
      omega
  | cancel => exact absurd rfl hmove

/-- Once the writer has stopped, nothing waits for it. -/
def State.Drained (s : State) : Prop :=
  s.failure ≠ none → s.queue = []

lemma drained_step (h : Step limits inspection s move t) (hs : s.Drained) : t.Drained := by
  cases h with
  | take | skip | goOn | scan | fail | lose | cancel => exact hs
  | send _ hwriting | write hwriting | leaveOut hwriting => exact fun hstopped => absurd hwriting hstopped
  | stop => exact fun _ => rfl

lemma Limits.capacity_pos (limits : Limits) : 0 < limits.capacity :=
  Nat.lt_of_lt_of_le Nat.one_pos (Nat.le_max_left 1 limits.queueDepth)

/-- The next move is always allowed, if there is a worker. -/
lemma play_next (hlimits : 0 < limits.workers) (hs : s.Drained) (h : s.next? = some move) :
    move ≠ .cancel ∧ ∃ t, s.play limits inspection move = some t := by
  unfold State.next? at h
  by_cases hqueue : s.queue.isEmpty = true
  · rw [if_pos hqueue] at h
    split at h
    · rename_i hworkers
      cases h
      refine ⟨Move.noConfusion, ?_⟩
      simp only [State.play, State.check?, hworkers, List.getElem?_cons_zero]
      split_ifs <;> exact ⟨_, rfl⟩
    · rename_i hworkers
      cases h
      refine ⟨Move.noConfusion, ?_⟩
      simp only [State.play, State.inspect?, hworkers, List.getElem?_cons_zero]
      split <;> exact ⟨_, rfl⟩
    · rename_i hworkers
      cases h
      refine ⟨Move.noConfusion, ?_⟩
      have hroom : s.queue.length < limits.capacity := by
        rw [List.isEmpty_iff.mp hqueue]
        exact limits.capacity_pos
      simp only [State.play, State.send?, hworkers, List.getElem?_cons_zero, hroom, if_true]
      split_ifs <;> exact ⟨_, rfl⟩
    · rename_i hworkers
      split_ifs at h with hwaiting
      cases h
      obtain ⟨path, later, hcons⟩ := List.exists_cons_of_ne_nil (mt List.isEmpty_iff.mpr hwaiting)
      exact ⟨Move.noConfusion, by simp [State.play, State.take?, hcons, hworkers, hlimits]⟩
  · rw [if_neg hqueue] at h
    cases h
    refine ⟨Move.noConfusion, ?_⟩
    have hfailure : s.failure = none := by
      by_contra hstopped
      rw [hs hstopped] at hqueue
      exact hqueue rfl
    obtain ⟨row, later, hcons⟩ := List.exists_cons_of_ne_nil (mt List.isEmpty_iff.mpr hqueue)
    simp only [State.play, State.write?, hfailure, hcons]
    split <;> exact ⟨_, rfl⟩

lemma isDone_of_next?_eq_none (h : s.next? = none) : s.isDone = true := by
  unfold State.next? at h
  by_cases hqueue : s.queue.isEmpty = true
  · rw [if_pos hqueue] at h
    split at h
    · cases h
    · cases h
    · cases h
    · rename_i hworkers
      by_cases hwaiting : s.waiting.isEmpty = true
      · simp only [State.isDone, hwaiting, hworkers, hqueue, List.isEmpty_nil, Bool.and_self]
      · rw [if_neg hwaiting] at h
        cases h
  · rw [if_neg hqueue] at h
    cases h

/-- **With enough moves left, the survey goes on by allowed moves to its end**, and does not cancel
itself. -/
lemma advance_course {moves : Nat} (hlimits : 0 < limits.workers) (hs : s.Drained) (hmoves : s.weight ≤ moves) :
    ∃ course : List Move, .cancel ∉ course ∧ course.foldlM (State.play limits inspection) s =
      some (s.advance limits inspection moves) ∧
      (s.advance limits inspection moves).isDone = true := by
  induction moves generalizing s with
  | zero =>
      cases hnext : s.next? with
      | none => exact ⟨[], nofun, rfl, isDone_of_next?_eq_none hnext⟩
      | some move =>
          obtain ⟨hmove, t, ht⟩ := @play_next limits inspection _ _ hlimits hs hnext
          have hlt := weight_lt (step_of_play ht) hmove
          omega
  | succ moves ih =>
      cases hnext : s.next? with
      | none =>
          have hstay : s.advance limits inspection (moves + 1) = s := by
            rw [State.advance, hnext]
            rfl
          rw [hstay]
          exact ⟨[], nofun, rfl, isDone_of_next?_eq_none hnext⟩
      | some move =>
          obtain ⟨hmove, t, ht⟩ := @play_next limits inspection _ _ hlimits hs hnext
          have hstep := step_of_play ht
          have hlt := weight_lt hstep hmove
          have hgo : s.advance limits inspection (moves + 1) = t.advance limits inspection moves := by
            rw [State.advance, hnext, Option.bind_some, ht]
          obtain ⟨course, hcourse, hplay, hdone⟩ := ih (drained_step hstep hs) (by omega)
          rw [hgo]
          refine ⟨move :: course, ?_, ?_, hdone⟩
          · exact List.not_mem_cons_of_ne_of_not_mem hmove.symm hcourse
          · rw [List.foldlM_cons, ht]
            exact hplay

/-- The writer writes to a sink that takes everything, and the survey was not cancelled. -/
structure State.Undisturbed (s : State) : Prop where
  accepts : ∀ offered taken piece, s.writer.sink.accepts offered taken piece = true
  failure : s.failure = none
  cancelled : s.cancelled = false

lemma undisturbed_step (h : Step limits inspection s move t) (hmove : move ≠ .cancel)
    (hs : s.Undisturbed) : t.Undisturbed := by
  cases h with
  | take | skip | goOn | scan | fail | send => exact { hs with }
  | lose _ hstopped => exact absurd hs.failure hstopped
  | write _ _ hwrite | leaveOut _ _ hwrite =>
      have haccepts := Writer.write_accepts hwrite
      exact { hs with accepts := haccepts ▸ hs.accepts }
  | stop _ _ hwrite herror =>
      obtain ⟨path, rfl⟩ := Writer.unwritable_of_write_error hs.accepts hwrite
      exact absurd rfl (herror path)
  | cancel => exact absurd rfl hmove

lemma conclude_of_undisturbed (hs : s.Undisturbed) :
    ∃ report outcome, s.conclude = (report, .ok outcome) := by
  simp only [State.conclude, hs.failure, Writer.finish, Sink.offer, hs.accepts, if_true]
  exact ⟨_, _, rfl⟩

/-- **Surveying archives one after the other, without a cancellation and with a sink that takes everything,
gives what inspecting the archives gives.** -/
lemma run_conclude (inspection : String → Inspection) (archives : List String) (root : Option String) :
    ∃ first last, ∃ rows : List Row, Writer.start Sink.unlimited root = .ok first ∧
      (run inspection archives first false).conclude = (last, .ok (expected inspection root archives)) ∧
      (rows : Multiset Row) = ((archives.filterMap (rowOf inspection)).filter (Writable root ·) : List Row) ∧
      last.sink.taken = terminated Schema.current.heading ::
        (rows.map (fun row => terminated (rowText root row)) ++
          [terminated (summaryText (Summary.ofRows rows))]) := by
  have hstart := start_unlimited root
  generalize hfirst : (⟨⟨[terminated Schema.v7.heading], 1, fun _ _ _ => true, ""⟩, root,
    Summary.empty⟩ : Writer) = first at hstart
  have hweight : (State.start archives first false).weight ≤ movesPerArchive * archives.length := by
    simp [State.weight, State.start]
  have hdrained : (State.start archives first false).Drained := fun _ => rfl
  obtain ⟨course, hcourse, hplay, hdone⟩ := @advance_course sequential inspection _ _ Nat.one_pos hdrained hweight
  have hundisturbed : (run inspection archives first false).Undisturbed := by
    refine course_induction (motive := State.Undisturbed) (fun hmem hstep => ?_) hplay ?_
    · exact undisturbed_step hstep fun hcancel => hcourse (hcancel ▸ hmem)
    · subst hfirst
      exact ⟨fun _ _ _ => rfl, rfl, rfl⟩
  obtain ⟨ledger, hledger⟩ := balances_of_course hstart hplay
  obtain ⟨last, outcome, hok⟩ := conclude_of_undisturbed hundisturbed
  obtain ⟨rfl, hwritten⟩ := outcome_eq_expected hledger hdone hok hundisturbed.cancelled
  exact ⟨first, last, ledger.written, hstart, hok, hwritten, (hledger.report_eq hok).2⟩

end Sequential

/-! ## Any course -/

/-- **A survey that ends with an outcome has settled every archive and written every row once**, whatever
the number of workers, the depth of the queue, the order of the moves and the moment of a cancellation:

* each archive was scanned, could not be read, or was skipped, and the outcome counts them;
* the report holds the heading, one line for each scanned archive whose path fits on a line, and the total
  of exactly these rows; the other scanned archives are counted as unwritable;
* if the survey was not cancelled, its outcome and its lines are those of surveying the archives one after
  the other. -/
theorem survey_any_schedule {limits : Limits} {inspection : String → Inspection} {archives : List String}
    {sink : Sink} {root : Option String} {writer : Writer} {cancelled : Bool} {moves : List Move}
    {state : State} {report : Writer} {outcome : Outcome}
    (hwriter : Writer.start sink root = .ok writer)
    (hmoves : moves.foldlM (State.play limits inspection) (State.start archives writer cancelled) =
      some state)
    (hdone : state.isDone = true) (hok : state.conclude = (report, .ok outcome)) :
    outcome.scanned + outcome.failed + outcome.skipped = archives.length ∧
    outcome.summary.archives + outcome.unwritable = outcome.scanned ∧
    (∃ scanned failed skipped : Multiset String, ∃ rows : List Row,
      (archives : Multiset String) = scanned + failed + skipped ∧
      outcome.scanned = scanned.card ∧ outcome.failed = failed.card ∧ outcome.skipped = skipped.card ∧
      (∀ path ∈ scanned, (rowOf inspection path).isSome) ∧
      (∀ path ∈ failed, rowOf inspection path = none) ∧
      (rows : Multiset Row) = (scanned.filterMap (rowOf inspection)).filter (Writable root) ∧
      outcome.summary = Summary.ofRows rows ∧
      report.sink.taken = sink.taken ++ terminated Schema.current.heading ::
        (rows.map (fun row => terminated (rowText root row)) ++
          [terminated (summaryText (Summary.ofRows rows))])) ∧
    (state.cancelled = false → ∃ first last, Writer.start Sink.unlimited root = .ok first ∧
      (run inspection archives first false).conclude = (last, .ok outcome) ∧
      (report.sink.taken : Multiset String) = sink.taken + last.sink.taken) := by
  obtain ⟨ledger, hledger⟩ := balances_of_course hwriter hmoves
  obtain ⟨hfailure, -, houtcome⟩ := conclude_ok hok
  obtain ⟨hshared, hrows⟩ := hledger.settled hdone hfailure
  obtain ⟨hsummary, htaken⟩ := hledger.report_eq hok
  have hscanned : outcome.scanned = ledger.scanned.card := by rw [houtcome, hledger.scanned]
  have hfailed : outcome.failed = ledger.failed.card := by rw [houtcome, hledger.failed]
  have hskipped : outcome.skipped = ledger.skipped.card := by rw [houtcome, hledger.skipped]
  have hleftOut : outcome.unwritable = ledger.leftOut.card := by rw [houtcome, hledger.leftOut]
  refine ⟨?_, ?_, ⟨ledger.scanned, ledger.failed, ledger.skipped, ledger.written, hshared, hscanned,
    hfailed, hskipped, hledger.readable, hledger.unreadable, (hledger.written_eq hrows).1, hsummary,
    htaken⟩, ?_⟩
  · rw [hscanned, hfailed, hskipped, ← Multiset.coe_card, hshared, Multiset.card_add, Multiset.card_add]
  · rw [hsummary, archives_ofRows, hleftOut, hscanned, ← card_filterMap_of_isSome hledger.readable, hrows,
      Multiset.card_add, Multiset.coe_card]
  · intro hcancelled
    obtain ⟨rfl, hwritten⟩ := outcome_eq_expected hledger hdone hok hcancelled
    obtain ⟨first, last, rows, hfirst, hlast, hsame, hlines⟩ := run_conclude inspection archives root
    refine ⟨first, last, hfirst, hlast, ?_⟩
    have hcoe : (ledger.written : Multiset Row) = rows := hwritten.trans hsame.symm
    rw [htaken, hlines, ofRows_eq_of_coe_eq hcoe, ← Multiset.coe_add]
    congr 1
    rw [← Multiset.cons_coe, ← Multiset.cons_coe, ← Multiset.coe_add, ← Multiset.coe_add,
      ← Multiset.map_coe, ← Multiset.map_coe, hcoe]

/-! Two workers and a queue of one row: the archives are taken out of order, one cannot be read, and the path
of another does not fit on a line. -/

def sampleRow (path : String) : Row :=
  ⟨⟨path, "", 0, 0, 0, 0, []⟩, Usage.empty⟩

def sampleInspection (path : String) : Inspection :=
  if path = "b.jar" then ⟨.unreadable, [.unreadableArchive path]⟩ else ⟨.row (sampleRow path), []⟩

def sampleCourse : List Move :=
  [.take 2, .take 0, .check 1, .check 0, .inspect 1, .inspect 0, .send 1, .take 0, .check 1, .inspect 1,
    .write, .send 0, .write]

lemma sampleCourse_ends {writer : Writer} (hwriter : Writer.start Sink.unlimited none = .ok writer) :
    ∃ state report outcome, sampleCourse.foldlM (State.play ⟨2, 1⟩ sampleInspection)
        (State.start ["a.jar", "b.jar", "c\td.jar"] writer false) = some state ∧
      state.isDone = true ∧ state.cancelled = false ∧ state.conclude = (report, .ok outcome) ∧
      (outcome.scanned, outcome.failed, outcome.skipped, outcome.unwritable) = (2, 1, 0, 1) := by
  rw [start_unlimited] at hwriter
  cases hwriter
  exact ⟨_, _, _, rfl, rfl, rfl, rfl, rfl⟩

theorem survey_any_schedule_two_workers :
    ∃ writer state report outcome, Writer.start Sink.unlimited none = .ok writer ∧
      sampleCourse.foldlM (State.play ⟨2, 1⟩ sampleInspection)
        (State.start ["a.jar", "b.jar", "c\td.jar"] writer false) = some state ∧
      state.isDone = true ∧ state.conclude = (report, .ok outcome) ∧
      outcome.scanned + outcome.failed + outcome.skipped = 3 ∧
      outcome.summary.archives + outcome.unwritable = outcome.scanned ∧
      (outcome.scanned, outcome.failed, outcome.skipped, outcome.unwritable) = (2, 1, 0, 1) ∧
      ∃ first last, Writer.start Sink.unlimited none = .ok first ∧
        (run sampleInspection ["a.jar", "b.jar", "c\td.jar"] first false).conclude = (last, .ok outcome) ∧
        (report.sink.taken : Multiset String) = last.sink.taken := by
  have hwriter := start_unlimited none
  obtain ⟨state, report, outcome, hmoves, hdone, hcancelled, hok, hcounts⟩ := sampleCourse_ends hwriter
  obtain ⟨hall, hscanned, -, hsame⟩ := survey_any_schedule hwriter hmoves hdone hok
  obtain ⟨first, last, hfirst, hlast, hlines⟩ := hsame hcancelled
  refine ⟨_, state, report, outcome, hwriter, hmoves, hdone, hok, hall, hscanned, hcounts, first, last,
    hfirst, hlast, ?_⟩
  rw [hlines]
  exact zero_add _

end JarSurvey.Survey
