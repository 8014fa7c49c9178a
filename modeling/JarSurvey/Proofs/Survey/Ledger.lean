import JarSurvey.Proofs.Report.Writer
import JarSurvey.Survey.Run
import Mathlib.Algebra.Order.Group.Multiset

/-!
# What becomes of the archives of a survey

The moves of a survey come in any order.  Each moves one archive or one row on: `Step` lists what a move
can do, and `step_of_play` is the only place that opens the moves.

A `Ledger` keeps what the counters of a state forget: **which** archives were scanned, could not be read or
were skipped, and which rows were written or left out.  It balances with a state (`Ledger.Balances`) if

* every archive is waiting, with a worker, or in one of the three accounts, each time it was given;
* every row of a scanned archive is with a worker, in the queue, written or left out, unless the writer
  has stopped, and what is written comes from the archives in any case;
* the sink holds the heading and the lines of the written rows, in the order of writing.

A step keeps a ledger balanced (`Ledger.Balances.step`), and so does a whole course (`balances_of_course`).
-/

namespace JarSurvey

namespace Survey

open Report

/-! ## What a move can do -/

section Steps

variable {limits : Limits} {inspection : String → Inspection}

/-- What a move can do to a state. -/
inductive Step (limits : Limits) (inspection : String → Inspection) (s : State) : Move → State → Prop
  | take {i : Nat} {path : String} (h : s.waiting[i]? = some path)
      (hfree : s.workers.length < limits.workers) :
      Step limits inspection s (.take i)
        { s with waiting := s.waiting.eraseIdx i, workers := s.workers ++ [.taken path] }
  | skip {i : Nat} {path : String} (h : s.workers[i]? = some (.taken path))
      (hcancelled : s.cancelled = true) :
      Step limits inspection s (.check i)
        { s with workers := s.workers.eraseIdx i, skipped := s.skipped + 1 }
  | goOn {i : Nat} {path : String} (h : s.workers[i]? = some (.taken path))
      (hcancelled : s.cancelled = false) :
      Step limits inspection s (.check i) { s with workers := s.workers.set i (.inspecting path) }
  | scan {i : Nat} {path : String} {row : Row} (h : s.workers[i]? = some (.inspecting path))
      (hfinding : (inspection path).finding = .row row) :
      Step limits inspection s (.inspect i)
        { s with
          workers := s.workers.set i (.sending row)
          scanned := s.scanned + 1
          warnings := s.warnings ++ (inspection path).warnings }
  | fail {i : Nat} {path : String} (h : s.workers[i]? = some (.inspecting path))
      (hfinding : ∀ row, (inspection path).finding ≠ .row row) :
      Step limits inspection s (.inspect i)
        { s with
          workers := s.workers.eraseIdx i
          failed := s.failed + 1
          warnings := s.warnings ++ (inspection path).warnings }
  | lose {i : Nat} {row : Row} (h : s.workers[i]? = some (.sending row)) (hstopped : s.failure ≠ none) :
      Step limits inspection s (.send i) { s with workers := s.workers.eraseIdx i, cancelled := true }
  | send {i : Nat} {row : Row} (h : s.workers[i]? = some (.sending row)) (hwriting : s.failure = none)
      (hroom : s.queue.length < limits.capacity) :
      Step limits inspection s (.send i)
        { s with workers := s.workers.eraseIdx i, queue := s.queue ++ [row] }
  | write {row : Row} {later : List Row} {writer : Writer} (hwriting : s.failure = none)
      (hqueue : s.queue = row :: later) (h : s.writer.write row = (writer, .ok ())) :
      Step limits inspection s .write { s with writer, queue := later }
  | leaveOut {row : Row} {later : List Row} {writer : Writer} {path : String}
      (hwriting : s.failure = none) (hqueue : s.queue = row :: later)
      (h : s.writer.write row = (writer, .error (.unwritablePath path))) :
      Step limits inspection s .write
        { s with
          writer
          queue := later
          unwritable := s.unwritable + 1
          warnings := s.warnings ++ [.unwritablePath path] }
  | stop {row : Row} {later : List Row} {writer : Writer} {error : Report.Error}
      (hwriting : s.failure = none) (hqueue : s.queue = row :: later)
      (h : s.writer.write row = (writer, .error error)) (herror : ∀ path, error ≠ .unwritablePath path) :
      Step limits inspection s .write { s with writer, queue := [], failure := some error }
  | cancel : Step limits inspection s .cancel { s with cancelled := true }

lemma step_of_play {s t : State} {move : Move} (h : s.play limits inspection move = some t) :
    Step limits inspection s move t := by
  cases move with
  | take i =>
      simp only [State.play, State.take?] at h
      split at h
      · rename_i path hpath
        split_ifs at h with hfree
        cases h
        exact .take hpath hfree
      · cases h
  | check i =>
      simp only [State.play, State.check?] at h
      split at h
      · rename_i path hpath
        split_ifs at h with hcancelled <;> cases h
        · exact .skip hpath hcancelled
        · exact .goOn hpath (by simpa using hcancelled)
      · cases h
  | inspect i =>
      simp only [State.play, State.inspect?] at h
      split at h
      · rename_i path hpath
        split at h
        · rename_i row hrow
          cases h
          exact .scan hpath hrow
        · rename_i hrow
          cases h
          exact .fail hpath hrow
      · cases h
  | send i =>
      simp only [State.play, State.send?] at h
      split at h
      · rename_i row hrow
        split_ifs at h with hstopped hroom <;> cases h
        · exact .lose hrow (by simpa [Option.isSome_iff_ne_none] using hstopped)
        · exact .send hrow (by simpa using hstopped) hroom
      · cases h
  | write =>
      simp only [State.play, State.write?] at h
      split at h
      · rename_i row later hwriting hqueue
        split at h <;> cases h
        · rename_i hresult
          exact .write hwriting hqueue (Prod.ext rfl hresult)
        · rename_i path hresult
          exact .leaveOut hwriting hqueue (Prod.ext rfl hresult)
        · rename_i error herror hresult
          exact .stop hwriting hqueue (Prod.ext rfl hresult) herror
      · cases h
  | cancel =>
      cases h
      exact .cancel

end Steps

/-! ## Where archives and rows are -/

/-- The row that inspecting an archive gives, if it gives one. -/
def rowOf (inspection : String → Inspection) (path : String) : Option Row :=
  match (inspection path).finding with
  | .row row => some row
  | _ => none

lemma rowOf_eq_some {inspection : String → Inspection} {path : String} {row : Row}
    (h : (inspection path).finding = .row row) : rowOf inspection path = some row := by
  rw [rowOf, h]

lemma rowOf_eq_none {inspection : String → Inspection} {path : String}
    (h : ∀ row, (inspection path).finding ≠ .row row) : rowOf inspection path = none := by
  unfold rowOf
  split
  · rename_i row hrow
    exact absurd hrow (h row)
  · rfl

/-- The path of a row fits on a line. -/
def Writable (root : Option String) (row : Row) : Prop :=
  isWritable (relativePath root row.record.path) = true

instance (root : Option String) : DecidablePred (Writable root) :=
  fun _ => inferInstanceAs (Decidable (_ = true))

/-- The archive that a worker has not decided about. -/
def Worker.path? : Worker → Option String
  | taken path => some path
  | inspecting path => some path
  | sending _ => none

/-- The row that a worker carries. -/
def Worker.row? : Worker → Option Row
  | sending row => some row
  | _ => none

/-- The archives about which nothing is decided. -/
def State.undecided (s : State) : Multiset String :=
  s.waiting + (s.workers : Multiset Worker).filterMap Worker.path?

/-- The rows on their way to the writer. -/
def State.underway (s : State) : Multiset Row :=
  (s.workers : Multiset Worker).filterMap Worker.row? + s.queue

section Lists

variable {α β : Type} {xs : List α} {i : Nat} {x : α}

lemma coe_eraseIdx (h : xs[i]? = some x) : (xs : Multiset α) = {x} + (xs.eraseIdx i : Multiset α) := by
  obtain ⟨hi, rfl⟩ := List.getElem?_eq_some_iff.mp h
  exact Multiset.coe_eq_coe.mpr (List.getElem_cons_eraseIdx_perm hi).symm

lemma coe_set (h : xs[i]? = some x) (y : α) :
    (xs.set i y : Multiset α) = {y} + (xs.eraseIdx i : Multiset α) := by
  obtain ⟨hi, -⟩ := List.getElem?_eq_some_iff.mp h
  exact Multiset.coe_eq_coe.mpr (List.set_perm_cons_eraseIdx hi y)

lemma coe_push (xs : List α) (x : α) : ((xs ++ [x] : List α) : Multiset α) = {x} + (xs : Multiset α) :=
  Multiset.coe_eq_coe.mpr (List.perm_append_comm)

lemma filterMap_singleton (f : α → Option β) (x : α) :
    ({x} : Multiset α).filterMap f = (f x).elim 0 fun y => {y} := by
  cases h : f x with
  | none => exact Multiset.filterMap_cons_none x 0 h
  | some y => exact Multiset.filterMap_cons_some f x 0 h

lemma filterMap_eraseIdx (f : α → Option β) (h : xs[i]? = some x) :
    (xs : Multiset α).filterMap f =
      ((f x).elim 0 fun y => {y}) + (xs.eraseIdx i : Multiset α).filterMap f := by
  rw [coe_eraseIdx h, Multiset.filterMap_add, filterMap_singleton]

lemma filterMap_set (f : α → Option β) (h : xs[i]? = some x) (y : α) :
    (xs.set i y : Multiset α).filterMap f =
      ((f y).elim 0 fun z => {z}) + (xs.eraseIdx i : Multiset α).filterMap f := by
  rw [coe_set h, Multiset.filterMap_add, filterMap_singleton]

lemma filterMap_push (f : α → Option β) (xs : List α) (x : α) :
    ((xs ++ [x] : List α) : Multiset α).filterMap f =
      ((f x).elim 0 fun y => {y}) + (xs : Multiset α).filterMap f := by
  rw [coe_push, Multiset.filterMap_add, filterMap_singleton]

end Lists

/-! ## The ledger -/

/-- What became of archives and of rows. -/
structure Ledger where
  scanned : Multiset String
  failed : Multiset String
  skipped : Multiset String
  written : List Row
  leftOut : Multiset Row

/-- The ledger balances with a state of the survey of these archives, whose report follows what the sink
held before. -/
structure Ledger.Balances (inspection : String → Inspection) (archives : List String)
    (before : List String) (root : Option String) (s : State) (ledger : Ledger) : Prop where
  shared : (archives : Multiset String) =
    s.undecided + (ledger.scanned + ledger.failed + ledger.skipped)
  scanned : s.scanned = ledger.scanned.card
  failed : s.failed = ledger.failed.card
  skipped : s.skipped = ledger.skipped.card
  readable : ∀ path ∈ ledger.scanned, (rowOf inspection path).isSome
  unreadable : ∀ path ∈ ledger.failed, rowOf inspection path = none
  uncancelled : s.cancelled = false → ledger.skipped = 0
  rows : s.failure = none → ledger.scanned.filterMap (rowOf inspection) =
    s.underway + (ledger.written + ledger.leftOut)
  drawn : (ledger.written : Multiset Row) ≤ (archives.filterMap (rowOf inspection) : List Row)
  leftOut : s.unwritable = ledger.leftOut.card
  writable : ∀ row ∈ ledger.written, Writable root row
  unwritable : ∀ row ∈ ledger.leftOut, ¬ Writable root row
  sameRoot : s.writer.root = root
  lines : s.writer.sink.taken = before ++ terminated Schema.current.heading ::
    ledger.written.map fun row => terminated (rowText root row)
  summary : s.writer.summary = Summary.ofRows ledger.written

section Balance

variable {limits : Limits} {inspection : String → Inspection} {archives before : List String}
  {root : Option String} {s t : State}

lemma balances_start {sink : Sink} {writer : Writer} (h : Writer.start sink root = .ok writer)
    (cancelled : Bool) :
    Ledger.Balances inspection archives sink.taken root (State.start archives writer cancelled)
      ⟨0, 0, 0, [], 0⟩ := by
  obtain rfl := Writer.start_eq h
  constructor
  case sameRoot => rfl
  case summary => rfl
  case lines => rfl
  all_goals simp [State.start, State.undecided, State.underway]

/-- Scanned archives are among the archives given. -/
lemma Ledger.Balances.rows_le {ledger : Ledger} (h : ledger.Balances inspection archives before root s) :
    ledger.scanned.filterMap (rowOf inspection) ≤ (archives.filterMap (rowOf inspection) : List Row) := by
  rw [← Multiset.filterMap_coe, h.shared]
  refine Multiset.filterMap_le_filterMap _ ?_
  rw [add_assoc]
  exact (Multiset.le_add_right _ _).trans (Multiset.le_add_left _ _)

/-- **A step keeps some ledger balanced.** -/
lemma Ledger.Balances.step {ledger : Ledger} {move : Move}
    (h : ledger.Balances inspection archives before root s) (hstep : Step limits inspection s move t) :
    ∃ next : Ledger, next.Balances inspection archives before root t := by
  cases hstep with
  | take hpath =>
      refine ⟨ledger, { h with shared := ?_, rows := ?_ }⟩
      · rw [h.shared]
        simp only [State.undecided, coe_eraseIdx hpath, filterMap_push, Worker.path?, Option.elim_some]
        abel
      · intro hf
        rw [h.rows hf]
        simp only [State.underway, filterMap_push, Worker.row?, Option.elim_none, zero_add]
  | @skip i path hworker hcancelled =>
      refine ⟨{ ledger with skipped := path ::ₘ ledger.skipped }, { h with
        shared := ?_, skipped := ?_, uncancelled := ?_, rows := ?_ }⟩
      · rw [h.shared]
        simp only [State.undecided, filterMap_eraseIdx _ hworker, Worker.path?, Option.elim_some,
          ← Multiset.singleton_add]
        abel
      · rw [Multiset.card_cons, ← h.skipped]
      · intro hc
        rw [hcancelled] at hc
        cases hc
      · intro hf
        rw [h.rows hf]
        simp only [State.underway, filterMap_eraseIdx _ hworker, Worker.row?, Option.elim_none, zero_add]
  | goOn hworker hcancelled =>
      refine ⟨ledger, { h with shared := ?_, rows := ?_ }⟩
      · rw [h.shared]
        simp only [State.undecided, filterMap_eraseIdx _ hworker, filterMap_set _ hworker, Worker.path?]
      · intro hf
        rw [h.rows hf]
        simp only [State.underway, filterMap_eraseIdx _ hworker, filterMap_set _ hworker, Worker.row?]
  | @scan i path row hworker hfinding =>
      have hrow := rowOf_eq_some hfinding
      refine ⟨{ ledger with scanned := path ::ₘ ledger.scanned }, { h with
        shared := ?_, scanned := ?_, readable := ?_, rows := ?_ }⟩
      · rw [h.shared]
        simp only [State.undecided, filterMap_eraseIdx _ hworker, filterMap_set _ hworker, Worker.path?,
          Option.elim_some, Option.elim_none, ← Multiset.singleton_add]
        abel
      · rw [Multiset.card_cons, ← h.scanned]
      · exact Multiset.forall_mem_cons.mpr ⟨by rw [hrow]; rfl, h.readable⟩
      · intro hf
        rw [Multiset.filterMap_cons_some _ _ _ hrow, h.rows hf]
        simp only [State.underway, filterMap_eraseIdx _ hworker, filterMap_set _ hworker, Worker.row?,
          Option.elim_some, Option.elim_none, ← Multiset.singleton_add]
        abel
  | @fail i path hworker hfinding =>
      refine ⟨{ ledger with failed := path ::ₘ ledger.failed }, { h with
        shared := ?_, failed := ?_, unreadable := ?_, rows := ?_ }⟩
      · rw [h.shared]
        simp only [State.undecided, filterMap_eraseIdx _ hworker, Worker.path?, Option.elim_some,
          ← Multiset.singleton_add]
        abel
      · rw [Multiset.card_cons, ← h.failed]
      · exact Multiset.forall_mem_cons.mpr ⟨rowOf_eq_none hfinding, h.unreadable⟩
      · intro hf
        rw [h.rows hf]
        simp only [State.underway, filterMap_eraseIdx _ hworker, Worker.row?, Option.elim_none, zero_add]
  | lose hworker hstopped =>
      refine ⟨ledger, { h with shared := ?_, uncancelled := ?_, rows := ?_ }⟩
      · rw [h.shared]
        simp only [State.undecided, filterMap_eraseIdx _ hworker, Worker.path?, Option.elim_none, zero_add]
      · intro hc
        cases hc
      · intro hf
        exact absurd hf hstopped
  | send hworker hwriting hroom =>
      refine ⟨ledger, { h with shared := ?_, rows := ?_ }⟩
      · rw [h.shared]
        simp only [State.undecided, filterMap_eraseIdx _ hworker, Worker.path?, Option.elim_none, zero_add]
      · intro hf
        rw [h.rows hf]
        simp only [State.underway, filterMap_eraseIdx _ hworker, Worker.row?, Option.elim_some, coe_push]
        abel
  | @write row later writer hwriting hqueue hwrite =>
      obtain ⟨hwritable, hroot, hsummary, htaken⟩ := Writer.write_ok hwrite
      rw [h.sameRoot] at hwritable hroot htaken
      refine ⟨{ ledger with written := ledger.written ++ [row] }, { h with
        rows := ?_, drawn := ?_, writable := ?_, sameRoot := hroot, lines := ?_, summary := ?_ }⟩
      · intro hf
        rw [h.rows hf]
        simp only [State.underway, hqueue, coe_push, ← Multiset.cons_coe, ← Multiset.singleton_add]
        abel
      · refine le_trans ?_ h.rows_le
        rw [h.rows hwriting, State.underway, hqueue, coe_push, ← Multiset.cons_coe, ← Multiset.singleton_add]
        exact add_le_add
          ((Multiset.le_add_right _ _).trans (Multiset.le_add_left _ _)) (Multiset.le_add_right _ _)
      · exact List.forall_mem_append.mpr ⟨h.writable, List.forall_mem_singleton.mpr hwritable⟩
      · rw [htaken, h.lines]
        simp
      · rw [hsummary, h.summary, Summary.ofRows, Summary.ofRows, List.foldl_append]
        rfl
  | @leaveOut row later writer path hwriting hqueue hwrite =>
      obtain ⟨hunwritable, hsame⟩ := Writer.write_unwritable hwrite
      subst hsame
      rw [h.sameRoot] at hunwritable
      refine ⟨{ ledger with leftOut := row ::ₘ ledger.leftOut }, { h with
        rows := ?_, leftOut := ?_, unwritable := ?_ }⟩
      · intro hf
        rw [h.rows hf]
        simp only [State.underway, hqueue, ← Multiset.cons_coe, ← Multiset.singleton_add]
        abel
      · rw [Multiset.card_cons, ← h.leftOut]
      · exact Multiset.forall_mem_cons.mpr ⟨hunwritable, h.unwritable⟩
  | stop hwriting hqueue hwrite herror =>
      obtain ⟨hroot, hsummary, htaken⟩ := Writer.write_error hwrite
      refine ⟨ledger, { h with
        rows := ?_, sameRoot := hroot.trans h.sameRoot, lines := htaken.trans h.lines
        summary := hsummary.trans h.summary }⟩
      intro hf
      cases hf
  | cancel =>
      refine ⟨ledger, { h with uncancelled := ?_ }⟩
      intro hc
      cases hc

/-! ## Whole courses -/

/-- What every step keeps, every course keeps. -/
lemma course_induction {motive : State → Prop} {moves : List Move}
    (hstep : ∀ {s move t}, move ∈ moves → Step limits inspection s move t → motive s → motive t)
    (h : moves.foldlM (State.play limits inspection) s = some t) (hs : motive s) : motive t := by
  induction moves generalizing s with
  | nil =>
      cases h
      exact hs
  | cons move moves ih =>
      rw [List.foldlM_cons] at h
      obtain ⟨between, hmove, hrest⟩ := Option.bind_eq_some_iff.mp h
      exact ih (fun hm => hstep (List.mem_cons_of_mem move hm)) hrest
        (hstep List.mem_cons_self (step_of_play hmove) hs)

/-- **After any course of a survey some ledger balances.** -/
lemma balances_of_course {sink : Sink} {writer : Writer} {cancelled : Bool} {moves : List Move}
    (hwriter : Writer.start sink root = .ok writer)
    (h : moves.foldlM (State.play limits inspection) (State.start archives writer cancelled) = some t) :
    ∃ ledger : Ledger, ledger.Balances inspection archives sink.taken root t :=
  course_induction
    (motive := fun s => ∃ ledger : Ledger, ledger.Balances inspection archives sink.taken root s)
    (fun _ hstep ⟨_, hledger⟩ => hledger.step hstep) h ⟨_, balances_start hwriter cancelled⟩

end Balance

end Survey

end JarSurvey
