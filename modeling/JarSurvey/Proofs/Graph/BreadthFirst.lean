import JarSurvey.Proofs.Graph.Closure
import Mathlib.Order.Lattice.Nat

/-!
# Closures are found breadth first, with a reason for each group

The invariant of a search says which groups are found.  This module adds in which order, and why.

**Order.**  `hops` is the least number of mentions that lead from the start to a group.  What is found stands in
the order of `hops`, and while a group is pending nothing found is more than one hop further (`Layered`).  So
whatever has no more hops than the next pending group is found already (`Invariant.mem_found`), and the groups
that a round finds have exactly one hop more than the group whose mentions it follows (`Invariant.hops_new`).

**Reasons.**  Behind the groups after the start stands a *trail* of mentions, one for each: its owner is the
group, its reason is the reason given, and it is a mention in a group found earlier (`Traced`).

A round keeps both, and **`closure_breadth_first`** reads them off the closure of a group.  Nothing is assumed of
the groups: names of groups and of classes may repeat, and a class belongs to the first group that has it.
-/

namespace JarSurvey.Closure

open Relation

namespace Search

/-! ## Hops -/

section Hops

variable {step : Nat → Nat → Prop} {start n i j : Nat}

/-- A walk of `n` steps leads from the start to `i`. -/
inductive WalkTo (step : Nat → Nat → Prop) (start : Nat) : Nat → Nat → Prop
  | stay : WalkTo step start 0 start
  | hop {n i j : Nat} (h : WalkTo step start n i) (hstep : step i j) : WalkTo step start (n + 1) j

/-- The least number of steps that lead from the start to `i`. -/
noncomputable def hops (step : Nat → Nat → Prop) (start i : Nat) : Nat :=
  sInf {n | WalkTo step start n i}

lemma WalkTo.hops_le (h : WalkTo step start n i) : hops step start i ≤ n :=
  Nat.sInf_le h

lemma exists_walkTo (h : ReflTransGen step start i) : ∃ n, WalkTo step start n i := by
  induction h with
  | refl => exact ⟨0, .stay⟩
  | tail _ hstep ih =>
      obtain ⟨n, hn⟩ := ih
      exact ⟨n + 1, hn.hop hstep⟩

/-- A group that can be reached is reached by a walk that is as short as possible. -/
lemma walkTo_hops (h : ReflTransGen step start i) : WalkTo step start (hops step start i) i :=
  Nat.sInf_mem (s := {n | WalkTo step start n i}) (exists_walkTo h)

lemma hops_le_succ (h : ReflTransGen step start i) (hstep : step i j) :
    hops step start j ≤ hops step start i + 1 :=
  ((walkTo_hops h).hop hstep).hops_le

end Hops

/-! ## The order in which groups are found -/

variable {links : Nat → List Link} {start : Nat} {done : List Nat} {search : Search}

/-- What is found stands in the order of hops, and nothing found is more than one hop further than the next
pending group. -/
structure Layered (links : Nat → List Link) (start : Nat) (search : Search) : Prop where
  sorted : search.found.Pairwise fun i j => hops (Leads links) start i ≤ hops (Leads links) start j
  near : ∀ current later, search.pending = current :: later → ∀ i ∈ search.found,
    hops (Leads links) start i ≤ hops (Leads links) start current + 1

lemma layered_start (links : Nat → List Link) (start : Nat) : Layered links start (Search.start start) where
  sorted := List.pairwise_singleton _ _
  near := by
    intro current later hpending i hi
    cases hpending
    rw [List.mem_singleton.mp hi]
    omega

section Round

variable {current : Nat} {later : List Nat}

/-- The next pending group has the fewest hops of all that are pending. -/
lemma Layered.hops_le_later (hl : Layered links start search) (h : Invariant links start done search)
    (hpending : search.pending = current :: later) {i : Nat} (hi : i ∈ later) :
    hops (Leads links) start current ≤ hops (Leads links) start i := by
  have hsorted := hl.sorted
  rw [h.found_eq, hpending, List.pairwise_append] at hsorted
  exact (List.pairwise_cons.mp hsorted.2.1).1 i hi

/-- What is found and has fewer hops than the next pending group is done with. -/
lemma Invariant.mem_done_of_hops_lt (h : Invariant links start done search)
    (hl : Layered links start search) (hpending : search.pending = current :: later) {i : Nat}
    (hi : i ∈ search.found) (hlt : hops (Leads links) start i < hops (Leads links) start current) :
    i ∈ done := by
  rw [h.found_eq, hpending, List.mem_append, List.mem_cons] at hi
  rcases hi with hi | rfl | hi
  · exact hi
  · omega
  · have hle := hl.hops_le_later h hpending hi
    omega

/-- All groups with fewer hops than the next pending group are done with. -/
lemma Invariant.mem_done_of_walkTo (h : Invariant links start done search)
    (hl : Layered links start search) (hpending : search.pending = current :: later) {n i : Nat}
    (hwalk : WalkTo (Leads links) start n i) (hlt : n < hops (Leads links) start current) : i ∈ done := by
  induction hwalk with
  | stay =>
      have hzero : hops (Leads links) start start ≤ 0 := WalkTo.stay.hops_le
      exact h.mem_done_of_hops_lt hl hpending (List.mem_of_mem_head? h.first) (by omega)
  | @hop n i j hwalk hleads ih =>
      have hle := (hwalk.hop hleads).hops_le
      exact h.mem_done_of_hops_lt hl hpending (h.closed i (ih (by omega)) j hleads) (by omega)

/-- **All groups with no more hops than the next pending group are found.** -/
lemma Invariant.mem_found (h : Invariant links start done search) (hl : Layered links start search)
    (hpending : search.pending = current :: later) {n i : Nat} (hwalk : WalkTo (Leads links) start n i)
    (hle : n ≤ hops (Leads links) start current) : i ∈ search.found := by
  cases hwalk with
  | stay => exact List.mem_of_mem_head? h.first
  | hop hwalk hleads =>
      exact h.closed _ (h.mem_done_of_walkTo hl hpending hwalk (by omega)) _ hleads

lemma Invariant.current_mem (h : Invariant links start done search)
    (hpending : search.pending = current :: later) : current ∈ search.found := by
  rw [h.found_eq, hpending]
  simp

/-- A group that is mentioned and not found yet has one hop more than the group that mentions it. -/
lemma Invariant.hops_new (h : Invariant links start done search) (hl : Layered links start search)
    (hpending : search.pending = current :: later) {j : Nat} (hleads : Leads links current j)
    (hnew : j ∉ search.found) :
    hops (Leads links) start j = hops (Leads links) start current + 1 := by
  have hreach := h.reached current (h.current_mem hpending)
  refine le_antisymm (hops_le_succ hreach hleads) (Nat.succ_le_of_lt (lt_of_not_ge fun hle => hnew ?_))
  exact h.mem_found hl hpending (walkTo_hops (hreach.tail hleads)) hle

/-- **A round keeps the order.** -/
lemma Layered.round (hl : Layered links start search) (h : Invariant links start done search)
    (hpending : search.pending = current :: later) :
    Layered links start ((links current).foldl follow { search with pending := later }) := by
  obtain ⟨news, hsub, hfold, hnodup, -⟩ := foldl_follow (links current) { search with pending := later }
  have hnews : ∀ i ∈ news.map Link.owner,
      hops (Leads links) start i = hops (Leads links) start current + 1 := by
    intro i hi
    obtain ⟨link, hlink, rfl⟩ := List.mem_map.mp hi
    refine h.hops_new hl hpending ⟨link, hsub.subset hlink, rfl⟩ fun hfound => ?_
    exact (List.nodup_append.mp (hnodup h.nodup)).2.2 _ hfound _ hi rfl
  rw [hfold]
  constructor
  case sorted =>
    refine List.pairwise_append.mpr ⟨hl.sorted, ?_, ?_⟩
    · exact List.pairwise_of_forall_mem_list fun i hi j hj => by rw [hnews i hi, hnews j hj]
    · intro i hi j hj
      rw [hnews j hj]
      exact hl.near current later hpending i hi
  case near =>
    intro next rest hnext i hi
    have hi' : hops (Leads links) start i ≤ hops (Leads links) start current + 1 := by
      rcases List.mem_append.mp hi with hi | hi
      · exact hl.near current later hpending i hi
      · exact (hnews i hi).le
    have hmem : next ∈ later ++ news.map Link.owner := by
      rw [show later ++ news.map Link.owner = next :: rest from hnext]
      exact List.mem_cons_self
    rcases List.mem_append.mp hmem with hlater | hnew
    · have hle := hl.hops_le_later h hpending hlater
      omega
    · have heq := hnews next hnew
      omega

end Round

/-! ## Reasons -/

/-- The groups found after the start, and the reasons, are those of a trail of mentions, each of which is in a
group that was found earlier. -/
def Traced (links : Nat → List Link) (start : Nat) (search : Search) : Prop :=
  ∃ trail : List Link, search.found = start :: trail.map Link.owner ∧
    search.reasons = trail.map Link.reason ∧
    ∀ k link, trail[k]? = some link → ∃ i ∈ search.found.take (k + 1), link ∈ links i

lemma traced_start (links : Nat → List Link) (start : Nat) : Traced links start (Search.start start) :=
  ⟨[], rfl, rfl, by simp⟩

/-- **A round keeps the trail**, and adds to it mentions in the group that it follows. -/
lemma Traced.round {current : Nat} {later : List Nat} (ht : Traced links start search)
    (hcurrent : current ∈ search.found) :
    Traced links start ((links current).foldl follow { search with pending := later }) := by
  obtain ⟨trail, hfound, hreasons, htrail⟩ := ht
  obtain ⟨news, hsub, hfold, -⟩ := foldl_follow (links current) { search with pending := later }
  have hlength : search.found.length = trail.length + 1 := by simp [hfound]
  rw [hfold]
  refine ⟨trail ++ news, by simp [hfound], by simp [hreasons], ?_⟩
  intro k link hlink
  rw [List.take_append]
  rcases Nat.lt_or_ge k trail.length with hk | hk
  · rw [List.getElem?_append_left hk] at hlink
    obtain ⟨i, hi, hmention⟩ := htrail k link hlink
    exact ⟨i, List.mem_append_left _ hi, hmention⟩
  · rw [List.getElem?_append_right hk] at hlink
    refine ⟨current, List.mem_append_left _ ?_, hsub.subset (List.mem_of_getElem? hlink)⟩
    have hle : search.found.length ≤ k + 1 := by omega
    rwa [List.take_of_length_le hle]

/-! ## Whole searches -/

/-- What every round keeps, a search keeps. -/
lemma run_induction {motive : Search → Prop}
    (hround : ∀ {search current later}, search.pending = current :: later → motive search →
      motive ((links current).foldl follow { search with pending := later }))
    (rounds : Nat) (h : motive search) : motive (run links rounds search) := by
  induction rounds generalizing search with
  | zero => exact h
  | succ rounds ih =>
      rw [run]
      split
      · exact h
      · next current later hpending => exact ih (hround hpending h)

/-- **A search finds groups in the order of hops, each after the group that mentions it.** -/
lemma run_layered (links : Nat → List Link) (start rounds : Nat) :
    Layered links start (run links rounds (Search.start start)) ∧
      Traced links start (run links rounds (Search.start start)) := by
  have hall : (∃ done, Invariant links start done (run links rounds (Search.start start))) ∧
      Layered links start (run links rounds (Search.start start)) ∧
      Traced links start (run links rounds (Search.start start)) := by
    refine run_induction (motive := fun search => (∃ done, Invariant links start done search) ∧
      Layered links start search ∧ Traced links start search) ?_ rounds ?_
    · rintro search current later hpending ⟨⟨done, h⟩, hlayered, htraced⟩
      exact ⟨⟨_, h.round hpending⟩, hlayered.round h hpending, htraced.round (h.current_mem hpending)⟩
    · exact ⟨⟨[], invariant_start links start⟩, layered_start links start, traced_start links start⟩
  exact hall.2

end Search

open Search

/-! ## Closures -/

/-- A class of group number `i` mentions a class that belongs to group number `j`. -/
def Refers (jars : List Jar) (i j : Nat) : Prop :=
  ∃ jar, jars[i]? = some jar ∧ ∃ record ∈ jar.classes, ∃ reference ∈ record.references,
    owner? jars reference = some j

lemma leads_linkTable (jars : List Jar) : Leads (linkTable jars) = Refers jars := by
  funext i j
  exact propext leads_iff_owner

/-- **Closures come with valid reasons, in breadth-first order.**  Let any groups be given, and one to start at.
The closure of that group lists the names of the groups that the search finds, and

* the search finds each group at most once, and exactly the groups that can be reached along mentions of classes
  that belong to a group;
* it finds them in the order of the least number of mentions that lead to them;
* it gives one reason for each group after the first: the target of the reason belongs to that group, and its
  source is the name of a class with this reference in a group that was found earlier. -/
theorem closure_breadth_first (jars : List Jar) (start : Fin jars.length) :
    let search := run (linkTable jars) jars.length (Search.start start)
    (analyze jars)[start.val]? =
      some ⟨jars[start].name, search.found.map (nameAt jars), search.reasons⟩ ∧
    search.found.head? = some start.val ∧
    search.found.Nodup ∧
    (∀ i, i ∈ search.found ↔ ReflTransGen (Refers jars) start i) ∧
    search.found.Pairwise (fun i j => hops (Refers jars) start i ≤ hops (Refers jars) start j) ∧
    search.found.length = search.reasons.length + 1 ∧
    ∀ k reason, search.reasons[k]? = some reason →
      (∃ i, search.found[k + 1]? = some i ∧ owner? jars reason.target = some i) ∧
      ∃ i ∈ search.found.take (k + 1), ∃ jar, jars[i]? = some jar ∧ ∃ record ∈ jar.classes,
        record.name = reason.source ∧ reason.target ∈ record.references := by
  intro search
  obtain ⟨hfirst, hnodup, hmem⟩ := run_exact (lt_of_leads jars) start.isLt
  obtain ⟨hlayered, trail, hfound, hreasons, htrail⟩ := run_layered (linkTable jars) start jars.length
  rw [leads_linkTable] at hmem
  have hsorted := hlayered.sorted
  rw [leads_linkTable] at hsorted
  refine ⟨?_, hfirst, hnodup, hmem, hsorted, by simp [search, hfound, hreasons], ?_⟩
  · rw [analyze_eq, List.getElem?_map, List.getElem?_range start.isLt, Option.map_some, ofJar_eq,
      nameAt_eq (List.getElem?_eq_getElem start.isLt)]
    rfl
  · intro k reason hreason
    rw [hreasons, List.getElem?_map, Option.map_eq_some_iff] at hreason
    obtain ⟨link, hlink, rfl⟩ := hreason
    obtain ⟨i, hi, hmention⟩ := htrail k link hlink
    obtain ⟨jar, hjar, record, hrecord, hsource, htarget, howner⟩ := mem_linkTable_iff.mp hmention
    refine ⟨⟨link.owner, ?_, howner⟩, i, hi, jar, hjar, record, hrecord, hsource, htarget⟩
    rw [hfound, List.getElem?_cons_succ, List.getElem?_map, hlink]
    rfl

end JarSurvey.Closure
