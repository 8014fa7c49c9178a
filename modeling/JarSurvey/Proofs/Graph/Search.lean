import JarSurvey.Graph.Closure
import Mathlib.Logic.Relation
import Mathlib.Tactic
import Mathlib.Data.List.Nodup

/-!
# The search finds what can be reached

A search keeps the groups it has found in the order in which it found them, and the groups that are pending
are always the last of these: what it has found is the groups it is *done* with, and then those that are
pending.  `Invariant` says this, and

* every group found can be reached from the start along mentions;
* what a group that is done with mentions is found.

`foldl_follow` tells what following the mentions of one group adds, and a round keeps the invariant
(`Invariant.round`).  No group is found twice, so there are no more rounds than groups, and **after as many
rounds as there are groups nothing is pending** (`Invariant.run`).  What is found is then closed under mentions:
it is exactly what can be reached (`run_exact`).
-/

namespace JarSurvey.Closure.Search

open Relation

/-- Group number `i` mentions a class that belongs to group number `j`. -/
def Leads (links : Nat → List Link) (i j : Nat) : Prop :=
  ∃ link ∈ links i, link.owner = j

/-! ## Following mentions -/

/-- Following mentions finds some of them, and whatever they mention is found afterwards. -/
lemma foldl_follow (mentions : List Link) (search : Search) :
    ∃ news : List Link, news.Sublist mentions ∧
      mentions.foldl follow search =
        ⟨search.found ++ news.map Link.owner, search.reasons ++ news.map Link.reason,
          search.pending ++ news.map Link.owner⟩ ∧
      (search.found.Nodup → (search.found ++ news.map Link.owner).Nodup) ∧
      ∀ link ∈ mentions, link.owner ∈ search.found ++ news.map Link.owner := by
  induction mentions generalizing search with
  | nil => exact ⟨[], List.Sublist.slnil, by simp, by simp, by simp⟩
  | cons link mentions ih =>
      rw [List.foldl_cons]
      by_cases hfound : link.owner ∈ search.found
      · have hfollow : search.follow link = search := if_pos hfound
        rw [hfollow]
        obtain ⟨news, hsub, hfold, hnodup, hmem⟩ := ih search
        refine ⟨news, hsub.cons link, hfold, hnodup, ?_⟩
        rw [List.forall_mem_cons]
        exact ⟨List.mem_append_left _ hfound, hmem⟩
      · have hfollow : search.follow link = ⟨search.found ++ [link.owner],
            search.reasons ++ [link.reason], search.pending ++ [link.owner]⟩ := if_neg hfound
        rw [hfollow]
        obtain ⟨news, hsub, hfold, hnodup, hmem⟩ := ih ⟨search.found ++ [link.owner],
          search.reasons ++ [link.reason], search.pending ++ [link.owner]⟩
        simp only [List.append_assoc, List.singleton_append] at hfold hnodup hmem
        refine ⟨link :: news, hsub.cons_cons link, hfold, ?_, ?_⟩
        · intro hsearch
          refine hnodup (List.nodup_append.mpr ⟨hsearch, List.nodup_singleton _, ?_⟩)
          intro i hi j hj heq
          rw [List.mem_singleton] at hj
          exact hfound (hj ▸ heq ▸ hi)
        · rw [List.forall_mem_cons]
          exact ⟨by simp, hmem⟩

/-! ## Rounds -/

/-- What holds of a search from `start` that is done with the groups `done`. -/
structure Invariant (links : Nat → List Link) (start : Nat) (done : List Nat) (search : Search) :
    Prop where
  found_eq : search.found = done ++ search.pending
  first : search.found.head? = some start
  nodup : search.found.Nodup
  reached : ∀ i ∈ search.found, ReflTransGen (Leads links) start i
  closed : ∀ i ∈ done, ∀ j, Leads links i j → j ∈ search.found

variable {links : Nat → List Link} {start : Nat} {done : List Nat} {search : Search}

lemma invariant_start (links : Nat → List Link) (start : Nat) :
    Invariant links start [] (Search.start start) where
  found_eq := rfl
  first := rfl
  nodup := List.nodup_singleton start
  reached := by
    intro i hi
    rw [List.mem_singleton.mp hi]
  closed := by simp

/-- **A round keeps the invariant**, and one more group is done with. -/
lemma Invariant.round {current : Nat} {later : List Nat} (h : Invariant links start done search)
    (hpending : search.pending = current :: later) :
    Invariant links start (done ++ [current])
      ((links current).foldl follow { search with pending := later }) := by
  obtain ⟨news, hsub, hfold, hnodup, hmem⟩ :=
    foldl_follow (links current) { search with pending := later }
  have hcurrent : current ∈ search.found := by
    rw [h.found_eq, hpending]
    simp
  rw [hfold]
  constructor
  case found_eq => simp [h.found_eq, hpending]
  case first => simp [List.head?_append, h.first]
  case nodup => exact hnodup h.nodup
  case reached =>
    intro i hi
    rcases List.mem_append.mp hi with hi | hi
    · exact h.reached i hi
    · obtain ⟨link, hlink, rfl⟩ := List.mem_map.mp hi
      exact (h.reached current hcurrent).tail ⟨link, hsub.subset hlink, rfl⟩
  case closed =>
    intro i hi j hj
    rcases List.mem_append.mp hi with hi | hi
    · exact List.mem_append_left _ (h.closed i hi j hj)
    · rw [List.mem_singleton] at hi
      subst hi
      obtain ⟨link, hlink, rfl⟩ := hj
      exact hmem link hlink

/-- After some rounds either nothing is pending, or each round was done with one more group. -/
lemma Invariant.rounds (rounds : Nat) (h : Invariant links start done search) :
    ∃ last, Invariant links start last (run links rounds search) ∧
      ((run links rounds search).pending = [] ∨ last.length = done.length + rounds) := by
  induction rounds generalizing done search with
  | zero => exact ⟨done, h, Or.inr rfl⟩
  | succ rounds ih =>
      rw [run]
      split
      · next hpending => exact ⟨done, h, Or.inl hpending⟩
      · next current later hpending =>
        obtain ⟨last, hlast, hend⟩ := ih (h.round hpending)
        refine ⟨last, hlast, hend.imp id ?_⟩
        intro hlength
        rw [hlength, List.length_append, List.length_singleton]
        omega

/-! ## What is found -/

lemma lt_of_reaches {size i : Nat} (hsize : ∀ i j, Leads links i j → j < size) (hstart : start < size)
    (h : ReflTransGen (Leads links) start i) : i < size := by
  cases h with
  | refl => exact hstart
  | tail _ hlast => exact hsize _ _ hlast

/-- **After as many rounds as there are groups nothing is pending.** -/
lemma Invariant.run {size : Nat} (hsize : ∀ i j, Leads links i j → j < size) (hstart : start < size)
    (h : Invariant links start [] search) :
    ∃ last, Invariant links start last (run links size search) ∧
      (run links size search).pending = [] := by
  obtain ⟨last, hlast, hend⟩ := h.rounds size
  refine ⟨last, hlast, ?_⟩
  rcases hend with hend | hlength
  · exact hend
  · have hsub : (Search.run links size search).found ⊆ List.range size := by
      intro i hi
      exact List.mem_range.mpr (lt_of_reaches hsize hstart (hlast.reached i hi))
    have hle := (hlast.nodup.subperm hsub).length_le
    rw [hlast.found_eq, List.length_append, hlength, List.length_range, List.length_nil] at hle
    exact List.eq_nil_of_length_eq_zero (by omega)

/-- **A search finds each group that can be reached once, and no other**, and the start first. -/
lemma run_exact {size : Nat} (hsize : ∀ i j, Leads links i j → j < size) (hstart : start < size) :
    (run links size (Search.start start)).found.head? = some start ∧
      (run links size (Search.start start)).found.Nodup ∧
      ∀ i, i ∈ (run links size (Search.start start)).found ↔ ReflTransGen (Leads links) start i := by
  obtain ⟨last, hlast, hpending⟩ := (invariant_start links start).run hsize hstart
  refine ⟨hlast.first, hlast.nodup, fun i => ⟨hlast.reached i, ?_⟩⟩
  have hdone : ∀ i ∈ (run links size (Search.start start)).found, i ∈ last := by
    rw [hlast.found_eq, hpending, List.append_nil]
    exact fun _ hi => hi
  intro hreach
  induction hreach with
  | refl => exact List.mem_of_mem_head? hlast.first
  | tail _ hstep ih => exact hlast.closed _ (hdone _ ih) _ hstep

end JarSurvey.Closure.Search
