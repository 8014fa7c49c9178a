import JarSurvey.Usage
import JarSurvey.Proofs.Namespace
import Mathlib.Tactic
import Mathlib.Data.List.Pairwise

/-!
# Usages are determined by their counts

The entries of a usage stand in the order of the table and hold no zeros, so a usage is nothing but the
function `Usage.get` from namespaces to counts:

* `Usage.entries_eq_filter` — what is stored are the counts that are not zero;
* `Usage.ext_get` — **two usages with the same counts are equal**;
* `Usage.get_add`, `Usage.get_merge` — counting and merging add up the counts;
* `Usage.merge_right_comm` — the order in which usages are merged does not matter;
* `Usage.get_ofReferences` — the usage of references counts those that a namespace claims;
* `Usage.Merging.result_eq_ofReferences` — **merging the usages of many lists, in any order and grouping, gives the
  usage of all their references**.
-/

namespace JarSurvey

namespace Usage

/-! ## Entries and counts -/

lemma lookup_cons_eq_ite {ns other : Namespace} {count : Nat} {rest : List (Namespace × Nat)} :
    ((other, count) :: rest).lookup ns = if ns = other then some count else rest.lookup ns := by
  rw [List.lookup_cons]
  by_cases h : ns = other
  · simp [h]
  · simp [h, beq_false_of_ne h]

/-- A namespace in front of all entries is not among them. -/
lemma lookup_eq_none_of_index_lt {ns : Namespace} {entries : List (Namespace × Nat)}
    (h : ∀ entry ∈ entries, ns.index < entry.1.index) : entries.lookup ns = none := by
  rw [List.lookup_eq_none_iff]
  intro entry hentry
  have hlt := h entry hentry
  simp only [bne_iff_ne, ne_eq]
  rintro rfl
  exact absurd hlt (lt_irrefl _)

lemma lookup_eq_some_iff_mem {entries : List (Namespace × Nat)}
    (h : entries.Pairwise fun a b => a.1.index < b.1.index) {ns : Namespace} {count : Nat} :
    entries.lookup ns = some count ↔ (ns, count) ∈ entries := by
  induction entries with
  | nil => simp
  | cons first rest ih =>
      obtain ⟨other, seen⟩ := first
      rw [List.pairwise_cons] at h
      rw [lookup_cons_eq_ite, List.mem_cons, Prod.mk.injEq]
      by_cases heq : ns = other
      · subst heq
        have hnot : (ns, count) ∉ rest := fun hmem => absurd (h.1 _ hmem) (lt_irrefl _)
        simp [hnot, eq_comm]
      · simp [heq, ih h.2]

/-- **The entries are the counts that are not zero.** -/
lemma mem_entries_iff {usage : Usage} {ns : Namespace} {count : Nat} :
    (ns, count) ∈ usage.entries ↔ usage.get ns = count ∧ 0 < count := by
  rw [← lookup_eq_some_iff_mem usage.ordered, get]
  cases h : usage.entries.lookup ns with
  | none =>
      simp only [reduceCtorEq, Option.getD_none, false_iff, not_and, not_lt, nonpos_iff_eq_zero]
      exact Eq.symm
  | some seen =>
      have hpos := usage.positive _ ((lookup_eq_some_iff_mem usage.ordered).mp h)
      simp only [Option.some.injEq, Option.getD_some, iff_self_and]
      rintro rfl
      exact hpos

lemma ext_entries {a b : Usage} (h : a.entries = b.entries) : a = b := by
  cases a
  cases b
  cases h
  rfl

lemma mem_toList_iff {usage : Usage} {ns : Namespace} {count : Nat} :
    (ns, count) ∈ usage.toList ↔ usage.get ns = count := by
  simp [toList, Namespace.mem_all]

/-- **What is stored are the counts of the table that are not zero**, in the order of the table. -/
lemma entries_eq_filter (usage : Usage) : usage.entries = usage.toList.filter fun entry => entry.2 ≠ 0 := by
  have hordered : usage.toList.Pairwise fun a b => a.1.index < b.1.index := by
    rw [toList, List.pairwise_map]
    exact Namespace.pairwise_index_all
  have : Std.Irrefl fun a b : Namespace × Nat => a.1.index < b.1.index := ⟨fun _ => lt_irrefl _⟩
  have : Std.Antisymm fun a b : Namespace × Nat => a.1.index < b.1.index :=
    ⟨fun _ _ hab hba => absurd (hab.trans hba) (lt_irrefl _)⟩
  refine usage.ordered.eq_of_mem_iff (hordered.filter _) ?_
  rintro ⟨ns, count⟩
  simp [mem_entries_iff, mem_toList_iff, Nat.pos_iff_ne_zero]

/-- **Two usages with the same counts are equal.** -/
lemma ext_get {a b : Usage} (h : ∀ ns, a.get ns = b.get ns) : a = b := by
  refine ext_entries ?_
  simp only [entries_eq_filter, toList, h]

/-! ## Counting and merging -/

@[simp] lemma get_empty (ns : Namespace) : empty.get ns = 0 := rfl

lemma lookup_addTo {ns other : Namespace} {count : Nat} {entries : List (Namespace × Nat)}
    (h : entries.Pairwise fun a b => a.1.index < b.1.index) :
    (addTo ns count entries).lookup other =
      if other = ns then some ((entries.lookup ns).getD 0 + count) else entries.lookup other := by
  induction entries with
  | nil => rw [addTo, lookup_cons_eq_ite]; simp
  | cons first rest ih =>
      obtain ⟨next, seen⟩ := first
      rw [addTo]
      by_cases hnext : ns = next
      · -- The count of the first entry goes up.
        subst hnext
        simp only [if_true, lookup_cons_eq_ite]
        split_ifs <;> simp
      rw [if_neg hnext]
      by_cases hlt : ns.index < next.index
      · -- A new entry comes first.
        have hnone : ((next, seen) :: rest).lookup ns = none := by
          refine lookup_eq_none_of_index_lt (List.forall_mem_cons.mpr ⟨hlt, ?_⟩)
          exact fun entry hentry => hlt.trans ((List.pairwise_cons.mp h).1 entry hentry)
        rw [if_pos hlt, lookup_cons_eq_ite, hnone]
        simp
      · rw [if_neg hlt, lookup_cons_eq_ite, ih (List.pairwise_cons.mp h).2]
        simp only [lookup_cons_eq_ite, if_neg hnext]
        by_cases hother : other = next
        · subst hother
          simp [Ne.symm hnext]
        · simp [hother]

/-- Counting adds to the count of one namespace. -/
@[simp] lemma get_add (usage : Usage) (ns other : Namespace) (count : Nat) :
    (usage.add ns count).get other = usage.get other + if other = ns then count else 0 := by
  rw [add]
  split_ifs with hzero heq heq
  · simp [hzero]
  · simp
  · subst heq
    simp [get, lookup_addTo usage.ordered]
  · simp [get, lookup_addTo usage.ordered, heq]

/-- What entries add to the count of a namespace. -/
lemma get_foldl_add (entries : List (Namespace × Nat)) (usage : Usage) (ns : Namespace) :
    (entries.foldl (fun sum entry => sum.add entry.1 entry.2) usage).get ns =
      usage.get ns + (entries.map fun entry => if ns = entry.1 then entry.2 else 0).sum := by
  induction entries generalizing usage with
  | nil => simp
  | cons entry rest ih => simp [ih, Nat.add_assoc]

/-- The entries of a usage add up to its counts. -/
lemma sum_entries (usage : Usage) (ns : Namespace) :
    (usage.entries.map fun entry => if ns = entry.1 then entry.2 else 0).sum = usage.get ns := by
  have hsum : ∀ entries : List (Namespace × Nat),
      entries.Pairwise (fun a b => a.1.index < b.1.index) →
      (entries.map fun entry => if ns = entry.1 then entry.2 else 0).sum =
        (entries.lookup ns).getD 0 := by
    intro entries h
    induction entries with
    | nil => rfl
    | cons first rest ih =>
        obtain ⟨other, seen⟩ := first
        rw [List.pairwise_cons] at h
        rw [lookup_cons_eq_ite, List.map_cons, List.sum_cons, ih h.2]
        split_ifs with heq
        · subst heq
          simp [lookup_eq_none_of_index_lt h.1]
        · simp
  exact hsum _ usage.ordered

/-- **Merging adds up the counts.** -/
@[simp] lemma get_merge (usage other : Usage) (ns : Namespace) :
    (usage.merge other).get ns = usage.get ns + other.get ns := by
  rw [merge, get_foldl_add, sum_entries]

/-- The order in which usages are merged does not matter. -/
lemma merge_right_comm (usage a b : Usage) : (usage.merge a).merge b = (usage.merge b).merge a := by
  refine ext_get fun ns => ?_
  simp only [get_merge]
  omega

/-! ## References -/

lemma get_record (usage : Usage) (reference : String) (ns : Namespace) :
    (usage.record reference).get ns = usage.get ns + if Namespace.classify reference = some ns then 1 else 0 := by
  rw [record]
  cases Namespace.classify reference with
  | none => simp
  | some found => simp [eq_comm]

/-- The usage of references counts those that a namespace claims. -/
lemma get_ofReferences (references : List String) (ns : Namespace) :
    (ofReferences references).get ns = references.countP fun reference => Namespace.classify reference = some ns := by
  have hfold : ∀ usage : Usage, (references.foldl record usage).get ns =
      usage.get ns + references.countP fun reference => Namespace.classify reference = some ns := by
    induction references with
    | nil => simp
    | cons reference references ih =>
        intro usage
        rw [List.foldl_cons, ih, get_record, List.countP_cons]
        simp only [decide_eq_true_eq]
        omega
  rw [ofReferences, hfold, get_empty, Nat.zero_add]

/-- A usage does not see the order of references. -/
lemma ofReferences_eq_of_perm {references others : List String} (h : references.Perm others) :
    ofReferences references = ofReferences others := by
  refine ext_get fun ns => ?_
  rw [get_ofReferences, get_ofReferences, h.countP_eq]

/-! ## Merging many usages -/

/-- A way to merge usages: in which order they come and which of them are put together first. -/
inductive Merging where
  | nothing
  | one (usage : Usage)
  | both (left right : Merging)

/-- The usages that are merged. -/
def Merging.parts : Merging → List Usage
  | nothing => []
  | one usage => [usage]
  | both left right => left.parts ++ right.parts

/-- What comes of merging them. -/
def Merging.result : Merging → Usage
  | nothing => empty
  | one usage => usage
  | both left right => left.result.merge right.result

/-- The counts add up, however the usages are grouped. -/
lemma Merging.get_result (merging : Merging) (ns : Namespace) :
    merging.result.get ns = (merging.parts.map (·.get ns)).sum := by
  induction merging with
  | nothing => rfl
  | one usage => simp [result, parts]
  | both left right ihleft ihright => simp [result, parts, ihleft, ihright]

/-- **The usage of many lists of references is what comes of merging their usages**, in any order and grouping. -/
lemma Merging.result_eq_ofReferences {merging : Merging} {lists : List (List String)}
    (h : merging.parts.Perm (lists.map ofReferences)) : merging.result = ofReferences lists.flatten := by
  refine ext_get fun ns => ?_
  rw [get_result, (h.map (·.get ns)).sum_eq, get_ofReferences, List.countP_flatten, List.map_map]
  simp only [Function.comp_def, get_ofReferences]

end Usage

end JarSurvey
