import JarSurvey.Proofs.Usage

/-!
# Usages form a commutative monoid

Archives are counted apart and their usages merged, in whatever order they come in.  Equality of usages is equality
of what they store, so the laws of merging hold only because a usage stores nothing but its counts:

* `Usage.reached` — every usage comes from counting and merging, so what is said of all usages is said of these;
* `Usage.entries_eq_filter` — what a usage stores are the counts of the table that are not zero, in its order;
* `Usage.family_eq_sum` — the total of a family is the sum of its counts, whether they are stored or not.

`Usage.canonical_monoid` puts the laws together.

References are counted one at a time, and each that a namespace claims goes to the total of one family
(`Usage.totals_record`).  **Counting takes lists that are put together to usages that are merged**
(`Usage.counting_homomorphism`).
-/

namespace JarSurvey.Usage

/-! ## What counting leads to -/

/-- The usages that counting and merging lead to. -/
inductive Reached : Usage → Prop where
  | empty : Reached empty
  | add {usage : Usage} (ns : Namespace) (count : Nat) : Reached usage → Reached (usage.add ns count)
  | record {usage : Usage} (reference : String) : Reached usage → Reached (usage.record reference)
  | ofReferences (references : List String) : Reached (ofReferences references)
  | merge {usage other : Usage} : Reached usage → Reached other → Reached (usage.merge other)

lemma merge_empty (usage : Usage) : usage.merge empty = usage := rfl

lemma empty_merge (usage : Usage) : empty.merge usage = usage := by
  refine ext_get fun ns => ?_
  simp

/-- **Every usage is reached**, by counting its entries one after the other. -/
lemma reached (usage : Usage) : Reached usage := by
  have hentries : ∀ (entries : List (Namespace × Nat)) (start : Usage), Reached start →
      Reached (entries.foldl (fun sum entry => sum.add entry.1 entry.2) start) := by
    intro entries
    induction entries with
    | nil => exact fun start hstart => hstart
    | cons entry rest ih => exact fun start hstart => ih _ (.add entry.1 entry.2 hstart)
  rw [← empty_merge usage]
  exact hentries usage.entries empty .empty

lemma isEmpty_iff {usage : Usage} : usage.isEmpty ↔ ∀ ns, usage.get ns = 0 := by
  simp [isEmpty, entries_eq_filter, toList, Namespace.mem_all]

/-! ## Totals -/

/-- **The total of a family is the sum of its counts**: those that are not stored are zero. -/
lemma family_eq_sum (usage : Usage) (start : String) :
    usage.family start =
      ((Namespace.all.filter fun ns => Text.startsWith ns.name start).map fun ns => usage.get ns).sum := by
  rw [family, entries_eq_filter, toList]
  induction Namespace.all with
  | nil => rfl
  | cons ns rest ih =>
      by_cases hzero : usage.get ns = 0 <;> by_cases hstart : Text.startsWith ns.name start <;>
        simpa [hzero, hstart] using ih

lemma family_merge (usage other : Usage) (start : String) :
    (usage.merge other).family start = usage.family start + other.family start := by
  rw [family_eq_sum, family_eq_sum, family_eq_sum, ← List.sum_map_add]
  simp only [get_merge]

lemma add_eq_merge (usage : Usage) (ns : Namespace) (count : Nat) :
    usage.add ns count = usage.merge (empty.add ns count) := by
  refine ext_get fun other => ?_
  simp

lemma add_right_comm (usage : Usage) (ns other : Namespace) (n m : Nat) :
    (usage.add ns n).add other m = (usage.add other m).add ns n := by
  refine ext_get fun which => ?_
  simp only [get_add]
  omega

/-- A count goes to the total of the families its namespace is in. -/
lemma family_add (usage : Usage) (ns : Namespace) (count : Nat) (start : String) :
    (usage.add ns count).family start =
      usage.family start + if Text.startsWith ns.name start then count else 0 := by
  have hone : (empty.add ns count).family start = if Text.startsWith ns.name start then count else 0 := by
    by_cases hzero : count = 0
    · simp [add, family, empty, hzero]
    · by_cases hstart : Text.startsWith ns.name start <;> simp [add, addTo, family, empty, hzero, hstart]
  rw [add_eq_merge, family_merge, hone]

/-! ## The laws -/

lemma merge_comm (usage other : Usage) : usage.merge other = other.merge usage := by
  refine ext_get fun ns => ?_
  rw [get_merge, get_merge, Nat.add_comm]

lemma merge_assoc (a b c : Usage) : (a.merge b).merge c = a.merge (b.merge c) := by
  refine ext_get fun ns => ?_
  simp only [get_merge, Nat.add_assoc]

/-- **Usages are a commutative monoid, and each of them is its counts.**

* Every usage is reached from the empty one by counting and merging.
* It stores the counts that are not zero, in the order of the table, and nothing else; so two usages are equal
  exactly if their counts are, and a usage is empty exactly if they are all zero.
* Merging adds up the counts.  It is commutative and associative, and the empty usage is neutral.
* The total of any family is additive. -/
theorem canonical_monoid :
    (∀ usage : Usage, Reached usage) ∧
    (∀ usage : Usage, usage.entries = usage.toList.filter fun entry => entry.2 ≠ 0) ∧
    (∀ a b : Usage, a = b ↔ ∀ ns, a.get ns = b.get ns) ∧
    (∀ usage : Usage, usage.isEmpty ↔ ∀ ns, usage.get ns = 0) ∧
    (∀ (a b : Usage) (ns : Namespace), (a.merge b).get ns = a.get ns + b.get ns) ∧
    (∀ a b : Usage, a.merge b = b.merge a) ∧
    (∀ a b c : Usage, (a.merge b).merge c = a.merge (b.merge c)) ∧
    (∀ usage : Usage, usage.merge empty = usage ∧ empty.merge usage = usage) ∧
    (∀ (a b : Usage) (start : String), (a.merge b).family start = a.family start + b.family start) := by
  refine ⟨reached, entries_eq_filter, ?_, fun usage => isEmpty_iff, get_merge, merge_comm, merge_assoc, ?_,
    family_merge⟩
  · intro a b
    exact ⟨fun h ns => by rw [h], ext_get⟩
  · exact fun usage => ⟨merge_empty usage, empty_merge usage⟩

/-! ## References -/

lemma ofReferences_append (references later : List String) :
    ofReferences (references ++ later) = (ofReferences references).merge (ofReferences later) := by
  refine ext_get fun ns => ?_
  rw [get_merge, get_ofReferences, get_ofReferences, get_ofReferences, List.countP_append]

/-- A count goes to one of the two totals. -/
lemma totals_add (usage : Usage) (ns : Namespace) (count : Nat) :
    (usage.add ns count).javax + (usage.add ns count).jakarta = usage.javax + usage.jakarta + count := by
  simp only [javax, jakarta, family_add, Namespace.startsWith_start_iff]
  cases ns.family with
  | javax => simp only [reduceCtorEq, if_true, if_false]; omega
  | jakarta => simp only [reduceCtorEq, if_true, if_false]; omega

lemma totals_record (usage : Usage) (reference : String) :
    (usage.record reference).javax + (usage.record reference).jakarta =
      usage.javax + usage.jakarta + if (Namespace.classify reference).isSome then 1 else 0 := by
  rw [record]
  cases Namespace.classify reference with
  | none => rfl
  | some ns => exact totals_add usage ns 1

/-- **The two totals together count every reference that a namespace claims.** -/
lemma totals_ofReferences (references : List String) :
    (ofReferences references).javax + (ofReferences references).jakarta =
      references.countP fun reference => (Namespace.classify reference).isSome := by
  have hfold : ∀ usage : Usage, (references.foldl record usage).javax + (references.foldl record usage).jakarta =
      usage.javax + usage.jakarta +
        references.countP fun reference => (Namespace.classify reference).isSome := by
    induction references with
    | nil => exact fun usage => rfl
    | cons reference references ih =>
        intro usage
        rw [List.foldl_cons, ih, totals_record, List.countP_cons]
        omega
  have htotal := hfold empty
  rwa [show empty.javax + empty.jakarta = 0 from rfl, Nat.zero_add] at htotal

/-- **Counting is a homomorphism from lists of references to usages.**

* The count of a namespace is the number of references that are classified to it.
* The order of the references does not matter.
* What is counted of two lists together is merged from what is counted of each.
* Every reference that is classified is in the total of one family. -/
theorem counting_homomorphism (references : List String) :
    (∀ ns, (ofReferences references).get ns =
      references.countP fun reference => Namespace.classify reference = some ns) ∧
    (∀ others, references.Perm others → ofReferences references = ofReferences others) ∧
    (∀ later, ofReferences (references ++ later) = (ofReferences references).merge (ofReferences later)) ∧
    (ofReferences references).javax + (ofReferences references).jakarta =
      references.countP fun reference => (Namespace.classify reference).isSome :=
  ⟨get_ofReferences references, fun _ => ofReferences_eq_of_perm, ofReferences_append references,
    totals_ofReferences references⟩

/-- A narrower area, a name that is kept, and both families. -/
def mixedReferences : List String :=
  ["javax.json.bind.Jsonb", "javax.transaction.xa.Xid", "jakarta.el.ELContext"]

theorem counting_homomorphism_mixed :
    (mixedReferences ++ ["java.lang.Object"]).Perm ("java.lang.Object" :: mixedReferences) ∧
    ofReferences (mixedReferences ++ ["java.lang.Object"]) =
      ofReferences ("java.lang.Object" :: mixedReferences) := by
  have hperm : (mixedReferences ++ ["java.lang.Object"]).Perm ("java.lang.Object" :: mixedReferences) :=
    List.perm_append_singleton _ _
  exact ⟨hperm, (counting_homomorphism _).2.1 _ hperm⟩

end JarSurvey.Usage
