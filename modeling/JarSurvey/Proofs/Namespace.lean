import JarSurvey.Namespace
import Mathlib.Tactic
import Mathlib.Data.Finset.Max

/-!
# Classification does not depend on the table's order

`Namespace.classify` takes the first namespace of the table that claims a reference, and a namespace claims what
begins with its name unless one of its excluded names begins it too.  Whether this gives each reference to the
narrowest namespace depends on the exclusions, of which the table needs exactly the right ones:

* **a name that begins another tracked name excludes it** (`name_mem_excluded`), so no two namespaces claim one
  reference (`claims_unique`);
* **what is excluded is a longer tracked name or a kept one** (`tracked_or_kept`), so nothing else is lost;
* **a kept name is excluded by every namespace that it could fall to** (`kept_mem_excluded`).

These are facts about the table.  From them follows `classify_longest`: a reference goes to the longest tracked name
that begins it, whatever the order of the table.
-/

namespace JarSurvey

/-! ## The order of the table -/

namespace Namespace

lemma nodup_all : all.Nodup := by
  decide +kernel

lemma pairwise_index_all : all.Pairwise fun a b => a.index < b.index := by
  rw [List.pairwise_iff_getElem]
  intro i j hi hj hlt
  rwa [index, index, nodup_all.idxOf_getElem, nodup_all.idxOf_getElem]

end Namespace

/-! ## Names that begin other names -/

namespace Area

/-- The areas that lie within other areas, each behind the area it lies in. -/
def nested : List (Area × Area) :=
  [(enterprise, enterpriseConcurrent), (enterprise, enterpriseDeploy), (json, jsonBind)]

/-- A path begins another path only if the one area lies in the other. -/
lemma eq_or_nested {outer inner : Area} (h : outer.path.toList <+: inner.path.toList) :
    outer = inner ∨ (outer, inner) ∈ nested := by
  have htable : ∀ outer ∈ all, ∀ inner ∈ all, Text.startsWith inner.path outer.path →
      outer = inner ∨ (outer, inner) ∈ nested := by
    decide +kernel
  exact htable outer (mem_all outer) inner (mem_all inner) (Text.startsWith_iff.mpr h)

end Area

namespace Namespace

lemma toList_name (ns : Namespace) : ns.name.toList = ns.family.start.toList ++ ns.area.path.toList :=
  String.toList_append

/-- Names of different families differ in their third letter already. -/
lemma family_eq_of_prefix {a b : Namespace} (h : a.name.toList <+: b.name.toList) : a.family = b.family := by
  rw [toList_name, toList_name] at h
  obtain ⟨_, _ | _⟩ := a <;> obtain ⟨_, _ | _⟩ := b
  · rfl
  · simp [Family.start, Family.label] at h
  · simp [Family.start, Family.label] at h
  · rfl

/-- A namespace is in its own family and not in the other. -/
lemma startsWith_start_iff {ns : Namespace} {family : Family} :
    Text.startsWith ns.name family.start ↔ ns.family = family := by
  rw [Text.startsWith_iff, toList_name]
  obtain ⟨_, _ | _⟩ := ns <;> cases family
  · exact iff_of_true (List.prefix_append _ _) rfl
  · simp [Family.start, Family.label]
  · simp [Family.start, Family.label]
  · exact iff_of_true (List.prefix_append _ _) rfl

/-- **A name that begins another tracked name excludes it.** -/
lemma name_mem_excluded {a b : Namespace} (h : a.name.toList <+: b.name.toList) (hne : a ≠ b) :
    b.name ∈ a.excluded := by
  have hfamily := family_eq_of_prefix h
  obtain ⟨outer, family⟩ := a
  obtain ⟨inner, _⟩ := b
  cases hfamily
  rw [toList_name, toList_name, List.prefix_append_right_inj] at h
  rcases Area.eq_or_nested h with rfl | hnested
  · exact absurd rfl hne
  · simp only [Area.nested, List.mem_cons, Prod.mk.injEq, List.not_mem_nil, or_false] at hnested
    rcases hnested with ⟨rfl, rfl⟩ | ⟨rfl, rfl⟩ | ⟨rfl, rfl⟩ <;> simp [excluded, name, Area.path]

/-! ## What is excluded -/

/-- The names below tracked ones that are not up for renaming. -/
def kept : List String :=
  ["javax.annotation.processing", "javax.transaction.xa"]

/-- Whether a kept name begins the reference. -/
def IsKept (reference : String) : Prop :=
  ∃ name ∈ kept, Text.startsWith reference name

/-- **What is excluded is a longer tracked name or a kept one.** -/
lemma tracked_or_kept {ns : Namespace} {name : String} (h : name ∈ ns.excluded) :
    (∃ other : Namespace, other.name = name ∧ ns.name.length < other.name.length) ∨ name ∈ kept := by
  have htable : ∀ ns ∈ all, ∀ name ∈ ns.excluded,
      (∃ other ∈ all, other.name = name ∧ ns.name.length < other.name.length) ∨ name ∈ kept := by
    decide +kernel
  exact (htable ns (mem_all ns) name h).imp_left fun ⟨other, _, hother⟩ => ⟨other, hother⟩

/-- **A kept name is excluded by every namespace that it could fall to.** -/
lemma kept_mem_excluded {ns : Namespace} {name : String} (hname : name ∈ kept)
    (h : ns.name.toList <+: name.toList ∨ name.toList <+: ns.name.toList) : name ∈ ns.excluded := by
  have htable : ∀ ns ∈ all, ∀ name ∈ kept,
      Text.startsWith name ns.name ∨ Text.startsWith ns.name name → name ∈ ns.excluded := by
    decide +kernel
  exact htable ns (mem_all ns) name hname (h.imp Text.startsWith_iff.mpr Text.startsWith_iff.mpr)

/-! ## Classifying -/

lemma claims_iff {ns : Namespace} {reference : String} :
    ns.claims reference ↔ ns.name.toList <+: reference.toList ∧
      ∀ name ∈ ns.excluded, ¬ name.toList <+: reference.toList := by
  simp [claims, ← Text.startsWith_iff]

/-- **At most one namespace claims a reference.**  Of two names that begin it one begins the other, and excludes it. -/
lemma claims_unique {a b : Namespace} {reference : String} (ha : a.claims reference) (hb : b.claims reference) :
    a = b := by
  rw [claims_iff] at ha hb
  by_contra hne
  rcases List.prefix_or_prefix_of_prefix ha.1 hb.1 with h | h
  · exact ha.2 _ (name_mem_excluded h hne) hb.1
  · exact hb.2 _ (name_mem_excluded h (Ne.symm hne)) ha.1

/-- In any list of all namespaces, the first that claims a reference is the one that does. -/
lemma find?_eq_some_iff_claims {table : List Namespace} (htable : ∀ ns, ns ∈ table) {ns : Namespace}
    {reference : String} : table.find? (·.claims reference) = some ns ↔ ns.claims reference := by
  have hsound : ∀ found, table.find? (·.claims reference) = some found → found.claims reference := by
    intro found hfound
    simpa using List.find?_some hfound
  refine ⟨hsound ns, fun h => ?_⟩
  obtain ⟨found, hfound⟩ := Option.isSome_iff_exists.mp
    (List.find?_isSome.mpr ⟨ns, htable ns, h⟩ : (table.find? (·.claims reference)).isSome)
  rw [hfound, claims_unique (hsound found hfound) h]

/-- The name of `ns` begins the reference, and no tracked name that does is longer. -/
def IsLongest (ns : Namespace) (reference : String) : Prop :=
  Text.startsWith reference ns.name ∧
    ∀ other : Namespace, Text.startsWith reference other.name → other.name.length ≤ ns.name.length

lemma not_isKept_of_claims {ns : Namespace} {reference : String} (h : ns.claims reference) : ¬ IsKept reference := by
  rintro ⟨name, hname, hstart⟩
  rw [claims_iff] at h
  rw [Text.startsWith_iff] at hstart
  have hcomparable := List.prefix_or_prefix_of_prefix h.1 hstart
  exact h.2 name (kept_mem_excluded hname hcomparable) hstart

/-- **A reference that is not kept is claimed by the longest name that begins it**, and by no other. -/
lemma claims_iff_isLongest {ns : Namespace} {reference : String} :
    ns.claims reference ↔ ns.IsLongest reference ∧ ¬ IsKept reference := by
  constructor
  · intro h
    refine ⟨⟨Text.startsWith_iff.mpr (claims_iff.mp h).1, ?_⟩, not_isKept_of_claims h⟩
    intro other hother
    rw [claims_iff] at h
    rw [Text.startsWith_iff] at hother
    -- A longer name would be excluded.
    by_contra hlonger
    have hprefix : ns.name.toList <+: other.name.toList :=
      List.prefix_of_prefix_length_le h.1 hother (by simp only [String.length_toList]; omega)
    have hne : ns ≠ other := by
      rintro rfl
      exact hlonger le_rfl
    exact h.2 _ (name_mem_excluded hprefix hne) hother
  · rintro ⟨⟨hstart, hlongest⟩, hkept⟩
    refine claims_iff.mpr ⟨Text.startsWith_iff.mp hstart, ?_⟩
    intro name hname hexcluded
    rcases tracked_or_kept hname with ⟨other, rfl, hlonger⟩ | hmem
    · exact absurd (hlongest other (Text.startsWith_iff.mpr hexcluded)) (not_le_of_gt hlonger)
    · exact hkept ⟨name, hmem, Text.startsWith_iff.mpr hexcluded⟩

/-- If any tracked name begins a reference, one of them is the longest. -/
lemma exists_isLongest {ns : Namespace} {reference : String} (h : Text.startsWith reference ns.name) :
    ∃ longest : Namespace, longest.IsLongest reference := by
  let beginning := (all.filter fun ns => Text.startsWith reference ns.name).toFinset
  have hmem : ∀ ns, ns ∈ beginning ↔ Text.startsWith reference ns.name := by
    intro ns
    simp [beginning, mem_all]
  obtain ⟨longest, hlongest, hmax⟩ :=
    beginning.exists_max_image (fun ns => ns.name.length) ⟨ns, (hmem ns).mpr h⟩
  exact ⟨longest, (hmem longest).mp hlongest, fun other hother => hmax other ((hmem other).mpr hother)⟩

/-- **References are classified by the longest tracked name that begins them.**  For every reference

* at most one namespace claims it, and it is classified as the one that does;
* so every order of the table gives the same classification;
* it is classified as the namespace with the longest name that begins it, unless it is kept;
* it is not classified if it is kept, or no tracked name begins it. -/
theorem classify_longest (reference : String) :
    (∀ a b : Namespace, a.claims reference → b.claims reference → a = b) ∧
    (∀ ns, classify reference = some ns ↔ ns.claims reference) ∧
    (∀ table : List Namespace, table.Perm all → table.find? (·.claims reference) = classify reference) ∧
    (∀ ns, classify reference = some ns ↔ ns.IsLongest reference ∧ ¬ IsKept reference) ∧
    (classify reference = none ↔ (∀ ns : Namespace, ¬ Text.startsWith reference ns.name) ∨ IsKept reference) := by
  have hclassify : ∀ ns, classify reference = some ns ↔ ns.claims reference :=
    fun ns => find?_eq_some_iff_claims mem_all
  refine ⟨fun a b => claims_unique, hclassify, ?_, fun ns => (hclassify ns).trans claims_iff_isLongest, ?_⟩
  · intro table hperm
    have htable : ∀ ns, ns ∈ table := fun ns => hperm.mem_iff.mpr (mem_all ns)
    refine Option.ext fun ns => ?_
    rw [find?_eq_some_iff_claims htable, hclassify]
  · rw [Option.eq_none_iff_forall_ne_some]
    simp only [ne_eq, hclassify, claims_iff_isLongest]
    constructor
    · intro h
      by_contra hnot
      rw [not_or, not_forall] at hnot
      obtain ⟨⟨ns, hns⟩, hkept⟩ := hnot
      obtain ⟨longest, hlongest⟩ := exists_isLongest (not_not.mp hns)
      exact h longest ⟨hlongest, hkept⟩
    · rintro (h | h) ns ⟨hlongest, hkept⟩
      · exact h ns hlongest.1
      · exact hkept h

end Namespace

end JarSurvey
