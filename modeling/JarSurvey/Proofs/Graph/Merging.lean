import JarSurvey.Proofs.Graph.Grouping

/-!
# Merging in stages

To merge groups is to put their classes, one after the other, among those that are there already.  A class that is
there keeps its place and gets new references, so where a class stands and what it mentions come from different
occurrences of its name:

* **it stands where its name occurs first** (`pairwise_firstPlace_merge`);
* **it is the last record of its name** (`mem_merge_iff`).

Nothing is lost if some of the groups are merged before the others: what was merged stands for the groups it came from
(`foldl_foldl_putClass`), since to put a record in changes nothing but the record of its name
(`foldl_putClass_putClass`).

Merged classes are then grouped by namespace.  `groupByNamespace_eq` says which groups there are, and `Regrouped` that
they hold each class that a namespace claims once.  **`merging_in_stages`** puts both together.
-/

namespace JarSurvey.Jar

/-! ## Records that take the place of others -/

section Putting

variable {first record older newer : ClassRecord} {rest classes merged : List ClassRecord}

lemma putClass_cons_of_eq (h : first.name = record.name) : putClass (first :: rest) record = record :: rest := by
  rw [putClass, if_pos h, h]

lemma putClass_cons_of_ne (h : first.name ≠ record.name) :
    putClass (first :: rest) record = first :: putClass rest record := by
  rw [putClass, if_neg h]

/-- Of two records of a class the later one stays. -/
lemma putClass_putClass (h : older.name = newer.name) (classes : List ClassRecord) :
    putClass (putClass classes older) newer = putClass classes newer := by
  induction classes with
  | nil => exact putClass_cons_of_eq h
  | cons first rest ih =>
      by_cases hfirst : first.name = older.name
      · rw [putClass_cons_of_eq hfirst, putClass_cons_of_eq h, putClass_cons_of_eq (hfirst.trans h)]
      · have hne : first.name ≠ newer.name := h ▸ hfirst
        rw [putClass_cons_of_ne hfirst, putClass_cons_of_ne hne, putClass_cons_of_ne hne, ih]

/-- A record of a class that is there can wait for a record of another class. -/
lemma putClass_right_comm (hne : older.name ≠ newer.name) (hmem : older.name ∈ classes.map ClassRecord.name) :
    putClass (putClass classes older) newer = putClass (putClass classes newer) older := by
  induction classes with
  | nil => cases hmem
  | cons first rest ih =>
      by_cases hfirst : first.name = older.name
      · have hother : first.name ≠ newer.name := hfirst ▸ hne
        rw [putClass_cons_of_eq hfirst, putClass_cons_of_ne hne, putClass_cons_of_ne hother,
          putClass_cons_of_eq hfirst]
      · rw [putClass_cons_of_ne hfirst]
        by_cases hother : first.name = newer.name
        · rw [putClass_cons_of_eq hother, putClass_cons_of_eq hother, putClass_cons_of_ne hne.symm]
        · have hrest : older.name ∈ rest.map ClassRecord.name :=
            (List.mem_cons.mp hmem).resolve_left (Ne.symm hfirst)
          rw [putClass_cons_of_ne hother, putClass_cons_of_ne hother, putClass_cons_of_ne hfirst, ih hrest]

lemma putClass_foldl_right_comm {later : List ClassRecord} (hlater : ∀ other ∈ later, other.name ≠ record.name)
    (hmem : record.name ∈ classes.map ClassRecord.name) :
    putClass (later.foldl putClass classes) record = later.foldl putClass (putClass classes record) := by
  induction later generalizing classes with
  | nil => rfl
  | cons other later ih =>
      rw [List.forall_mem_cons] at hlater
      have hmem' : record.name ∈ (putClass classes other).map ClassRecord.name := by
        rw [names_putClass]
        split_ifs
        · exact hmem
        · exact List.mem_append_left _ hmem
      rw [List.foldl_cons, List.foldl_cons, ih hlater.2 hmem', putClass_right_comm hlater.1.symm hmem]

/-- To put a record in before or after the classes are handed on makes no difference. -/
lemma foldl_putClass_putClass (h : (merged.map ClassRecord.name).Nodup) (classes : List ClassRecord)
    (record : ClassRecord) :
    (putClass merged record).foldl putClass classes = putClass (merged.foldl putClass classes) record := by
  induction merged generalizing classes with
  | nil => rfl
  | cons first rest ih =>
      rw [List.map_cons, List.nodup_cons] at h
      by_cases hfirst : first.name = record.name
      · -- The names are different, so no other record of the class comes behind the first one.
        have hrest : ∀ other ∈ rest, other.name ≠ record.name := by
          intro other hother heq
          exact h.1 (List.mem_map.mpr ⟨other, hother, heq.trans hfirst.symm⟩)
        have hmem : record.name ∈ (putClass classes first).map ClassRecord.name := by
          rw [names_putClass]
          split_ifs with hthere
          · exact hfirst ▸ hthere
          · simp [hfirst]
        rw [putClass_cons_of_eq hfirst, List.foldl_cons, List.foldl_cons, putClass_foldl_right_comm hrest hmem,
          putClass_putClass hfirst]
      · rw [putClass_cons_of_ne hfirst, List.foldl_cons, List.foldl_cons, ih h.2]

/-- **What was merged stands for the records that it came from.** -/
lemma foldl_foldl_putClass (h : (merged.map ClassRecord.name).Nodup) (classes records : List ClassRecord) :
    (records.foldl putClass merged).foldl putClass classes =
      records.foldl putClass (merged.foldl putClass classes) := by
  induction records generalizing merged with
  | nil => rfl
  | cons record records ih =>
      rw [List.foldl_cons, List.foldl_cons, ih (nodup_names_putClass record h), foldl_putClass_putClass h]

end Putting

/-! ## Merging groups -/

lemma merge_append (earlier later : List Jar) :
    merge (earlier ++ later) = (later.flatMap Jar.classes).foldl putClass (merge earlier) := by
  rw [merge, merge, List.flatMap_append, List.foldl_append]

/-- Merged classes may be put in, in place of the groups they came from. -/
lemma foldl_putClass_merge (jars : List Jar) (classes : List ClassRecord) :
    (merge jars).foldl putClass classes = (jars.flatMap Jar.classes).foldl putClass classes := by
  have hnil : (([] : List ClassRecord).map ClassRecord.name).Nodup := List.nodup_nil
  exact foldl_foldl_putClass hnil classes _

lemma merge_merged (name : String) (jars : List Jar) : merge [⟨name, merge jars⟩] = merge jars := by
  rw [merge, List.flatMap_singleton]
  exact foldl_putClass_merge jars []

lemma merge_stages (first second : String) (earlier later : List Jar) :
    merge [⟨first, merge earlier⟩, ⟨second, merge later⟩] = merge (earlier ++ later) := by
  have hstages := merge_append [⟨first, merge earlier⟩] [⟨second, merge later⟩]
  rw [List.singleton_append, List.flatMap_singleton, foldl_putClass_merge, merge_merged] at hstages
  rw [hstages, merge_append]

/-! ## First and last occurrences -/

/-- Where a class name occurs first among records. -/
def firstPlace (records : List ClassRecord) (name : String) : Nat :=
  (records.map ClassRecord.name).idxOf name

/-- The record is among the records, and none of those behind it is of the same class. -/
def IsLast (records : List ClassRecord) (record : ClassRecord) : Prop :=
  ∃ before after, records = before ++ record :: after ∧ ∀ other ∈ after, other.name ≠ record.name

lemma isLast_append_singleton {records : List ClassRecord} {newest record : ClassRecord} :
    IsLast (records ++ [newest]) record ↔ record = newest ∨ IsLast records record ∧ newest.name ≠ record.name := by
  constructor
  · rintro ⟨before, after, heq, hafter⟩
    rcases List.eq_nil_or_concat after with rfl | ⟨after, last, rfl⟩
    · obtain ⟨-, hlast⟩ := List.append_inj' heq rfl
      exact Or.inl (List.singleton_inj.mp hlast).symm
    · rw [List.concat_eq_append, ← List.cons_append, ← List.append_assoc] at heq
      obtain ⟨rfl, hlast⟩ := List.append_inj' heq rfl
      obtain rfl := List.singleton_inj.mp hlast
      simp only [List.concat_eq_append, List.forall_mem_append, List.forall_mem_singleton] at hafter
      exact Or.inr ⟨⟨before, after, rfl, hafter.1⟩, hafter.2⟩
  · rintro (rfl | ⟨⟨before, after, rfl, hafter⟩, hne⟩)
    · exact ⟨records, [], rfl, by simp⟩
    · refine ⟨before, after ++ [newest], by simp, ?_⟩
      rw [List.forall_mem_append, List.forall_mem_singleton]
      exact ⟨hafter, hne⟩

lemma mem_putClass_iff {classes : List ClassRecord} (h : (classes.map ClassRecord.name).Nodup)
    {newest record : ClassRecord} :
    record ∈ putClass classes newest ↔ record = newest ∨ record ∈ classes ∧ newest.name ≠ record.name := by
  induction classes with
  | nil => simp [putClass]
  | cons first rest ih =>
      rw [List.map_cons, List.nodup_cons] at h
      by_cases hfirst : first.name = newest.name
      · rw [putClass_cons_of_eq hfirst]
        have hrest : record ∈ rest → newest.name ≠ record.name := by
          intro hmem heq
          exact h.1 (List.mem_map.mpr ⟨record, hmem, (hfirst.trans heq).symm⟩)
        grind
      · rw [putClass_cons_of_ne hfirst, List.mem_cons, ih h.2]
        grind

/-- **Of each class the last record stays.** -/
lemma mem_merge_iff {jars : List Jar} {record : ClassRecord} :
    record ∈ merge jars ↔ IsLast (jars.flatMap Jar.classes) record := by
  rw [merge]
  induction jars.flatMap Jar.classes using List.reverseRecOn generalizing record with
  | nil => simp [IsLast]
  | append_singleton records newest ih =>
      have hnodup : ((records.foldl putClass []).map ClassRecord.name).Nodup :=
        nodup_names_foldl_putClass records List.nodup_nil
      rw [List.foldl_append, List.foldl_cons, List.foldl_nil, mem_putClass_iff hnodup, ih, isLast_append_singleton]

lemma firstPlace_append_of_mem {records later : List ClassRecord} {name : String}
    (h : name ∈ records.map ClassRecord.name) : firstPlace (records ++ later) name = firstPlace records name := by
  rw [firstPlace, List.map_append, List.idxOf_append_of_mem h, firstPlace]

/-- No name is lost, and none comes in that did not occur. -/
lemma mem_names_foldl_putClass {records classes : List ClassRecord} {name : String} :
    name ∈ (records.foldl putClass classes).map ClassRecord.name ↔
      name ∈ classes.map ClassRecord.name ∨ name ∈ records.map ClassRecord.name := by
  induction records generalizing classes with
  | nil => simp
  | cons record records ih =>
      rw [List.foldl_cons, ih, names_putClass, List.map_cons, List.mem_cons]
      split_ifs with hmem
      · exact ⟨Or.imp_right Or.inr, fun h => h.elim Or.inl fun h => h.elim (fun heq => Or.inl (heq ▸ hmem)) Or.inr⟩
      · rw [List.mem_append, List.mem_singleton, or_assoc]

/-- **The merged classes stand in the order in which their names occur first.** -/
lemma pairwise_firstPlace_merge (jars : List Jar) :
    ((merge jars).map ClassRecord.name).Pairwise fun a b =>
      firstPlace (jars.flatMap Jar.classes) a < firstPlace (jars.flatMap Jar.classes) b := by
  rw [merge]
  induction jars.flatMap Jar.classes using List.reverseRecOn with
  | nil => exact List.Pairwise.nil
  | append_singleton records newest ih =>
      have hseen : ∀ name, name ∈ (records.foldl putClass []).map ClassRecord.name ↔
          name ∈ records.map ClassRecord.name := by
        intro name
        simp [mem_names_foldl_putClass]
      have hkept : ((records.foldl putClass []).map ClassRecord.name).Pairwise fun a b =>
          firstPlace (records ++ [newest]) a < firstPlace (records ++ [newest]) b := by
        refine ih.imp_of_mem fun ha hb hlt => ?_
        rwa [firstPlace_append_of_mem ((hseen _).mp ha), firstPlace_append_of_mem ((hseen _).mp hb)]
      rw [List.foldl_append, List.foldl_cons, List.foldl_nil, names_putClass]
      split_ifs with hmem
      · exact hkept
      · -- A new name comes last, and its first place is behind all others.
        refine List.pairwise_append.mpr ⟨hkept, List.pairwise_singleton _ _, fun name hname other hother => ?_⟩
        obtain rfl := List.mem_singleton.mp hother
        have hnew : newest.name ∉ records.map ClassRecord.name := fun h => hmem ((hseen _).mpr h)
        have hlt : firstPlace records name < (records.map ClassRecord.name).length :=
          List.idxOf_lt_length_iff.mpr ((hseen _).mp hname)
        rw [firstPlace_append_of_mem ((hseen _).mp hname)]
        calc firstPlace records name
          _ < (records.map ClassRecord.name).length := hlt
          _ ≤ firstPlace (records ++ [newest]) newest.name := by
            rw [firstPlace, List.map_append, List.idxOf_append_of_notMem hnew]
            exact Nat.le_add_right _ _

/-! ## Grouping what was merged -/

/-- **The groups are those of the namespaces that claim a class**, each with all the classes it claims. -/
lemma groupByNamespace_eq (classes : List ClassRecord) :
    groupByNamespace classes =
      (Namespace.all.filter fun ns => classes.any fun record => Namespace.classify record.name = some ns).map
        fun ns => ⟨ns.name, classes.filter fun record => Namespace.classify record.name = some ns⟩ := by
  rw [groupByNamespace]
  induction Namespace.all with
  | nil => rfl
  | cons ns rest ih =>
      rw [List.filterMap_cons, List.filter_cons]
      cases hmembers : classes.filter fun record => Namespace.classify record.name = some ns with
      | nil =>
          have hnone : (classes.any fun record => Namespace.classify record.name = some ns) = false := by
            simpa using hmembers
          simp only [hnone, Bool.false_eq_true, if_false]
          exact ih
      | cons first members =>
          have hsome : (classes.any fun record => Namespace.classify record.name = some ns) = true := by
            have hfirst := List.mem_filter.mp (hmembers ▸ List.mem_cons_self : first ∈ classes.filter _)
            exact List.any_eq_true.mpr ⟨first, hfirst⟩
          simp only [hsome, if_true, List.map_cons, hmembers]
          rw [ih]

/-- The groups hold each class that a namespace claims once, in the group of that namespace. -/
structure Regrouped (classes : List ClassRecord) (groups : List Jar) : Prop where
  /-- There is no group without a class. -/
  nonempty : ∀ group ∈ groups, group.classes ≠ []
  /-- The groups are in the order of the table. -/
  ordered : (groups.map Jar.name).Sublist (Namespace.all.map Namespace.name)
  /-- Each group keeps the order of its classes. -/
  sublist : ∀ group ∈ groups, group.classes.Sublist classes
  /-- No class that a namespace claims is lost or doubled. -/
  complete : (groups.flatMap Jar.classes).Perm
    (classes.filter fun record => (Namespace.classify record.name).isSome)
  /-- Each class is in the group of its namespace. -/
  placed : ∀ group ∈ groups, ∀ record ∈ group.classes,
    (Namespace.classify record.name).map Namespace.name = some group.name

lemma regrouped_groupByNamespace {classes : List ClassRecord} (h : (classes.map ClassRecord.name).Nodup) :
    Regrouped classes (groupByNamespace classes) := by
  constructor
  case nonempty =>
    intro group hgroup
    rw [groupByNamespace_eq] at hgroup
    obtain ⟨ns, hns, rfl⟩ := List.mem_map.mp hgroup
    obtain ⟨record, hrecord, hclassify⟩ := List.any_eq_true.mp (List.mem_filter.mp hns).2
    exact List.ne_nil_of_mem (List.mem_filter.mpr ⟨hrecord, hclassify⟩)
  case ordered =>
    rw [groupByNamespace_eq, List.map_map]
    exact List.filter_sublist.map Namespace.name
  case sublist =>
    intro group hgroup
    obtain ⟨ns, rfl⟩ := eq_of_mem_groupByNamespace hgroup
    exact List.filter_sublist
  case complete =>
    -- Names are different on both sides, so it is enough that the same classes occur.
    have hgroups := (nodup_classNames_groupByNamespace h).of_map
    refine (List.perm_ext_iff_of_nodup hgroups (h.of_map.filter _)).mpr fun record => ?_
    simp only [groupByNamespace_eq, List.mem_flatMap, List.mem_map, List.mem_filter, List.any_eq_true,
      decide_eq_true_eq, Option.isSome_iff_exists]
    constructor
    · rintro ⟨_, ⟨ns, -, rfl⟩, hrecord⟩
      simp only [List.mem_filter, decide_eq_true_eq] at hrecord
      exact ⟨hrecord.1, ns, hrecord.2⟩
    · rintro ⟨hrecord, ns, hclassify⟩
      refine ⟨_, ⟨ns, ⟨Namespace.mem_all ns, record, hrecord, hclassify⟩, rfl⟩, ?_⟩
      simp [hrecord, hclassify]
  case placed =>
    exact fun group hgroup record => classify_of_mem hgroup

/-- **Groups may be merged in stages.**

* The merged classes have different names, in the order in which these occur first, and of each name the last record
  is kept, references and all.
* The same classes come, in the same order, of merging some groups first and the others apart from them, and then what
  was merged; so what was merged is not changed by merging it again.
* Grouped by namespace, each class that a namespace claims is kept once, and nothing else. -/
theorem merging_in_stages (earlier later : List Jar) :
    ((merge (earlier ++ later)).map ClassRecord.name).Nodup ∧
    (((merge (earlier ++ later)).map ClassRecord.name).Pairwise fun a b =>
      firstPlace ((earlier ++ later).flatMap Jar.classes) a < firstPlace ((earlier ++ later).flatMap Jar.classes) b) ∧
    (∀ record, record ∈ merge (earlier ++ later) ↔ IsLast ((earlier ++ later).flatMap Jar.classes) record) ∧
    (∀ first second, merge (earlier ++ later) = merge [⟨first, merge earlier⟩, ⟨second, merge later⟩]) ∧
    (∀ name, merge [⟨name, merge (earlier ++ later)⟩] = merge (earlier ++ later)) ∧
    Regrouped (merge (earlier ++ later)) (groupByNamespace (merge (earlier ++ later))) :=
  ⟨nodup_names_merge _, pairwise_firstPlace_merge _, fun _ => mem_merge_iff,
    fun first second => (merge_stages first second earlier later).symm, fun name => merge_merged name _,
    regrouped_groupByNamespace (nodup_names_merge _)⟩

end JarSurvey.Jar
