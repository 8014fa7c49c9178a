import JarSurvey.Graph.Jar
import Mathlib.Tactic
import Mathlib.Data.List.Nodup

/-!
# Every class has one group

Merging leaves each name once (`nodup_names_merge`), and grouping puts a class into the group of the one
namespace that its name is classified to.  So the groups have different names (`nodup_names_groupByNamespace`),
and **no class name occurs twice in all the groups together** (`nodup_classNames_groupByNamespace`).  What a
closure needs of this is `separate_groupByNamespace`: no two groups have a class of the same name.
-/

namespace JarSurvey

namespace Jar

lemma contains_iff {jar : Jar} {className : String} :
    jar.contains className = true ↔ ∃ record ∈ jar.classes, record.name = className := by
  simp [contains]

/-! ## Merging -/

lemma names_putClass (classes : List ClassRecord) (record : ClassRecord) :
    (putClass classes record).map ClassRecord.name =
      if record.name ∈ classes.map ClassRecord.name then classes.map ClassRecord.name
      else classes.map ClassRecord.name ++ [record.name] := by
  induction classes with
  | nil => simp [putClass]
  | cons first rest ih =>
      rw [putClass]
      by_cases hfirst : first.name = record.name
      · simp [hfirst]
      · rw [if_neg hfirst, List.map_cons, ih]
        have hne : ¬ record.name = first.name := fun h => hfirst h.symm
        by_cases hrest : record.name ∈ rest.map ClassRecord.name
        · rw [if_pos hrest, if_pos (by simp [List.mem_map.mp hrest])]
          simp
        · rw [if_neg hrest, if_neg (by simpa [hne] using hrest)]
          simp

lemma nodup_names_putClass {classes : List ClassRecord} (record : ClassRecord)
    (h : (classes.map ClassRecord.name).Nodup) :
    ((putClass classes record).map ClassRecord.name).Nodup := by
  rw [names_putClass]
  split_ifs with hmem
  · exact h
  · exact List.nodup_append.mpr ⟨h, List.nodup_singleton _, by
      intro name hname other hother heq
      rw [List.mem_singleton] at hother
      exact hmem (hother ▸ heq ▸ hname)⟩

lemma nodup_names_foldl_putClass (records : List ClassRecord) {classes : List ClassRecord}
    (h : (classes.map ClassRecord.name).Nodup) :
    ((records.foldl putClass classes).map ClassRecord.name).Nodup := by
  induction records generalizing classes with
  | nil => exact h
  | cons record records ih => exact ih (nodup_names_putClass record h)

/-- Merging leaves each name once. -/
lemma nodup_names_merge (jars : List Jar) : ((merge jars).map ClassRecord.name).Nodup :=
  nodup_names_foldl_putClass _ List.nodup_nil

/-! ## Grouping -/

/-- A group is all that its namespace has among the classes. -/
lemma eq_of_mem_groupByNamespace {classes : List ClassRecord} {jar : Jar}
    (h : jar ∈ groupByNamespace classes) :
    ∃ ns : Namespace,
      jar = ⟨ns.name, classes.filter fun record => Namespace.classify record.name = some ns⟩ := by
  obtain ⟨ns, _, hns⟩ := List.mem_filterMap.mp h
  refine ⟨ns, ?_⟩
  split at hns
  · cases hns
  · rw [← Option.some.inj hns]

/-- The name of a class in a group is classified to the namespace of the group. -/
lemma classify_of_mem {classes : List ClassRecord} {jar : Jar} (h : jar ∈ groupByNamespace classes)
    {record : ClassRecord} (hrecord : record ∈ jar.classes) :
    (Namespace.classify record.name).map Namespace.name = some jar.name := by
  obtain ⟨ns, rfl⟩ := eq_of_mem_groupByNamespace h
  have hns : Namespace.classify record.name = some ns := by
    simpa using (List.mem_filter.mp hrecord).2
  simp [hns]

/-- **The groups have different names.** -/
lemma nodup_names_groupByNamespace (classes : List ClassRecord) :
    ((groupByNamespace classes).map Jar.name).Nodup := by
  have hall : Namespace.all.Pairwise fun ns other => ns.name ≠ other.name := by
    decide +kernel
  rw [List.Nodup, List.pairwise_map, groupByNamespace, List.pairwise_filterMap]
  refine hall.imp ?_
  intro ns other hne jar hjar next hnext
  split at hjar
  · cases hjar
  · split at hnext
    · cases hnext
    · cases hjar
      cases hnext
      exact hne

/-- Groups of which no two have a class of the same name. -/
def Separate (jars : List Jar) : Prop :=
  jars.Pairwise fun jar other => ∀ className, jar.contains className = true →
    ¬ other.contains className = true

lemma separate_groupByNamespace (classes : List ClassRecord) : Separate (groupByNamespace classes) := by
  have hnames := nodup_names_groupByNamespace classes
  rw [List.Nodup, List.pairwise_map] at hnames
  refine hnames.imp_of_mem ?_
  intro jar other hjar hother hne className hin hin'
  obtain ⟨record, hrecord, rfl⟩ := contains_iff.mp hin
  obtain ⟨record', hrecord', heq⟩ := contains_iff.mp hin'
  have hclass := classify_of_mem hother hrecord'
  rw [heq, classify_of_mem hjar hrecord] at hclass
  exact hne (Option.some.inj hclass)

/-- **No class name occurs twice in all the groups together.** -/
lemma nodup_classNames_groupByNamespace {classes : List ClassRecord}
    (h : (classes.map ClassRecord.name).Nodup) :
    (((groupByNamespace classes).flatMap Jar.classes).map ClassRecord.name).Nodup := by
  rw [List.map_flatMap, List.nodup_flatMap]
  constructor
  · intro jar hjar
    obtain ⟨ns, rfl⟩ := eq_of_mem_groupByNamespace hjar
    exact h.sublist (List.filter_sublist.map _)
  · refine (separate_groupByNamespace classes).imp ?_
    intro jar other hseparate name hname hname'
    exact hseparate name (contains_iff.mpr (List.mem_map.mp hname))
      (contains_iff.mpr (List.mem_map.mp hname'))

end Jar

end JarSurvey
