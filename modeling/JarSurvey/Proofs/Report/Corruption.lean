import JarSurvey.Proofs.Report.Upgrade
import JarSurvey.Proofs.Usage.Monoid

/-!
# A count that is changed is noticed

The totals of the two families stand on a line beside the counts they are the sums of, so **each number on the line is
written twice over**.  A change of one of them cannot go unnoticed:

* `parseCounts_replace` — a count goes to its namespace and to no other, whatever the other counts are;
* `family_ne_of_ne` — the total of the family of that namespace changes with it;
* `checks_javax`, `checks_jakarta`, `checks_count` — so each of the fields is checked by the others (`Checks`).

Tabs are noticed as well, for they are counted before anything else (`length_fields`).  **`corruption_caught`** puts
these together.
-/

namespace JarSurvey.Report

open Text.Decimal

/-! ## Counts -/

lemma parseCounts_add (usage : Usage) (ns : Namespace) (n : Nat) (pairs : List (Namespace × String)) :
    parseCounts (usage.add ns n) pairs = (parseCounts usage pairs).map (·.add ns n) := by
  induction pairs generalizing usage with
  | nil => rfl
  | cons pair pairs ih =>
      rw [parseCounts, parseCounts]
      cases natUpTo? maxU64 pair.2 with
      | none => rfl
      | some m =>
          dsimp only
          rw [Usage.add_right_comm, ih]

/-- **A count goes to its namespace and to no other.**  What the other counts come to does not depend on it. -/
lemma parseCounts_replace {usage after : Usage} {front back : List (Namespace × String)} {ns : Namespace}
    {field : String} (h : parseCounts usage (front ++ (ns, field) :: back) = .ok after) :
    ∃ (n : Nat) (others : Usage), natUpTo? maxU64 field = some n ∧ after = others.add ns n ∧
      ∀ text m, natUpTo? maxU64 text = some m →
        parseCounts usage (front ++ (ns, text) :: back) = .ok (others.add ns m) := by
  induction front generalizing usage with
  | nil =>
      rw [List.nil_append, parseCounts] at h
      split at h
      · next n hn =>
          rw [parseCounts_add, map_eq_ok_iff] at h
          obtain ⟨others, hothers, rfl⟩ := h
          refine ⟨n, others, hn, rfl, fun text m hm => ?_⟩
          simp only [List.nil_append, parseCounts, hm, parseCounts_add, hothers]
          rfl
      · cases h
  | cons pair front ih =>
      rw [List.cons_append, parseCounts] at h
      split at h
      · next n hn =>
          obtain ⟨m, others, hfield, hafter, hother⟩ := ih h
          refine ⟨m, others, hfield, hafter, fun text k hk => ?_⟩
          simp only [List.cons_append, parseCounts, hn]
          exact hother text k hk
      · cases h

/-- **With a count changes the total of its family.** -/
lemma family_ne_of_ne {others : Usage} {ns : Namespace} {n m : Nat} (h : m ≠ n) :
    (others.add ns m).family ns.family.start ≠ (others.add ns n).family ns.family.start := by
  have hfamily : Text.startsWith ns.name ns.family.start := Namespace.startsWith_start_iff.mpr rfl
  rw [Usage.family_add, Usage.family_add, if_pos hfamily, if_pos hfamily]
  omega

/-! ## Fields that are checked -/

/-- A field holds a number that is checked: in its place any numeral of this number gives `value`, and a numeral of
any other number is noticed. -/
def Checks {α : Type} (field : String) (read : String → Except LineError α) (value : α) : Prop :=
  ∃ n, natUpTo? maxU64 field = some n ∧ ∀ text m, natUpTo? maxU64 text = some m →
    read text = if m = n then .ok value else .error .totalsDiffer

lemma parseTotal_eq_ok_iff {family : Family} {field : String} {n : Nat} :
    parseTotal family field = .ok n ↔ natUpTo? maxU64 field = some n := by
  rw [parseTotal]
  split <;> simp_all

section Totals

variable {javaxField jakartaField : String} {counts : List String} {usage : Usage}

/-- The totals are compared once all numbers are read. -/
lemma parseUsage_eq {javax jakarta : Nat} (hjavax : natUpTo? maxU64 javaxField = some javax)
    (hjakarta : natUpTo? maxU64 jakartaField = some jakarta)
    (hcounts : parseCounts Usage.empty (Namespace.all.zip counts) = .ok usage) :
    parseUsage javaxField jakartaField counts =
      if usage.javax = javax ∧ usage.jakarta = jakarta then .ok usage else .error .totalsDiffer := by
  rw [parseUsage, parseTotal_eq_ok_iff.mpr hjavax, parseTotal_eq_ok_iff.mpr hjakarta, hcounts]
  rfl

lemma of_parseUsage (h : parseUsage javaxField jakartaField counts = .ok usage) :
    natUpTo? maxU64 javaxField = some usage.javax ∧ natUpTo? maxU64 jakartaField = some usage.jakarta ∧
      parseCounts Usage.empty (Namespace.all.zip counts) = .ok usage := by
  simp only [parseUsage, bind_eq_ok_iff, parseTotal_eq_ok_iff] at h
  obtain ⟨javax, hjavax, jakarta, hjakarta, read, hread, h⟩ := h
  split_ifs at h with htotals
  cases h
  obtain ⟨rfl, rfl⟩ := htotals
  exact ⟨hjavax, hjakarta, hread⟩

lemma checks_javax (h : parseUsage javaxField jakartaField counts = .ok usage) :
    Checks javaxField (fun text => parseUsage text jakartaField counts) usage := by
  obtain ⟨hjavax, hjakarta, hcounts⟩ := of_parseUsage h
  refine ⟨usage.javax, hjavax, fun text m hm => ?_⟩
  dsimp only
  rw [parseUsage_eq hm hjakarta hcounts]
  simp [eq_comm]

lemma checks_jakarta (h : parseUsage javaxField jakartaField counts = .ok usage) :
    Checks jakartaField (fun text => parseUsage javaxField text counts) usage := by
  obtain ⟨hjavax, hjakarta, hcounts⟩ := of_parseUsage h
  refine ⟨usage.jakarta, hjakarta, fun text m hm => ?_⟩
  dsimp only
  rw [parseUsage_eq hjavax hm hcounts]
  simp [eq_comm]

/-- The fields of the counts belong to the namespaces at the same places. -/
lemma zip_split {front back : List String} (h : front.length < Namespace.all.length) :
    ∃ (before : List Namespace) (ns : Namespace) (after : List Namespace), ∀ field : String,
      Namespace.all.zip (front ++ field :: back) = before.zip front ++ (ns, field) :: after.zip back := by
  refine ⟨Namespace.all.take front.length, Namespace.all[front.length],
    Namespace.all.drop (front.length + 1), fun field => ?_⟩
  have hlength : (Namespace.all.take front.length).length = front.length := by
    rw [List.length_take, Nat.min_eq_left h.le]
  rw [← List.zip_cons_cons, ← List.zip_append hlength, List.getElem_cons_drop, List.take_append_drop]

lemma checks_count {front back : List String} {field : String} (hfront : front.length < Namespace.all.length)
    (h : parseUsage javaxField jakartaField (front ++ field :: back) = .ok usage) :
    Checks field (fun text => parseUsage javaxField jakartaField (front ++ text :: back)) usage := by
  obtain ⟨before, ns, after, hzip⟩ := @zip_split front back hfront
  obtain ⟨hjavax, hjakarta, hcounts⟩ := of_parseUsage h
  rw [hzip] at hcounts
  obtain ⟨n, others, hn, rfl, hother⟩ := parseCounts_replace hcounts
  refine ⟨n, hn, fun text m hm => ?_⟩
  have hread := hother text m hm
  rw [← hzip] at hread
  dsimp only
  rw [parseUsage_eq hjavax hjakarta hread]
  split_ifs with htotals heq heq
  · rw [heq]
  · -- The total of the family of the namespace is not the one on the line.
    have hne := @family_ne_of_ne others ns n m heq
    cases hfamily : ns.family with
    | javax =>
        rw [hfamily] at hne
        exact absurd htotals.1 hne
    | jakarta =>
        rw [hfamily] at hne
        exact absurd htotals.2 hne
  · subst heq
    exact absurd ⟨rfl, rfl⟩ htotals
  · rfl

end Totals

/-! ## Lines -/

lemma intercalate_splitAt (separator : Char) (cs : List Char) :
    List.intercalate [separator] (splitAt separator cs) = cs := by
  have hne : ∀ cs, splitAt separator cs ≠ [] := by
    intro cs
    rw [← List.length_pos_iff, length_splitAt]
    omega
  induction cs with
  | nil => rfl
  | cons c cs ih =>
      obtain ⟨part, later, hparts⟩ := List.exists_cons_of_ne_nil (hne cs)
      rw [hparts] at ih
      rw [splitAt, hparts]
      split_ifs with hc
      · rw [List.intercalate_cons_cons, ih, hc]
        rfl
      · cases later with
        | nil => simpa using ih
        | cons next later => simpa using ih

/-- A line is its fields with tabs between them. -/
lemma joinFields_fields (line : String) : Schema.joinFields (fields '\t' line) = line := by
  rw [← String.toList_inj, Schema.joinFields, String.toList_intercalate, fields, List.map_map]
  simpa [Function.comp_def] using intercalate_splitAt '\t' line.toList

/-- A line with another text in the place of one of its fields. -/
def withField (line : String) (place : Nat) (text : String) : String :=
  Schema.joinFields ((fields '\t' line).set place text)

lemma withField_self {line field : String} {place : Nat} (h : (fields '\t' line)[place]? = some field) :
    withField line place field = line := by
  obtain ⟨hplace, rfl⟩ := List.getElem?_eq_some_iff.mp h
  rw [withField, List.set_getElem_self, joinFields_fields]

lemma fields_withField {line text : String} (place : Nat) (h : '\t' ∉ text.toList) :
    fields '\t' (withField line place text) = (fields '\t' line).set place text := by
  refine fields_intercalate ?_ fun field hfield => ?_
  · rw [← List.length_pos_iff, List.length_set, length_fields]
    omega
  · rcases List.mem_or_eq_of_mem_set hfield with hfield | rfl
    · exact (mem_fields hfield).1
    · exact h

lemma tab_notMem_numeral {text : String} {n : Nat} (h : natUpTo? maxU64 text = some n) :
    '\t' ∉ text.toList := by
  intro hmem
  exact absurd (mem_of_natUpTo? h '\t' hmem) (by decide)

/-- **A number that is checked among the totals and the counts is checked on the line.**  The columns before it are
read as ever. -/
lemma checks_line {schema : Schema} {line field : String} {row : Row} {columns numbers : List String} {k : Nat}
    {javaxOf jakartaOf : String → String} {countsOf : String → List String}
    (hfields : fields '\t' line = columns ++ numbers) (hcolumns : columns.length = schema.columns.length)
    (hhead : columns.head? ≠ some summaryHash)
    (hrecord : parseColumns blankRecord (schema.columns.zip columns) = .ok row.record)
    (hset : ∀ text, numbers.set k text = javaxOf text :: jakartaOf text :: countsOf text)
    (hcounts : ∀ text, (countsOf text).length = Namespace.all.length)
    (hchecks : Checks field (fun text => parseUsage (javaxOf text) (jakartaOf text) (countsOf text)) row.usage) :
    Checks field (fun text => parseLine schema (withField line (schema.columns.length + k) text))
      (some row) := by
  obtain ⟨n, hn, hread⟩ := hchecks
  refine ⟨n, hn, fun text m hm => ?_⟩
  have hline : fields '\t' (withField line (schema.columns.length + k) text) =
      columns ++ javaxOf text :: jakartaOf text :: countsOf text := by
    rw [fields_withField _ (tab_notMem_numeral hm), hfields, ← hcolumns,
      List.set_append_right _ _ (Nat.le_add_right _ _), Nat.add_sub_cancel_left, hset]
  have husage := hread text m hm
  dsimp only at husage ⊢
  rw [parseLine_eq hline hcolumns (hcounts text), if_neg hhead, hrecord, husage]
  split_ifs <;> rfl

/-- **Each of the totals and the counts is checked.** -/
lemma exists_checked {schema : Schema} {line : String} {row : Row} {k : Nat} (hk : k < 68)
    (h : parseLine schema line = .ok (some row)) :
    ∃ field, (fields '\t' line)[schema.columns.length + k]? = some field ∧
      Checks field (fun text => parseLine schema (withField line (schema.columns.length + k) text))
        (some row) := by
  obtain ⟨columns, javaxField, jakartaField, counts, hfields, hcolumns, hcounts, hhead, hrecord, husage⟩ :=
    of_parseLine h
  have hplace : (fields '\t' line)[schema.columns.length + k]? =
      (javaxField :: jakartaField :: counts)[k]? := by
    rw [hfields, ← hcolumns, List.getElem?_append_right (Nat.le_add_right _ _), Nat.add_sub_cancel_left]
  rw [hplace]
  rcases k with _ | _ | k
  · exact ⟨javaxField, rfl, checks_line hfields hcolumns hhead hrecord (fun _ => rfl) (fun _ => hcounts)
      (checks_javax husage)⟩
  · exact ⟨jakartaField, rfl, checks_line hfields hcolumns hhead hrecord (fun _ => rfl) (fun _ => hcounts)
      (checks_jakarta husage)⟩
  · have hall : Namespace.all.length = 66 := rfl
    have hlt : k < counts.length := by omega
    have hsplit : ∀ text, counts.set k text = counts.take k ++ text :: counts.drop (k + 1) :=
      fun text => List.set_eq_take_append_cons_drop.trans (if_pos hlt)
    have hfront : (counts.take k).length < Namespace.all.length := by
      rw [List.length_take]
      omega
    rw [← List.set_getElem_self hlt, hsplit] at husage
    refine ⟨counts[k], by simp [hlt], checks_line hfields hcolumns hhead hrecord (fun text => ?_)
      (fun text => ?_) (checks_count hfront husage)⟩
    · rw [List.set_cons_succ, List.set_cons_succ, hsplit]
    · rw [← hsplit, List.length_set, hcounts]

/-- **No number on a line can be changed unnoticed.**  Let a line of any version give a row.

* Each of the two totals and of the sixty-six counts is checked: with another numeral of the same number in its place
  the line gives the same row, and with a numeral of any other number the totals do not match the counts.
* With one tab more or one less, anywhere, the line has the wrong number of columns. -/
theorem corruption_caught {schema : Schema} {line : String} {row : Row}
    (h : parseLine schema line = .ok (some row)) :
    (∀ k < 68, ∃ field, (fields '\t' line)[schema.columns.length + k]? = some field ∧
      withField line (schema.columns.length + k) field = line ∧
      Checks field (fun text => parseLine schema (withField line (schema.columns.length + k) text)) (some row)) ∧
    (∀ front back, line = front ++ back →
      parseLine schema (front ++ "\t" ++ back) =
        .error (.columnCount schema.fieldCount (schema.fieldCount + 1))) ∧
    (∀ front back, line = front ++ "\t" ++ back →
      parseLine schema (front ++ back) =
        .error (.columnCount schema.fieldCount (schema.fieldCount - 1))) := by
  have hlength := length_of_parseLine h
  refine ⟨?_, ?_, ?_⟩
  · intro k hk
    obtain ⟨field, hfield, hchecks⟩ := exists_checked hk h
    exact ⟨field, hfield, withField_self hfield, hchecks⟩
  · rintro front back rfl
    have hmore : (fields '\t' (front ++ "\t" ++ back)).length = schema.fieldCount + 1 := by
      rw [← hlength, length_fields, length_fields]
      simp
      omega
    rw [parseLine_of_length_ne (by omega), hmore]
  · rintro front back rfl
    have hless : (fields '\t' (front ++ back)).length + 1 = schema.fieldCount := by
      rw [← hlength, length_fields, length_fields]
      simp
      omega
    rw [parseLine_of_length_ne (by omega), ← hless, Nat.add_sub_cancel]

theorem corruption_caught_old_line :
    parseLine .v5 (Schema.joinFields oldFields) = .ok (some upgradedRow) ∧
    parseLine .v5 (withField (Schema.joinFields oldFields) 6 "0007") = .ok (some upgradedRow) ∧
    parseLine .v5 (withField (Schema.joinFields oldFields) 6 "8") = .error .totalsDiffer ∧
    parseLine .v5 ("" ++ "\t" ++ Schema.joinFields oldFields) = .error (.columnCount 72 73) ∧
    parseLine .v5 ("DA39A3EE5E6B4B0D3255BFEF95601890AFD80709" ++ Schema.joinFields oldFields.tail) =
      .error (.columnCount 72 71) := by
  obtain ⟨hnumbers, hmore, hless⟩ := corruption_caught parseLine_oldFields
  obtain ⟨field, hfield, -, n, hn, hread⟩ := hnumbers 2 (by decide)
  rw [fields_oldFields] at hfield
  cases hfield
  cases hn
  exact ⟨parseLine_oldFields, hread "0007" 7 rfl, hread "8" 8 rfl, hmore "" _ String.empty_append.symm,
    hless _ _ (String.intercalate_cons_cons)⟩

end JarSurvey.Report
