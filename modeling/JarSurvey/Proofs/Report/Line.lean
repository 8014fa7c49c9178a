import JarSurvey.Report.Reader
import JarSurvey.Report.Writer
import JarSurvey.Proofs.Except
import JarSurvey.Proofs.Text.Decimal
import JarSurvey.Proofs.Text.Utf8
import JarSurvey.Proofs.Usage

/-!
# Reading a line undoes writing it

A line is its fields with tabs between them.  Reading has to find the fields again (`fields_intercalate`),
to read each column (`parseColumns_format`) and to add up the counts (`parseCounts_format`).

* `Row.Fits` — what a row needs to fit on a line: a proper digest, numbers of sixty-four bits, versions in
  ascending order;
* **`parseLine_format`** — the line of such a row gives back the row, with the path that was written;
* `parseLine_summary` — the line at the end of a report gives no row;
* `of_parseLine` — a line that gives a row has the fields of its layout, each of which was read.
-/

namespace JarSurvey.Report

open Text.Decimal

/-! ## Fields and their separators -/

lemma splitAt_of_not_mem {separator : Char} {cs : List Char} (h : separator ∉ cs) :
    splitAt separator cs = [cs] := by
  induction cs with
  | nil => rfl
  | cons c cs ih =>
      rw [List.mem_cons, not_or] at h
      rw [splitAt, if_neg (Ne.symm h.1), ih h.2]

lemma splitAt_append {separator : Char} {cs rest : List Char} (h : separator ∉ cs) :
    splitAt separator (cs ++ separator :: rest) = cs :: splitAt separator rest := by
  induction cs with
  | nil => rw [List.nil_append, splitAt, if_pos rfl]
  | cons c cs ih =>
      rw [List.mem_cons, not_or] at h
      rw [List.cons_append, splitAt, if_neg (Ne.symm h.1), ih h.2]

/-- **The fields of a line are the texts that were put together.** -/
lemma fields_intercalate {separator : Char} {texts : List String} (hne : texts ≠ [])
    (h : ∀ text ∈ texts, separator ∉ text.toList) :
    fields separator ((String.singleton separator).intercalate texts) = texts := by
  have hsplit : ∀ parts : List (List Char), parts ≠ [] → (∀ part ∈ parts, separator ∉ part) →
      splitAt separator (List.intercalate [separator] parts) = parts := by
    intro parts hparts hmem
    induction parts with
    | nil => exact absurd rfl hparts
    | cons part parts ih =>
        rw [List.forall_mem_cons] at hmem
        cases parts with
        | nil =>
            rw [List.intercalate_singleton]
            exact splitAt_of_not_mem hmem.1
        | cons next parts =>
            rw [List.intercalate_cons_cons, List.append_assoc, List.singleton_append,
              splitAt_append hmem.1, ih (List.cons_ne_nil _ _) hmem.2]
  rw [fields, String.toList_intercalate, String.toList_singleton, hsplit]
  · simp [Function.comp_def]
  · simpa using hne
  · simpa using h

/-- What holds of all characters of a separator and of some texts holds of those of the texts put
together. -/
lemma forall_mem_intercalate {P : Char → Prop} {separator : String} {texts : List String}
    (hseparator : ∀ c ∈ separator.toList, P c) (h : ∀ text ∈ texts, ∀ c ∈ text.toList, P c) :
    ∀ c ∈ (separator.intercalate texts).toList, P c := by
  induction texts with
  | nil => simp
  | cons text texts ih =>
      rw [List.forall_mem_cons] at h
      cases texts with
      | nil => simpa using h.1
      | cons next texts =>
          intro c hc
          simp only [String.intercalate_cons_cons, String.toList_append, List.mem_append] at hc
          rcases hc with (hc | hc) | hc
          · exact h.1 c hc
          · exact hseparator c hc
          · exact ih h.2 c hc

/-! ## Versions -/

lemma insertVersion_of_forall_lt {version : UInt16} {seen : List UInt16} (h : ∀ v ∈ seen, v < version) :
    Contents.insertVersion version seen = seen ++ [version] := by
  induction seen with
  | nil => rfl
  | cons v seen ih =>
      rw [List.forall_mem_cons] at h
      have hne : version ≠ v := by
        rintro rfl
        exact absurd h.1 (UInt16.lt_irrefl _)
      rw [Contents.insertVersion, if_neg hne, if_neg (UInt16.lt_asymm h.1), ih h.2, List.cons_append]

/-- Versions in ascending order are read one behind the other. -/
lemma parseVersions_format {seen versions : List UInt16} (h : (seen ++ versions).Pairwise (· < ·)) :
    parseVersions seen (versions.map fun v => toString v.toNat) = .ok (seen ++ versions) := by
  induction versions generalizing seen with
  | nil => rw [List.map_nil, parseVersions, List.append_nil]
  | cons v versions ih =>
      have hne : toString v.toNat ≠ "" := by
        intro hempty
        exact toString_nat_ne_empty v.toNat (by rw [hempty]; rfl)
      have hlast : Contents.insertVersion v seen = seen ++ [v] := by
        refine insertVersion_of_forall_lt fun w hw => ?_
        exact (List.pairwise_append.mp h).2.2 w hw v (by simp)
      have hbound : v.toNat ≤ maxU16 := Nat.le_of_lt_succ v.toNat_lt
      rw [List.map_cons, parseVersions, if_neg hne, natUpTo?_toString hbound]
      simp only [UInt16.ofNat_toNat, hlast]
      rw [ih (by simpa using h)]
      simp

lemma fields_versions {versions : List UInt16} (h : versions.Pairwise (· < ·)) :
    parseVersions [] (fields ',' (",".intercalate (versions.map fun v => toString v.toNat))) =
      .ok versions := by
  cases hversions : versions with
  | nil => rfl
  | cons v rest =>
      have hcomma : (",": String) = String.singleton ',' := rfl
      rw [← hversions, hcomma, fields_intercalate]
      · exact parseVersions_format h
      · simp [hversions]
      · intro text htext hmem
        obtain ⟨w, _, rfl⟩ := List.mem_map.mp htext
        exact absurd (isDigit_of_mem_toString_nat hmem) (by decide)

/-! ## Rows that fit on a line -/

/-- A number of sixty-four bits with a sign. -/
def IsSigned (n : Int) : Prop :=
  minI64 ≤ n ∧ n ≤ maxI64

instance (n : Int) : Decidable (IsSigned n) :=
  inferInstanceAs (Decidable (_ ∧ _))

/-- Whether a character is a hexadecimal digit in lower case. -/
def isLowerDigit (c : Char) : Bool :=
  ('0' ≤ c && c ≤ '9') || ('a' ≤ c && c ≤ 'f')

/-- What a row needs to fit on a line. -/
structure Row.Fits (row : Row) : Prop where
  digest_length : row.record.sha1.toList.length = 40
  digest_digits : row.record.sha1.toList.all isLowerDigit = true
  digest_ne : row.record.sha1 ≠ summaryHash
  lastModified : IsSigned row.record.lastModified
  internalTimestamp : IsSigned row.record.internalTimestamp
  size : IsSigned row.record.size
  classCount : IsSigned row.record.classCount
  versions : row.record.bytecodeVersions.Pairwise (· < ·)
  counts : ∀ ns, row.usage.get ns ≤ maxU64
  javax : row.usage.javax ≤ maxU64
  jakarta : row.usage.jakarta ≤ maxU64

/-! ## Columns -/

lemma parseNumber_toString {column : Column} {n : Int} (h : IsSigned n) :
    parseNumber column (toString n) = .ok n := by
  rw [parseNumber, intWithin?_toString h.1 h.2]

lemma toLower_eq_self {c : Char} (h : isLowerDigit c = true) : c.toLower = c := by
  simp only [isLowerDigit, Bool.or_eq_true, Bool.and_eq_true, decide_eq_true_eq] at h
  refine dif_neg fun hupper => ?_
  have hA : 65 ≤ c.val.toNat := hupper.1
  have hZ : c.val.toNat ≤ 90 := hupper.2
  rcases h with ⟨_, h⟩ | ⟨h, _⟩
  · have h9 : c.val.toNat ≤ 57 := h
    omega
  · have ha : 97 ≤ c.val.toNat := h
    omega

lemma isHexDigit_of_isLowerDigit {c : Char} (h : isLowerDigit c = true) : isHexDigit c = true := by
  simp only [isLowerDigit] at h
  rw [isHexDigit, h, Bool.true_or]

lemma parseColumn_sha1 {record : ArchiveRecord} {text : String} (hlength : text.toList.length = 40)
    (hdigits : text.toList.all isLowerDigit = true) :
    parseColumn record .sha1 text = .ok { record with sha1 := text } := by
  rw [List.all_eq_true] at hdigits
  have hhex : text.toList.all isHexDigit = true :=
    List.all_eq_true.mpr fun c hc => isHexDigit_of_isLowerDigit (hdigits c hc)
  have hlower : text.map Char.toLower = text := by
    rw [← String.toList_inj, String.toList_map]
    exact (List.map_congr_left fun c hc => toLower_eq_self (hdigits c hc)).trans (List.map_id' _)
  rw [parseColumn, if_pos ⟨hlength, hhex⟩, hlower]
  rfl

/-- A record with one column of another one, whose path is written as `path`. -/
def withColumn (source : ArchiveRecord) (path : String) (record : ArchiveRecord) :
    Column → ArchiveRecord
  | .sha1 => { record with sha1 := source.sha1 }
  | .lastModified => { record with lastModified := source.lastModified }
  | .internalTimestamp => { record with internalTimestamp := source.internalTimestamp }
  | .size => { record with size := source.size }
  | .classCount => { record with classCount := source.classCount }
  | .bytecodeVersions => { record with bytecodeVersions := source.bytecodeVersions }
  | .path => { record with path := path }

lemma parseColumn_format {row : Row} (h : row.Fits) (path : String) (record : ArchiveRecord)
    (column : Column) :
    parseColumn record column (formatColumn row.record path column) =
      .ok (withColumn row.record path record column) := by
  cases column with
  | sha1 => exact parseColumn_sha1 h.digest_length h.digest_digits
  | lastModified => rw [parseColumn, formatColumn, parseNumber_toString h.lastModified]; rfl
  | internalTimestamp => rw [parseColumn, formatColumn, parseNumber_toString h.internalTimestamp]; rfl
  | size => rw [parseColumn, formatColumn, parseNumber_toString h.size]; rfl
  | classCount => rw [parseColumn, formatColumn, parseNumber_toString h.classCount]; rfl
  | bytecodeVersions => rw [parseColumn, formatColumn, fields_versions h.versions]; rfl
  | path => rfl

/-- **The columns in front of the counts are read back.** -/
lemma parseColumns_format {row : Row} (h : row.Fits) (path : String) (columns : List Column)
    (later : List String) (record : ArchiveRecord) :
    parseColumns record (columns.zip (columns.map (formatColumn row.record path) ++ later)) =
      .ok (columns.foldl (withColumn row.record path) record) := by
  induction columns generalizing record with
  | nil => rfl
  | cons column columns ih =>
      rw [List.map_cons, List.cons_append, List.zip_cons_cons, parseColumns, parseColumn_format h path]
      exact ih _

/-! ## Counts -/

lemma parseCounts_format {entries : List (Namespace × Nat)} (h : ∀ entry ∈ entries, entry.2 ≤ maxU64)
    (usage : Usage) :
    parseCounts usage (entries.map fun entry => (entry.1, toString entry.2)) =
      .ok (entries.foldl (fun sum entry => sum.add entry.1 entry.2) usage) := by
  induction entries generalizing usage with
  | nil => rfl
  | cons entry entries ih =>
      rw [List.forall_mem_cons] at h
      rw [List.map_cons, parseCounts, natUpTo?_toString h.1]
      exact ih h.2 _

/-- Counting what is listed gives back a usage. -/
lemma foldl_toList (usage : Usage) :
    usage.toList.foldl (fun sum entry => sum.add entry.1 entry.2) Usage.empty = usage := by
  refine Usage.ext_get fun ns => ?_
  rw [Usage.get_foldl_add, Usage.get_empty, Nat.zero_add, Usage.toList, List.map_map]
  rw [List.sum_map_eq_nsmul_single ns, List.count_eq_one_of_mem Namespace.nodup_all ns.mem_all]
  · simp
  · intro other hne _
    simp [Ne.symm hne]

lemma zip_toList (usage : Usage) :
    Namespace.all.zip (usage.toList.map fun entry => toString entry.2) =
      usage.toList.map fun entry => (entry.1, toString entry.2) := by
  rw [Usage.toList, List.map_map, List.map_map, ← List.map_prod_left_eq_zip]
  rfl

/-- **The totals and the counts are read back.** -/
lemma parseUsage_format {usage : Usage} (hcounts : ∀ ns, usage.get ns ≤ maxU64)
    (hjavax : usage.javax ≤ maxU64) (hjakarta : usage.jakarta ≤ maxU64) :
    parseUsage (toString usage.javax) (toString usage.jakarta)
      (usage.toList.map fun entry => toString entry.2) = .ok usage := by
  have hentries : ∀ entry ∈ usage.toList, entry.2 ≤ maxU64 := by
    intro entry hentry
    obtain ⟨ns, _, rfl⟩ := List.mem_map.mp hentry
    exact hcounts ns
  have hread := parseCounts_format hentries Usage.empty
  rw [foldl_toList, ← zip_toList] at hread
  simp only [parseUsage, parseTotal, natUpTo?_toString hjavax, natUpTo?_toString hjakarta, hread]
  exact if_pos ⟨rfl, rfl⟩

/-! ## Fields that can be written -/

lemma isWritable_iff {text : String} :
    isWritable text = true ↔ ∀ c ∈ text.toList, c ≠ '\t' ∧ c ≠ '\n' ∧ c ≠ '\r' := by
  simp [isWritable]

lemma isWritable_append (a b : String) : isWritable (a ++ b) = (isWritable a && isWritable b) := by
  rw [isWritable, String.toList_append, List.all_append]
  rfl

lemma isWritable_nat (n : Nat) : isWritable (toString n) = true := by
  rw [isWritable_iff]
  intro c hc
  have hdigit := isDigit_of_mem_toString_nat hc
  refine ⟨?_, ?_, ?_⟩ <;> (rintro rfl; exact absurd hdigit (by decide))

lemma isWritable_int (n : Int) : isWritable (toString n) = true := by
  rw [isWritable_iff]
  intro c hc
  rcases mem_toString_int hc with rfl | hdigit
  · decide
  · refine ⟨?_, ?_, ?_⟩ <;> (rintro rfl; exact absurd hdigit (by decide))

/-! ## Whole lines -/

/-- The fields of a line. -/
def lineFields (schema : Schema) (record : ArchiveRecord) (path : String) (usage : Usage) :
    List String :=
  schema.columns.map (formatColumn record path) ++ [toString usage.javax, toString usage.jakarta] ++
    usage.toList.map fun entry => toString entry.2

lemma length_lineFields (schema : Schema) (record : ArchiveRecord) (path : String) (usage : Usage) :
    (lineFields schema record path usage).length = schema.fieldCount := by
  simp only [lineFields, Usage.toList, List.length_append, List.length_map, List.length_cons,
    List.length_nil, Schema.fieldCount]

/-- The fields of a line can be written if the texts among them can. -/
lemma isWritable_of_mem_lineFields {schema : Schema} {record : ArchiveRecord} {path field : String}
    {usage : Usage} (hdigest : isWritable record.sha1 = true) (hpath : isWritable path = true)
    (h : field ∈ lineFields schema record path usage) : isWritable field = true := by
  simp only [lineFields, List.mem_append, List.mem_map, List.mem_cons, List.not_mem_nil,
    or_false] at h
  rcases h with (⟨column, _, rfl⟩ | rfl | rfl) | ⟨entry, _, rfl⟩
  · cases column with
    | sha1 => exact hdigest
    | path => exact hpath
    | bytecodeVersions =>
        have hcomma : isWritable "," = true := by decide
        refine isWritable_iff.mpr (forall_mem_intercalate (isWritable_iff.mp hcomma) fun text htext => ?_)
        obtain ⟨version, _, rfl⟩ := List.mem_map.mp htext
        exact isWritable_iff.mp (isWritable_nat _)
    | _ => exact isWritable_int _
  all_goals exact isWritable_nat _

lemma fields_joinFields {texts : List String} (hne : texts ≠ [])
    (h : ∀ text ∈ texts, isWritable text = true) : fields '\t' (Schema.joinFields texts) = texts := by
  refine fields_intercalate hne fun text htext hmem => ?_
  exact (isWritable_iff.mp (h text htext) '\t' hmem).1 rfl

lemma fields_lineFields {schema : Schema} {record : ArchiveRecord} {path : String} {usage : Usage}
    (hdigest : isWritable record.sha1 = true) (hpath : isWritable path = true) :
    fields '\t' (Schema.joinFields (lineFields schema record path usage)) =
      lineFields schema record path usage := by
  refine fields_joinFields (List.ne_nil_of_length_pos ?_) fun field =>
    isWritable_of_mem_lineFields hdigest hpath
  rw [length_lineFields, Schema.fieldCount]
  omega

lemma joinFields_ne_empty {schema : Schema} {record : ArchiveRecord} {path : String} {usage : Usage}
    (hdigest : isWritable record.sha1 = true) (hpath : isWritable path = true) :
    Schema.joinFields (lineFields schema record path usage) ≠ "" := by
  intro hempty
  have hlength := length_lineFields schema record path usage
  rw [← fields_lineFields hdigest hpath, hempty, Schema.fieldCount] at hlength
  have hone : (fields '\t' "").length = 1 := rfl
  omega

/-- Fields that can be written make a single line. -/
lemma isLine_joinFields {texts : List String} (h : ∀ text ∈ texts, isWritable text = true) :
    ∀ c ∈ (Schema.joinFields texts).toList, c ≠ '\n' ∧ c ≠ '\r' := by
  refine forall_mem_intercalate (fun c hc => ?_) fun text htext c hc => ?_
  · cases List.mem_singleton.mp (show c ∈ ['\t'] from hc)
    decide
  · exact (isWritable_iff.mp (h text htext) c hc).2

lemma Row.Fits.isWritable_sha1 {row : Row} (h : row.Fits) : isWritable row.record.sha1 = true := by
  rw [isWritable_iff]
  intro c hc
  have hdigit := List.all_eq_true.mp h.digest_digits c hc
  refine ⟨?_, ?_, ?_⟩ <;> (rintro rfl; exact absurd hdigit (by decide))

lemma length_splitAt (separator : Char) (cs : List Char) :
    (splitAt separator cs).length = cs.count separator + 1 := by
  induction cs with
  | nil => rfl
  | cons c cs ih =>
      rw [splitAt]
      split_ifs with hc
      · rw [List.length_cons, ih, hc, List.count_cons_self]
      · rw [List.count_cons_of_ne hc, ← ih]
        split <;> simp_all

/-- There is one field more than there are separators. -/
lemma length_fields (separator : Char) (text : String) :
    (fields separator text).length = text.toList.count separator + 1 := by
  rw [fields, List.length_map, length_splitAt]

/-- **What a line with the right number of fields comes to**: the columns are read, then the totals and counts. -/
lemma parseLine_eq {schema : Schema} {line javaxField jakartaField : String} {columns counts : List String}
    (hfields : fields '\t' line = columns ++ javaxField :: jakartaField :: counts)
    (hcolumns : columns.length = schema.columns.length) (hcounts : counts.length = Namespace.all.length) :
    parseLine schema line =
      if columns.head? = some summaryHash then .ok none
      else do
        let record ← parseColumns blankRecord (schema.columns.zip columns)
        let usage ← parseUsage javaxField jakartaField counts
        return some ⟨record, usage⟩ := by
  have hne : columns ≠ [] := by
    rw [← List.length_pos_iff, hcolumns]
    cases schema <;> decide
  have hlength : (fields '\t' line).length = schema.fieldCount := by
    rw [hfields, List.length_append, hcolumns, List.length_cons, List.length_cons, hcounts, Schema.fieldCount]
    omega
  have hhead : (fields '\t' line).head? = columns.head? := by
    rw [hfields, List.head?_append_of_ne_nil _ hne]
  have hzip : schema.columns.zip (fields '\t' line) = schema.columns.zip columns := by
    simpa [hfields] using @List.zip_append _ _ schema.columns [] columns
      (javaxField :: jakartaField :: counts) hcolumns.symm
  have hdrop : (fields '\t' line).drop schema.columns.length = javaxField :: jakartaField :: counts := by
    rw [hfields, List.drop_left' hcolumns]
  simp only [parseLine, hlength, hhead, hzip, hdrop, ne_eq, not_true_eq_false, if_false]
  rfl

lemma parseLine_of_length_ne {schema : Schema} {line : String}
    (h : (fields '\t' line).length ≠ schema.fieldCount) :
    parseLine schema line = .error (.columnCount schema.fieldCount (fields '\t' line).length) := by
  simp only [parseLine, if_pos h]
  rfl

lemma length_of_parseLine {schema : Schema} {line : String} {row : Option Row}
    (h : parseLine schema line = .ok row) : (fields '\t' line).length = schema.fieldCount := by
  by_contra hne
  rw [parseLine_of_length_ne hne] at h
  cases h

/-- A line that is read has the fields of its layout. -/
lemma exists_fields {schema : Schema} {line : String} {row : Option Row} (h : parseLine schema line = .ok row) :
    ∃ columns javaxField jakartaField counts,
      fields '\t' line = columns ++ javaxField :: jakartaField :: counts ∧
      columns.length = schema.columns.length ∧ counts.length = Namespace.all.length := by
  have hlength := length_of_parseLine h
  have hdrop : ((fields '\t' line).drop schema.columns.length).length = Namespace.all.length + 2 := by
    rw [List.length_drop, hlength, Schema.fieldCount]
    omega
  obtain ⟨javaxField, _, hrest⟩ := List.exists_cons_of_length_eq_add_one hdrop
  rw [hrest, List.length_cons, Nat.add_right_cancel_iff] at hdrop
  obtain ⟨jakartaField, counts, rfl⟩ := List.exists_cons_of_length_eq_add_one hdrop
  refine ⟨(fields '\t' line).take schema.columns.length, javaxField, jakartaField, counts, ?_, ?_, by simpa using hdrop⟩
  · rw [← hrest, List.take_append_drop]
  · rw [List.length_take, hlength, Schema.fieldCount]
    omega

/-- What has to hold of the fields of a line that gives a row. -/
lemma of_parseLine {schema : Schema} {line : String} {row : Row}
    (h : parseLine schema line = .ok (some row)) :
    ∃ columns javaxField jakartaField counts,
      fields '\t' line = columns ++ javaxField :: jakartaField :: counts ∧
      columns.length = schema.columns.length ∧ counts.length = Namespace.all.length ∧
      columns.head? ≠ some summaryHash ∧
      parseColumns blankRecord (schema.columns.zip columns) = .ok row.record ∧
      parseUsage javaxField jakartaField counts = .ok row.usage := by
  obtain ⟨columns, javaxField, jakartaField, counts, hfields, hcolumns, hcounts⟩ := exists_fields h
  rw [parseLine_eq hfields hcolumns hcounts] at h
  split_ifs at h with hhead
  · cases h
  simp only [bind_eq_ok_iff, pure_eq_ok_iff] at h
  obtain ⟨record, hrecord, usage, husage, h⟩ := h
  cases h
  exact ⟨columns, javaxField, jakartaField, counts, hfields, hcolumns, hcounts, hhead, hrecord, husage⟩

/-- **The line of a row gives back the row**, with the path that was written. -/
lemma parseLine_format {row : Row} {path : String} (h : row.Fits) (hpath : isWritable path = true) :
    parseLine .v7 (Schema.joinFields (lineFields .v7 row.record path row.usage)) =
      .ok (some ⟨{ row.record with path := path }, row.usage⟩) := by
  have hcolumns := parseColumns_format h path Schema.v7.columns
    ([toString row.usage.javax, toString row.usage.jakarta] ++
      row.usage.toList.map fun entry => toString entry.2) blankRecord
  rw [← List.append_assoc] at hcolumns
  have hhead : (lineFields .v7 row.record path row.usage).head? ≠ some summaryHash :=
    fun heq => h.digest_ne (Option.some.inj heq)
  have husage := parseUsage_format h.counts h.javax h.jakarta
  have hdrop : (lineFields .v7 row.record path row.usage).drop Schema.v7.columns.length =
      toString row.usage.javax :: toString row.usage.jakarta ::
        row.usage.toList.map fun entry => toString entry.2 := rfl
  simp only [parseLine, fields_lineFields h.isWritable_sha1 hpath, length_lineFields, ne_eq,
    not_true_eq_false, if_false, if_neg hhead, hdrop, husage]
  rw [lineFields, hcolumns]
  rfl

/-! ## The line at the end of a report -/

/-- The record in the summary line. -/
def summaryRecord (summary : Summary) : ArchiveRecord where
  path := ""
  sha1 := summaryHash
  lastModified := 0
  internalTimestamp := 0
  size := min summary.bytes maxI64
  classCount := min summary.classes maxI64
  bytecodeVersions := []

lemma isWritable_summaryHash : isWritable summaryHash = true := by
  decide

lemma isWritable_describe (summary : Summary) : isWritable summary.describe = true := by
  simp only [Summary.describe, isWritable_append, isWritable_nat, Bool.true_and, Bool.and_true]
  decide

/-- **The line at the end of a report gives no row**, whatever the totals are. -/
lemma parseLine_summary (summary : Summary) :
    parseLine .v7 (Schema.joinFields
      (lineFields .v7 (summaryRecord summary) summary.describe summary.usage)) = .ok none := by
  have hdigest : isWritable (summaryRecord summary).sha1 = true := isWritable_summaryHash
  have hhead : (lineFields .v7 (summaryRecord summary) summary.describe summary.usage).head? =
      some summaryHash := rfl
  simp only [parseLine, fields_lineFields hdigest (isWritable_describe summary), length_lineFields,
    ne_eq, not_true_eq_false, if_false, if_pos hhead]
  rfl

end JarSurvey.Report
