import JarSurvey.Proofs.Archive.Counting
import JarSurvey.Proofs.Except
import JarSurvey.Proofs.Report.Writer

/-!
# Bringing reports to the current layout

The reader is lenient.  It takes three layouts, digests in either case, numbers with a plus sign and leading
zeros, versions in any order and more than once.  Whatever a line looks like, a row that comes out of it fits on
a line of the current layout (`fits_of_parseLine`):

* `Column.Fits` — what the value of a column has to be; reading a field makes its column fit and changes no
  other (`parseColumn_fits`, `parseColumn_keeps`), so after all fields every column fits, and the columns that a
  layout lacks are as they were in the blank record;
* `le_of_parseUsage` — counts and totals are numbers of sixty-four bits;
* `newline_notMem_trimLineEnd` — a path has no newline, for the bytes of the report were cut there.

So only a carriage return can keep a path off a line, and **`upgrade_lossless`** says that all other rows come
back from their new lines as they were.
-/

namespace JarSurvey.Report

open Text.Decimal Text.Utf8 Writer

/-! ## The bytes of a line -/

/-- The bytes of a single line, with its newline or without. -/
def SingleLine (bytes : List UInt8) : Prop :=
  ∃ body, newline ∉ body ∧ (bytes = body ∨ bytes = body ++ [newline])

lemma singleLine_of_mem_lines {source : Source} {bytes : List UInt8} (h : bytes ∈ source.lines) :
    SingleLine bytes := by
  obtain ⟨-, hlines, hlast⟩ := @cutLines_spec [] source.bytes List.not_mem_nil
  have hline : ∀ line ∈ (cutLines [] source.bytes).1, SingleLine line := by
    intro line hline
    obtain ⟨body, hbody, heq⟩ := hlines line hline
    exact ⟨body, hbody, Or.inr heq⟩
  simp only [Source.lines] at h
  split_ifs at h
  · exact hline bytes h
  · rcases List.mem_append.mp h with h | h
    · exact hline bytes h
    · rw [List.mem_singleton.mp h]
      exact ⟨_, hlast, Or.inl rfl⟩

/-- A newline at the end of the bytes is one at the end of the text. -/
lemma eq_terminated_of_encode {text : String} {body : List UInt8} (h : encode text = body ++ [newline])
    (hbody : newline ∉ body) : ∃ front, text = terminated front ∧ '\n' ∉ front.toList := by
  rw [encode_eq_flatMap] at h
  rcases List.eq_nil_or_concat text.toList with hempty | ⟨cs, c, hcs⟩
  · simp [hempty] at h
  · rw [hcs, List.concat_eq_append, List.flatMap_append, List.flatMap_singleton] at h
    have hc : c = '\n' := by
      have hlast : newline ∈ String.utf8EncodeChar c := by
        have hne : String.utf8EncodeChar c ≠ [] := by
          obtain ⟨byte, more, henc, -⟩ := piece_encode c []
          simp [henc]
        have hget := congrArg List.getLast? h
        rw [List.getLast?_append_of_ne_nil _ hne, List.getLast?_concat] at hget
        exact List.mem_of_getLast? hget
      exact Char.ext (UInt32.toNat_inj.mp (toNat_eq_of_mem_utf8EncodeChar hlast (by decide)))
    subst hc
    have hfront : cs.flatMap String.utf8EncodeChar = body := (List.append_inj' h rfl).1
    refine ⟨String.ofList cs, ?_, ?_⟩
    · rw [← String.toList_inj, hcs, terminated, String.toList_append, String.toList_ofList,
        List.concat_eq_append]
      rfl
    · intro hmem
      have hbyte : newline ∈ encode (String.ofList cs) := (mem_encode_iff (by decide)).mpr hmem
      rw [encode_eq_flatMap, String.toList_ofList, hfront] at hbyte
      exact hbody hbyte

lemma trimLineEnd_subset (text : String) : (trimLineEnd text).toList ⊆ text.toList := by
  intro c hc
  rw [trimLineEnd, String.toList_ofList, List.mem_reverse] at hc
  exact List.mem_reverse.mp ((List.dropWhile_sublist _).subset hc)

lemma newline_notMem_trimLineEnd {bytes : List UInt8} {text : String} (hbytes : SingleLine bytes)
    (h : decode bytes = .ok text) : '\n' ∉ (trimLineEnd text).toList := by
  have hencode := encode_of_decode h
  obtain ⟨body, hbody, rfl | rfl⟩ := hbytes
  · intro hmem
    apply hbody
    rw [← hencode]
    exact (mem_encode_iff (by decide)).mpr (trimLineEnd_subset text hmem)
  · obtain ⟨front, rfl, hfront⟩ := eq_terminated_of_encode hencode hbody
    intro hmem
    have htrim : trimLineEnd (terminated front) = trimLineEnd front := by
      simp [trimLineEnd, terminated]
    rw [htrim] at hmem
    exact hfront (trimLineEnd_subset front hmem)

/-! ## Fields -/

lemma mem_splitAt {separator : Char} {cs part : List Char} (h : part ∈ splitAt separator cs) :
    separator ∉ part ∧ part ⊆ cs := by
  induction cs generalizing part with
  | nil =>
      cases List.mem_singleton.mp h
      simp
  | cons c cs ih =>
      rw [splitAt] at h
      split_ifs at h with hc
      · rcases List.mem_cons.mp h with rfl | h
        · simp
        · exact ⟨(ih h).1, List.subset_cons_of_subset c (ih h).2⟩
      · split at h
        · next first later hsplit =>
            rcases List.mem_cons.mp h with rfl | h
            · obtain ⟨hnot, hsub⟩ := @ih first (by simp [hsplit])
              exact ⟨by simp [hnot, Ne.symm hc], List.cons_subset_cons c hsub⟩
            · obtain ⟨hnot, hsub⟩ := @ih part (by simp [hsplit, h])
              exact ⟨hnot, List.subset_cons_of_subset c hsub⟩
        · cases List.mem_singleton.mp h
          exact ⟨by simp [Ne.symm hc], by simp⟩

lemma mem_fields {separator : Char} {text field : String} (h : field ∈ fields separator text) :
    separator ∉ field.toList ∧ field.toList ⊆ text.toList := by
  obtain ⟨part, hpart, rfl⟩ := List.mem_map.mp h
  rw [String.toList_ofList]
  exact mem_splitAt hpart

/-! ## Columns -/

/-- What a column holds. -/
def Column.Value : Column → Type
  | sha1 => String
  | lastModified => Int
  | internalTimestamp => Int
  | size => Int
  | classCount => Int
  | bytecodeVersions => List UInt16
  | path => String

/-- The value of a column in a record. -/
def Column.valueIn (record : ArchiveRecord) : (column : Column) → column.Value
  | sha1 => record.sha1
  | lastModified => record.lastModified
  | internalTimestamp => record.internalTimestamp
  | size => record.size
  | classCount => record.classCount
  | bytecodeVersions => record.bytecodeVersions
  | path => record.path

/-- A digest in lower case that is not the one of the summary line. -/
structure IsDigest (digest : String) : Prop where
  length : digest.toList.length = 40
  digits : digest.toList.all isLowerDigit = true
  ne : digest ≠ summaryHash

/-- What a value has to be to fit on a line, a carriage return in a path apart. -/
def Column.Fits : (column : Column) → column.Value → Prop
  | sha1 => IsDigest
  | lastModified => IsSigned
  | internalTimestamp => IsSigned
  | size => IsSigned
  | classCount => IsSigned
  | bytecodeVersions => List.Pairwise (· < ·)
  | path => fun text => '\t' ∉ String.toList text ∧ '\n' ∉ String.toList text

lemma isSigned_of_parseNumber {column : Column} {field : String} {n : Int}
    (h : parseNumber column field = .ok n) : IsSigned n := by
  rw [parseNumber] at h
  split at h
  · next m hm =>
      cases h
      exact within_of_intWithin? hm
  · cases h

lemma pairwise_of_parseVersions {seen versions : List UInt16} {texts : List String}
    (hseen : seen.Pairwise (· < ·)) (h : parseVersions seen texts = .ok versions) :
    versions.Pairwise (· < ·) := by
  induction texts generalizing seen with
  | nil =>
      cases h
      exact hseen
  | cons text texts ih =>
      rw [parseVersions] at h
      split_ifs at h
      · exact ih hseen h
      · split at h
        · exact ih (Archive.pairwise_insertVersion _ hseen) h
        · cases h

lemma toLower_of_isHexDigit {c : Char} (h : isHexDigit c = true) :
    isLowerDigit c.toLower = true ∧ (c.toLower = '0' → c = '0') := by
  by_cases hlower : isLowerDigit c = true
  · rw [toLower_eq_self hlower]
    exact ⟨hlower, id⟩
  · have hupper : 'A' ≤ c ∧ c ≤ 'F' := by
      rw [isHexDigit, ← isLowerDigit, Bool.or_eq_true, or_iff_right hlower] at h
      simpa using h
    have hA : 65 ≤ c.toNat := hupper.1
    have hF : c.toNat ≤ 70 := hupper.2
    rw [← Char.ofNat_toNat c]
    generalize c.toNat = n at hA hF ⊢
    interval_cases n <;> decide

lemma toList_summaryHash : summaryHash.toList = List.replicate 40 '0' :=
  String.toList_ofList

lemma eq_summaryHash_iff {text : String} :
    text = summaryHash ↔ text.toList.length = 40 ∧ ∀ c ∈ text.toList, c = '0' := by
  rw [← String.toList_inj, toList_summaryHash]
  exact List.eq_replicate_iff

lemma isDigest_toLower {field : String} (hlength : field.toList.length = 40)
    (hdigits : field.toList.all isHexDigit = true) (hne : field ≠ summaryHash) :
    IsDigest (field.map Char.toLower) := by
  rw [List.all_eq_true] at hdigits
  constructor
  case length => rw [String.toList_map, List.length_map, hlength]
  case digits =>
    rw [String.toList_map, List.all_map, List.all_eq_true]
    exact fun c hc => (toLower_of_isHexDigit (hdigits c hc)).1
  case ne =>
    intro hlower
    rw [eq_summaryHash_iff, String.toList_map] at hlower
    refine hne (eq_summaryHash_iff.mpr ⟨hlength, fun c hc => ?_⟩)
    exact (toLower_of_isHexDigit (hdigits c hc)).2 (hlower.2 _ (List.mem_map_of_mem hc))

/-- **A field that is read fits in its column.** -/
lemma parseColumn_fits {record after : ArchiveRecord} {column : Column} {field : String}
    (htab : '\t' ∉ field.toList) (hnewline : '\n' ∉ field.toList)
    (hdigest : column = .sha1 → field ≠ summaryHash) (h : parseColumn record column field = .ok after) :
    column.Fits (column.valueIn after) := by
  cases column with
  | sha1 =>
      simp only [parseColumn] at h
      split_ifs at h with hfield
      cases h
      exact isDigest_toLower hfield.1 hfield.2 (hdigest rfl)
  | bytecodeVersions =>
      simp only [parseColumn, bind_eq_ok_iff, pure_eq_ok_iff] at h
      obtain ⟨versions, hversions, rfl⟩ := h
      exact pairwise_of_parseVersions List.Pairwise.nil hversions
  | path =>
      cases h
      exact ⟨htab, hnewline⟩
  | _ =>
      simp only [parseColumn, bind_eq_ok_iff, pure_eq_ok_iff] at h
      obtain ⟨n, hn, rfl⟩ := h
      exact isSigned_of_parseNumber hn

/-- **A field that is read changes no other column.** -/
lemma parseColumn_keeps {record after : ArchiveRecord} {column other : Column} {field : String}
    (h : parseColumn record column field = .ok after) (hne : other ≠ column) :
    other.valueIn after = other.valueIn record := by
  cases column with
  | sha1 =>
      simp only [parseColumn] at h
      split_ifs at h with hfield
      cases h
      cases other <;> trivial
  | path =>
      cases h
      cases other <;> trivial
  | _ =>
      simp only [parseColumn, bind_eq_ok_iff, pure_eq_ok_iff] at h
      obtain ⟨value, -, rfl⟩ := h
      cases other <;> trivial

/-- **What a run of fields leaves in a column**: a value that fits, if the column was read or fitted before. -/
lemma parseColumns_fits {record after : ArchiveRecord} {pairs : List (Column × String)}
    (hfields : ∀ pair ∈ pairs, '\t' ∉ pair.2.toList ∧ '\n' ∉ pair.2.toList)
    (hdigest : ∀ pair ∈ pairs, pair.1 = .sha1 → pair.2 ≠ summaryHash)
    (h : parseColumns record pairs = .ok after) {column : Column}
    (hcolumn : column ∈ pairs.map Prod.fst ∨ column.Fits (column.valueIn record)) :
    column.Fits (column.valueIn after) := by
  induction pairs generalizing record with
  | nil =>
      cases h
      simpa using hcolumn
  | cons pair pairs ih =>
      rw [List.forall_mem_cons] at hfields hdigest
      simp only [parseColumns, bind_eq_ok_iff] at h
      obtain ⟨next, hnext, h⟩ := h
      refine ih hfields.2 hdigest.2 h ?_
      by_cases hread : column = pair.1
      · subst hread
        exact Or.inr (parseColumn_fits hfields.1.1 hfields.1.2 hdigest.1 hnext)
      · rw [parseColumn_keeps hnext hread]
        simpa [hread] using hcolumn

lemma parseColumns_keeps {record after : ArchiveRecord} {pairs : List (Column × String)}
    (h : parseColumns record pairs = .ok after) {column : Column} (hcolumn : column ∉ pairs.map Prod.fst) :
    column.valueIn after = column.valueIn record := by
  induction pairs generalizing record with
  | nil =>
      cases h
      rfl
  | cons pair pairs ih =>
      rw [List.map_cons, List.mem_cons, not_or] at hcolumn
      simp only [parseColumns, bind_eq_ok_iff] at h
      obtain ⟨next, hnext, h⟩ := h
      rw [ih h hcolumn.2, parseColumn_keeps hnext hcolumn.1]

/-! ## Counts -/

lemma le_of_parseTotal {family : Family} {field : String} {n : Nat} (h : parseTotal family field = .ok n) :
    n ≤ maxU64 := by
  rw [parseTotal] at h
  split at h
  · next m hm =>
      cases h
      exact le_of_natUpTo? hm
  · cases h

/-- Each namespace is counted once, so the count that is read is the one that is kept. -/
lemma get_le_of_parseCounts {usage after : Usage} {pairs : List (Namespace × String)}
    (hnodup : (pairs.map Prod.fst).Nodup) (hle : ∀ ns, usage.get ns ≤ maxU64)
    (hzero : ∀ ns ∈ pairs.map Prod.fst, usage.get ns = 0) (h : parseCounts usage pairs = .ok after)
    (ns : Namespace) : after.get ns ≤ maxU64 := by
  induction pairs generalizing usage with
  | nil =>
      cases h
      exact hle ns
  | cons pair pairs ih =>
      rw [List.map_cons, List.nodup_cons] at hnodup
      rw [List.map_cons, List.forall_mem_cons] at hzero
      rw [parseCounts] at h
      split at h
      · next n hn =>
          refine ih hnodup.2 ?_ ?_ h
          · intro other
            rw [Usage.get_add]
            split_ifs with hother
            · rw [hother, hzero.1, Nat.zero_add]
              exact le_of_natUpTo? hn
            · exact hle other
          · intro other hother
            have hne : other ≠ pair.1 := by
              rintro rfl
              exact hnodup.1 hother
            rw [Usage.get_add, if_neg hne, hzero.2 other hother]
      · cases h

lemma le_of_parseUsage {javaxField jakartaField : String} {counts : List String} {usage : Usage}
    (hcounts : Namespace.all.length ≤ counts.length)
    (h : parseUsage javaxField jakartaField counts = .ok usage) :
    (∀ ns, usage.get ns ≤ maxU64) ∧ usage.javax ≤ maxU64 ∧ usage.jakarta ≤ maxU64 := by
  simp only [parseUsage, bind_eq_ok_iff] at h
  obtain ⟨javax, hjavax, jakarta, hjakarta, read, hread, h⟩ := h
  split_ifs at h with htotals
  cases h
  rw [htotals.1, htotals.2]
  refine ⟨get_le_of_parseCounts ?_ ?_ ?_ hread, le_of_parseTotal hjavax, le_of_parseTotal hjakarta⟩
  · rw [List.map_fst_zip hcounts]
    exact Namespace.nodup_all
  · simp [Usage.get_empty]
  · simp [Usage.get_empty]

/-! ## Lines -/

lemma columns_eq_cons (schema : Schema) : ∃ later, schema.columns = .sha1 :: later ∧ .sha1 ∉ later := by
  cases schema with
  | v5 => exact ⟨_, rfl, by decide⟩
  | v6 => exact ⟨_, rfl, by decide⟩
  | v7 => exact ⟨_, rfl, by decide⟩

lemma fits_blank {column : Column} (h : column ≠ .sha1) : column.Fits (column.valueIn blankRecord) := by
  have hzero : IsSigned 0 := by decide
  have hunknown : IsSigned unknown := by decide
  cases column with
  | sha1 => exact absurd rfl h
  | lastModified => exact hzero
  | internalTimestamp => exact hzero
  | size => exact hunknown
  | classCount => exact hunknown
  | bytecodeVersions => exact List.Pairwise.nil
  | path => exact ⟨List.not_mem_nil, List.not_mem_nil⟩

/-- **A row that is read fits on a line**, unless its path has a carriage return, and the columns that the layout
lacks are blank. -/
lemma fits_of_parseLine {schema : Schema} {line : String} {row : Row} (hline : '\n' ∉ line.toList)
    (h : parseLine schema line = .ok (some row)) :
    row.Fits ∧ Column.path.Fits row.record.path ∧
      ∀ column ∉ schema.columns, column.valueIn row.record = column.valueIn blankRecord := by
  obtain ⟨columns, javaxField, jakartaField, counts, hfields, hlength, hcounts, hne, hrecord, husage⟩ :=
    of_parseLine h
  obtain ⟨later, hcolumns, hlater⟩ := columns_eq_cons schema
  obtain ⟨digest, rest, rfl⟩ : ∃ digest rest, columns = digest :: rest := by
    rw [hcolumns, List.length_cons] at hlength
    exact List.exists_cons_of_length_eq_add_one hlength
  have hzip : (schema.columns.zip (digest :: rest)).map Prod.fst = schema.columns := List.map_fst_zip hlength.ge
  have hfit : ∀ column : Column, column.Fits (column.valueIn row.record) := by
    intro column
    refine parseColumns_fits ?_ ?_ hrecord ?_
    · intro pair hpair
      have hfield := mem_fields (hfields ▸ List.mem_append_left _ (List.of_mem_zip hpair).2)
      exact ⟨hfield.1, fun hmem => hline (hfield.2 hmem)⟩
    · -- The digest stands in the first column only, where the line of the summary was ruled out.
      intro pair hpair hsha1
      rw [hcolumns, List.zip_cons_cons] at hpair
      rcases List.mem_cons.mp hpair with rfl | hpair
      · simpa using hne
      · exact absurd (hsha1 ▸ (List.of_mem_zip hpair).1) hlater
    · rw [hzip]
      by_cases hsha1 : column = .sha1
      · rw [hsha1, hcolumns]
        exact Or.inl List.mem_cons_self
      · exact Or.inr (fits_blank hsha1)
  obtain ⟨hget, hjavax, hjakarta⟩ := le_of_parseUsage hcounts.ge husage
  have hdigest : IsDigest row.record.sha1 := hfit .sha1
  refine ⟨⟨hdigest.length, hdigest.digits, hdigest.ne, hfit .lastModified, hfit .internalTimestamp, hfit .size,
    hfit .classCount, hfit .bytecodeVersions, hget, hjavax, hjakarta⟩, hfit .path, ?_⟩
  intro column hcolumn
  refine parseColumns_keeps hrecord ?_
  rwa [hzip]

lemma isWritable_iff_of_fits {path : String} (h : Column.path.Fits path) :
    isWritable path = true ↔ '\r' ∉ path.toList := by
  rw [isWritable_iff]
  constructor
  · intro hall hmem
    exact (hall '\r' hmem).2.2 rfl
  · intro hreturn c hc
    refine ⟨?_, ?_, ?_⟩
    · rintro rfl
      exact h.1 hc
    · rintro rfl
      exact h.2 hc
    · rintro rfl
      exact hreturn hc

/-! ## Reports -/

lemma exists_line_of_mem {schema : Schema} {number : Nat} {lines : List (List UInt8)} {row : Row}
    (h : row ∈ (Reading.readLines schema number lines).1) :
    ∃ bytes ∈ lines, readLine schema bytes = .ok (some row) := by
  induction lines generalizing number with
  | nil => simp [Reading.readLines] at h
  | cons bytes lines ih =>
      have hlater : row ∈ (Reading.readLines schema (number + 1) lines).1 →
          ∃ line ∈ bytes :: lines, readLine schema line = .ok (some row) := by
        intro hrow
        obtain ⟨line, hline, hread⟩ := ih hrow
        exact ⟨line, List.mem_cons_of_mem bytes hline, hread⟩
      rcases hfirst : readLine schema bytes with fault | _ | first
      · simp only [Reading.readLines, hfirst] at h
        exact hlater h
      · simp only [Reading.readLines, hfirst] at h
        exact hlater h
      · simp only [Reading.readLines, hfirst] at h
        rcases List.mem_cons.mp h with rfl | h
        · exact ⟨bytes, List.mem_cons_self, hfirst⟩
        · exact hlater h

/-- A row of a report comes from a line of it. -/
lemma exists_text_of_mem {source : Source} {reading : Reading} {row : Row}
    (hread : Reading.ofSource source = .ok reading) (hrow : row ∈ reading.rows) :
    ∃ line, '\n' ∉ line.toList ∧ parseLine reading.schema line = .ok (some row) := by
  rw [Reading.ofSource] at hread
  split at hread
  · cases hread
  · next heading lines hlines =>
      simp only [bind_eq_ok_iff, pure_eq_ok_iff] at hread
      obtain ⟨schema, -, rfl⟩ := hread
      obtain ⟨bytes, hbytes, hline⟩ := exists_line_of_mem hrow
      have hmem : bytes ∈ source.lines := by
        rw [hlines]
        exact List.mem_cons_of_mem heading hbytes
      rw [readLine] at hline
      split at hline
      · cases hline
      · next text htext =>
          refine ⟨trimLineEnd text, newline_notMem_trimLineEnd (singleLine_of_mem_lines hmem) htext, ?_⟩
          dsimp only at hline
          split_ifs at hline
          · cases hline
          · split at hline
            · next found hfound =>
                cases hline
                exact hfound
            · cases hline

/-- A heading and a line that can be read make a report with one row. -/
lemma ofSource_one {schema : Schema} {text : String} {row : Row}
    (hline : ∀ c ∈ text.toList, c ≠ '\n' ∧ c ≠ '\r') (hne : text ≠ "")
    (hrow : parseLine schema text = .ok (some row)) :
    Reading.ofSource ⟨encode (terminated schema.heading) ++ encode (terminated text), none⟩ =
      .ok ⟨schema, [row], [], none⟩ := by
  have hlines : Source.lines ⟨encode (terminated schema.heading) ++ encode (terminated text), none⟩ =
      [encode (terminated schema.heading), encode (terminated text)] := by
    simpa using @lines_encode [schema.heading, text] (by simpa using ⟨Schema.isLine_heading schema, hline⟩)
  rw [ofSource_eq hlines (Schema.isLine_heading schema) (Schema.detect_heading schema)]
  simp only [Reading.readLines, readLine_terminated hline hne hrow]
  rfl

/-- **Rows survive the way to the current layout.**  Let a row be read from a report of any version, and let it
be written without a root.

* It is in normal form: the digest in lower case, the versions in ascending order and each once, and all numbers
  within their bounds.  Under version five the size and the class count are minus one, and before version seven
  there are no versions.
* Writing it fails for its path exactly if the path has a carriage return.
* Otherwise, the line that is written is read as the very same row under version seven, so that to upgrade it
  once more changes nothing. -/
theorem upgrade_lossless {source : Source} {reading : Reading} {row : Row} {writer : Writer}
    (hread : Reading.ofSource source = .ok reading) (hrow : row ∈ reading.rows) (hroot : writer.root = none) :
    row.Fits ∧
    (reading.schema.version = 5 → row.record.size = -1 ∧ row.record.classCount = -1) ∧
    (reading.schema.version < 7 → row.record.bytecodeVersions = []) ∧
    ((writer.write row).2 = .error (.unwritablePath row.record.path) ↔ '\r' ∈ row.record.path.toList) ∧
    ('\r' ∉ row.record.path.toList →
      readLine .v7 (encode (writer.lineOf row)) = .ok (some row) ∧
      (writer.sink.accepts writer.sink.offered writer.sink.taken (writer.lineOf row) = true →
        (writer.write row).2 = .ok () ∧
          (writer.write row).1.sink.taken = writer.sink.taken ++ [writer.lineOf row])) := by
  obtain ⟨line, hline, hparse⟩ := exists_text_of_mem hread hrow
  obtain ⟨hfits, hpath, hblank⟩ := fits_of_parseLine hline hparse
  have hwritable : isWritable (relativePath writer.root row.record.path) = true ↔
      '\r' ∉ row.record.path.toList := by
    rw [hroot]
    exact isWritable_iff_of_fits hpath
  refine ⟨hfits, ?_, ?_, ?_, ?_⟩
  · intro hversion
    have hschema : reading.schema = .v5 := by
      cases hs : reading.schema <;> rw [hs] at hversion <;> trivial
    rw [hschema] at hblank
    exact ⟨hblank .size (by decide), hblank .classCount (by decide)⟩
  · intro hversion
    refine hblank .bytecodeVersions ?_
    cases hs : reading.schema <;> rw [hs] at hversion
    · decide
    · decide
    · exact absurd hversion (by decide)
  · have hsame : relativePath writer.root row.record.path = row.record.path := by rw [hroot, relativePath]
    have hunwritable := @write_unwritable_iff writer row
    rw [hwritable, not_not, hsame] at hunwritable
    exact hunwritable
  · intro hreturn
    refine ⟨?_, fun haccepts => ?_⟩
    · have hsame : row.relative writer.root = row := by
        rw [hroot]
        rfl
      rw [lineOf, readLine_rowText hfits (hwritable.mpr hreturn), hsame]
    · have hok : (writer.write row).2 = .ok () := write_ok_iff.mpr ⟨hwritable.mpr hreturn, haccepts⟩
      exact ⟨hok, (write_ok (Prod.ext rfl hok)).2.2.2⟩

/-! A report of version five whose only row has a digest in upper case, signs and leading zeros. -/

def oldFields : List String :=
  ["DA39A3EE5E6B4B0D3255BFEF95601890AFD80709", "+0012", "-0", "lib/é.jar", "007", "0", "+7"] ++
    List.replicate 65 "00"

def oldSource : Source where
  bytes := encode (terminated Schema.v5.heading) ++ encode (terminated (Schema.joinFields oldFields))
  failure := none

def upgradedRow : Row where
  record := {
    path := "lib/é.jar"
    sha1 := "da39a3ee5e6b4b0d3255bfef95601890afd80709"
    lastModified := 12
    internalTimestamp := 0
    size := -1
    classCount := -1
    bytecodeVersions := [] }
  usage := Usage.empty.add ⟨.activation, .javax⟩ 7

lemma isWritable_oldFields : ∀ field ∈ oldFields, isWritable field = true := by
  decide

lemma fields_oldFields : fields '\t' (Schema.joinFields oldFields) = oldFields :=
  fields_joinFields (by decide) isWritable_oldFields

lemma parseLine_oldFields : parseLine .v5 (Schema.joinFields oldFields) = .ok (some upgradedRow) := by
  have hlower : "DA39A3EE5E6B4B0D3255BFEF95601890AFD80709".map Char.toLower = upgradedRow.record.sha1 := by
    rw [← String.toList_inj, String.toList_map]
    rfl
  have hrecord : parseColumns blankRecord (Schema.v5.columns.zip oldFields) = .ok upgradedRow.record := by
    simp only [oldFields, Schema.columns, List.cons_append, List.zip_cons_cons, parseColumns, parseColumn]
    rw [if_pos (by decide), hlower]
    rfl
  have husage : parseUsage "007" "0" ("+7" :: List.replicate 65 "00") = .ok upgradedRow.usage := rfl
  have hlength : oldFields.length = Schema.v5.fieldCount := rfl
  have hhead : oldFields.head? ≠ some summaryHash := by decide
  have hdrop : oldFields.drop Schema.v5.columns.length = "007" :: "0" :: "+7" :: List.replicate 65 "00" := rfl
  simp only [parseLine, fields_oldFields, hlength, ne_eq, not_true_eq_false, if_false, if_neg hhead, hrecord,
    hdrop, husage]
  rfl

lemma ofSource_oldSource : Reading.ofSource oldSource = .ok ⟨.v5, [upgradedRow], [], none⟩ := by
  refine ofSource_one (isLine_joinFields isWritable_oldFields) ?_ parseLine_oldFields
  intro hempty
  have hfields := fields_oldFields
  rw [hempty] at hfields
  exact absurd (congrArg List.length hfields) (by decide)

theorem upgrade_lossless_version_five :
    ∃ reading row, Reading.ofSource oldSource = .ok reading ∧ row ∈ reading.rows ∧
      reading.schema.version = 5 ∧
      row.record.sha1 = "da39a3ee5e6b4b0d3255bfef95601890afd80709" ∧ row.record.size = -1 ∧
      ∃ writer, Writer.start Sink.unlimited none = .ok writer ∧ (writer.write row).2 = .ok () ∧
        readLine .v7 (encode (writer.lineOf row)) = .ok (some row) := by
  have hrow : upgradedRow ∈ [upgradedRow] := List.mem_singleton.mpr rfl
  have hpath : '\r' ∉ upgradedRow.record.path.toList := by decide
  obtain ⟨-, hsize, -, -, hback⟩ := @upgrade_lossless _ _ _
    ⟨⟨[terminated Schema.v7.heading], 1, fun _ _ _ => true, ""⟩, none, Summary.empty⟩ ofSource_oldSource hrow rfl
  exact ⟨_, _, ofSource_oldSource, hrow, rfl, rfl, (hsize rfl).1, _, start_unlimited none,
    ((hback hpath).2 rfl).1, (hback hpath).1⟩

end JarSurvey.Report
