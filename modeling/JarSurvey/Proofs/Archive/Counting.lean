import JarSurvey.Archive
import Mathlib.Tactic

/-!
# Nested archives count as a whole or not at all

What an archive contributes is said here without any failure on the way.  An entry `fails` if it cannot be
opened, or if its content is wanted and cannot be unpacked.  A class entry shares its class, if it can be read,
and a nested archive shares what its entries share, if its structure can be read and none of its own entries
fails (`contribution`).  Nothing else is shared.

There is a third way for a walk to end: on a locked entry the reader gives up, whatever archive the entry is in.
`givesUp` says when it comes to that, and `Ends` which of the three ways belongs to which entries.

* `Ends.cons`, `ends_entry` — one entry after the other, and a single entry;
* `ends_walk` — **a walk ends as its entries say**, at any nesting;
* **`archive_counted_whole`** — what the record of an archive holds, and when there is none.
-/

namespace JarSurvey.Archive

/-! ## Entries -/

/-- What an entry is to a walk. -/
inductive Kind where
  | directory
  | classFile
  | archive
  | other
  deriving DecidableEq

/-- The kind of an entry, which its name tells. -/
def kind (entry : Zip.Entry) : Kind :=
  if entry.isDirectory then .directory
  else if Text.endsWith entry.name ".class" then .classFile
  else if Path.isArchiveName entry.name then .archive
  else .other

lemma entryContents_eq (walk? : Option (String → List Zip.Item → Traced Contents)) (label : String)
    (entry : Zip.Entry) :
    entryContents walk? label entry =
      match kind entry, walk? with
      | .classFile, _ => classContents label entry
      | .archive, some walk => nestedContents walk label entry
      | .archive, none => do
        Traced.warn (.nestingTooDeep (label ++ "!/" ++ entry.name))
        return Contents.empty
      | _, _ => pure Contents.empty := by
  unfold entryContents kind
  split_ifs
  · rfl
  · rfl
  · cases walk? <;> rfl
  · rfl

/-- Whether an item fails, in an archive that may hold archives `nesting` deep: it cannot be opened, or it is a
class or a nested archive and its content cannot be unpacked. -/
def fails (nesting : Nat) : Zip.Item → Bool
  | .unreadable => true
  | .locked => false
  | .entry entry =>
    entry.content.isNone && (kind entry = .classFile || (kind entry = .archive && 0 < nesting))

/-- The items of a nested archive whose structure can be read. -/
def nestedItems? (entry : Zip.Entry) : Option (List Zip.Item) :=
  if kind entry = .archive then entry.content.bind Zip.read else none

/-- The class of an entry, if it is one that can be read. -/
def classOf (entry : Zip.Entry) : List ClassFile.Scan :=
  if kind entry = .classFile then
    (entry.content.bind fun bytes => (ClassFile.scan bytes.toList).toOption).toList
  else []

/-- The time of an entry, if it has one. -/
def timeOf (entry : Zip.Entry) : List Int :=
  entry.time.toList

/-! ## What items share -/

section Sharing

variable {α : Type}

/-- What an item shares: its own share, and that of the items in it. -/
def itemShare (share : Zip.Entry → List α) (inside : List Zip.Item → List α) : Zip.Item → List α
  | .entry entry => share entry ++ (nestedItems? entry).elim [] inside
  | _ => []

/-- All that items contribute, in an archive that may hold archives `nesting` deep.  A nested archive
contributes what its items contribute if none of them fails, and else nothing. -/
def contribution (share : Zip.Entry → List α) : Nat → List Zip.Item → List α
  | 0, items => items.flatMap (itemShare share fun _ => [])
  | deeper + 1, items => items.flatMap (itemShare share fun inside =>
      if inside.any (fails deeper) then [] else contribution share deeper inside)

lemma contribution_append (share : Zip.Entry → List α) (nesting : Nat) (items later : List Zip.Item) :
    contribution share nesting (items ++ later) =
      contribution share nesting items ++ contribution share nesting later := by
  cases nesting <;> simp [contribution]

/-- An entry that is no archive that could be opened shares what it has. -/
lemma contribution_of_not_nested (share : Zip.Entry → List α) {nesting : Nat} {entry : Zip.Entry}
    (h : nesting = 0 ∨ nestedItems? entry = none) : contribution share nesting [.entry entry] = share entry := by
  cases nesting with
  | zero => cases hnested : nestedItems? entry <;> simp [contribution, itemShare, hnested]
  | succ deeper =>
      have hnested : nestedItems? entry = none := by simpa using h
      simp [contribution, itemShare, hnested]

lemma contribution_of_nested (share : Zip.Entry → List α) (deeper : Nat) {entry : Zip.Entry}
    {inside : List Zip.Item} (h : nestedItems? entry = some inside) :
    contribution share (deeper + 1) [.entry entry] =
      share entry ++ if inside.any (fails deeper) then [] else contribution share deeper inside := by
  simp [contribution, itemShare, h]

end Sharing

/-- The newest of some times; there is none before zero. -/
def newest (times : List Int) : Int :=
  times.foldr max 0

lemma newest_append (times later : List Int) :
    newest (times ++ later) = max (newest times) (newest later) := by
  induction times with
  | nil =>
      have hpos : ∀ times : List Int, 0 ≤ newest times := by
        intro times
        induction times with
        | nil => exact le_refl 0
        | cons time times ih => exact le_max_of_le_right ih
      exact (max_eq_right (hpos later)).symm
  | cons time times ih =>
      show max time (newest (times ++ later)) = max (max time (newest times)) (newest later)
      rw [ih, max_assoc]

/-- The contents that items contribute. -/
def gathered (nesting : Nat) (items : List Zip.Item) : Contents :=
  ⟨newest (contribution timeOf nesting items), contribution classOf nesting items⟩

lemma gathered_cons (nesting : Nat) (item : Zip.Item) (later : List Zip.Item) :
    gathered nesting (item :: later) = (gathered nesting [item]).append (gathered nesting later) := by
  rw [← List.singleton_append]
  simp only [gathered, Contents.append, contribution_append, newest_append]

lemma ofTime_append (entry : Zip.Entry) (contents : Contents) (times : List Int)
    (h : contents.newest = newest times) :
    (Contents.ofTime entry.time).append contents = ⟨newest (timeOf entry ++ times), contents.classes⟩ := by
  have htime : max 0 (entry.time.getD 0) = newest (timeOf entry) := by
    rw [timeOf]
    cases entry.time with
    | none => rfl
    | some time => exact max_comm 0 time
  rw [Contents.append, Contents.ofTime, newest_append, h, htime]
  rfl

/-! ## Giving up -/

/-- Whether the reader gives up on an item. -/
def givesUpOn (inside : List Zip.Item → Bool) : Zip.Item → Bool
  | .unreadable => false
  | .locked => true
  | .entry entry => (nestedItems? entry).any inside

/-- Whether the reader gives up on one of the items, before any of them fails. -/
def givesUp : Nat → List Zip.Item → Bool
  | 0, items => (items.takeWhile (!fails 0 ·)).any (givesUpOn fun _ => false)
  | deeper + 1, items => (items.takeWhile (!fails (deeper + 1) ·)).any (givesUpOn (givesUp deeper))

lemma givesUp_cons (nesting : Nat) (item : Zip.Item) (later : List Zip.Item) :
    givesUp nesting (item :: later) =
      (!fails nesting item && (givesUp nesting [item] || givesUp nesting later)) := by
  cases nesting <;> cases h : fails _ item <;> simp [givesUp, h]

lemma givesUp_singleton_of_fails {nesting : Nat} {item : Zip.Item} (h : fails nesting item = true) :
    givesUp nesting [item] = false := by
  cases nesting <;> simp [givesUp, h]

/-! ## How a walk ends -/

/-- The ways in which a walk of some items can end. -/
inductive Ends (nesting : Nat) (items : List Zip.Item) : Except ArchiveError Contents → Prop
  | abandoned (hlocked : givesUp nesting items = true) : Ends nesting items (.error .abandoned)
  | failed {error : ArchiveError} (hopen : givesUp nesting items = false)
      (hfails : items.any (fails nesting) = true) (herror : error ≠ .abandoned) :
      Ends nesting items (.error error)
  | counted (hopen : givesUp nesting items = false) (hfails : items.any (fails nesting) = false) :
      Ends nesting items (.ok (gathered nesting items))

/-- **One item and then the others**: the first that does not end well decides. -/
lemma Ends.cons {nesting : Nat} {item : Zip.Item} {later : List Zip.Item}
    {first rest : Except ArchiveError Contents} (hfirst : Ends nesting [item] first)
    (hrest : Ends nesting later rest) :
    Ends nesting (item :: later) (first.bind fun contents => rest.map contents.append) := by
  cases hfirst with
  | abandoned hlocked =>
      refine .abandoned ?_
      have hitem : fails nesting item = false := by
        by_contra hfails
        rw [givesUp_singleton_of_fails (by simpa using hfails)] at hlocked
        cases hlocked
      rw [givesUp_cons, hitem, hlocked]
      rfl
  | failed hopen hfails herror =>
      have hitem : fails nesting item = true := by simpa using hfails
      refine .failed ?_ ?_ herror
      · rw [givesUp_cons, hitem]
        rfl
      · rw [List.any_cons, hitem, Bool.true_or]
  | counted hopen hfails =>
      have hitem : fails nesting item = false := by simpa using hfails
      have hcons : givesUp nesting (item :: later) = givesUp nesting later := by
        rw [givesUp_cons, hitem, hopen]
        rfl
      have hany : (item :: later).any (fails nesting) = later.any (fails nesting) := by
        rw [List.any_cons, hitem, Bool.false_or]
      cases hrest with
      | abandoned hlocked => exact .abandoned (hcons.trans hlocked)
      | failed hopen' hfails' herror => exact .failed (hcons.trans hopen') (hany.trans hfails') herror
      | counted hopen' hfails' =>
          have hdone := Ends.counted (hcons.trans hopen') (hany.trans hfails')
          rw [gathered_cons] at hdone
          exact hdone

/-- Walking items of which the first is an entry. -/
lemma result_walkFrom_entry (walk? : Option (String → List Zip.Item → Traced Contents)) (label : String)
    (index : Nat) (entry : Zip.Entry) (later : List Zip.Item) :
    (walkFrom walk? label index (.entry entry :: later)).result =
      ((entryContents walk? label entry).result.map (Contents.ofTime entry.time).append).bind
        fun contents => (walkFrom walk? label (index + 1) later).result.map contents.append := by
  rw [walkFrom]
  simp only [bind, pure]
  generalize entryContents walk? label entry = first
  generalize walkFrom walk? label (index + 1) later = rest
  obtain ⟨_, _ | contents⟩ := first
  · rfl
  · obtain ⟨_, _ | more⟩ := rest <;> rfl

/-- An entry that has nothing in it ends with its time and its own share, unless it fails. -/
lemma ends_plain {nesting : Nat} {entry : Zip.Entry} (hfails : fails nesting (.entry entry) = false)
    (hnested : nesting = 0 ∨ nestedItems? entry = none) :
    Ends nesting [.entry entry] (.ok ((Contents.ofTime entry.time).append ⟨0, classOf entry⟩)) := by
  have hopen : givesUp nesting [.entry entry] = false := by
    rcases nesting with _ | deeper
    · cases h : nestedItems? entry <;> simp [givesUp, givesUpOn, hfails, h]
    · have hnone : nestedItems? entry = none := by simpa using hnested
      simp [givesUp, givesUpOn, hfails, hnone]
  have hdone := Ends.counted hopen (by simpa using hfails)
  rw [gathered, contribution_of_not_nested timeOf hnested, contribution_of_not_nested classOf hnested]
    at hdone
  rwa [ofTime_append entry _ [] rfl, List.append_nil]

lemma ends_classFile {nesting : Nat} {entry : Zip.Entry} (hkind : kind entry = .classFile) (label : String) :
    Ends nesting [.entry entry]
      ((classContents label entry).result.map (Contents.ofTime entry.time).append) := by
  have hnested : nestedItems? entry = none := by simp [nestedItems?, hkind]
  cases hcontent : entry.content with
  | none =>
      have hfails : fails nesting (.entry entry) = true := by simp [fails, hcontent, hkind]
      rw [classContents, hcontent]
      exact .failed (givesUp_singleton_of_fails hfails) (by simp [hfails]) ArchiveError.noConfusion
  | some bytes =>
      have hfails : fails nesting (.entry entry) = false := by simp [fails, hcontent]
      have hplain := ends_plain hfails (Or.inr hnested)
      simp only [classOf, hkind, if_true, hcontent, Option.bind_some] at hplain
      rw [classContents, hcontent]
      dsimp only
      cases hscan : ClassFile.scan bytes.toList with
      | ok scan =>
          rw [hscan] at hplain
          exact hplain
      | error error =>
          rw [hscan] at hplain
          exact hplain

/-- What becomes of the walk of a nested archive: a failure leaves nothing, unless the reader gave up. -/
def wholeOrNothing : Except ArchiveError Contents → Except ArchiveError Contents
  | .error .abandoned => .error .abandoned
  | .error _ => .ok Contents.empty
  | .ok contents => .ok contents

lemma result_nestedContents {walk : String → List Zip.Item → Traced Contents} (label : String)
    {entry : Zip.Entry} {bytes : ByteArray} {inside : List Zip.Item} (hcontent : entry.content = some bytes)
    (hread : Zip.read bytes = some inside) :
    (nestedContents walk label entry).result =
      wholeOrNothing (walk (label ++ "!/" ++ entry.name) inside).result := by
  rw [nestedContents, hcontent]
  simp only [hread]
  generalize walk (label ++ "!/" ++ entry.name) inside = inner
  obtain ⟨_, error | contents⟩ := inner
  · cases error <;> rfl
  · rfl

/-- **A nested archive ends with all that its items contribute, or with nothing.** -/
lemma ends_nested {deeper : Nat} {entry : Zip.Entry} {inside : List Zip.Item}
    (hnested : nestedItems? entry = some inside) (hfails : fails (deeper + 1) (.entry entry) = false)
    (hclass : classOf entry = []) {result : Except ArchiveError Contents} (h : Ends deeper inside result) :
    Ends (deeper + 1) [.entry entry]
      ((wholeOrNothing result).map (Contents.ofTime entry.time).append) := by
  have hgives : givesUp (deeper + 1) [.entry entry] = givesUp deeper inside := by
    simp [givesUp, givesUpOn, hfails, hnested]
  have hany : [Zip.Item.entry entry].any (fails (deeper + 1)) = false := by
    simpa using hfails
  have htimes := contribution_of_nested timeOf deeper hnested
  have hclasses := contribution_of_nested classOf deeper hnested
  rw [hclass, List.nil_append] at hclasses
  cases h with
  | abandoned hlocked => exact .abandoned (hgives.trans hlocked)
  | @failed error hopen hbroken herror =>
      have hnothing : wholeOrNothing (.error error) = .ok Contents.empty := by
        cases error with
        | abandoned => exact absurd rfl herror
        | _ => rfl
      have hcounted := Ends.counted (hgives.trans hopen) hany
      rw [gathered, htimes, hclasses, hbroken] at hcounted
      rw [hnothing]
      show Ends _ _ (.ok ((Contents.ofTime entry.time).append Contents.empty))
      rwa [ofTime_append entry Contents.empty [] rfl]
  | counted hopen hwhole =>
      have hcounted := Ends.counted (hgives.trans hopen) hany
      rw [gathered, htimes, hclasses, hwhole] at hcounted
      show Ends _ _ (.ok ((Contents.ofTime entry.time).append (gathered deeper inside)))
      rwa [ofTime_append entry (gathered deeper inside) _ rfl]

/-- The way in which nested archives are walked. -/
def deeper? : Nat → Option (String → List Zip.Item → Traced Contents)
  | 0 => none
  | nesting + 1 => some (walk nesting)

lemma walk_eq (nesting : Nat) (label : String) (items : List Zip.Item) :
    walk nesting label items = walkFrom (deeper? nesting) label 0 items := by
  cases nesting <;> rfl

lemma ends_archive {nesting : Nat} {entry : Zip.Entry} (hkind : kind entry = .archive) (label : String)
    (hinside : ∀ deeper, nesting = deeper + 1 → ∀ label items, Ends deeper items (walk deeper label items).result) :
    Ends nesting [.entry entry]
      ((entryContents (deeper? nesting) label entry).result.map (Contents.ofTime entry.time).append) := by
  have hclass : classOf entry = [] := by simp [classOf, hkind]
  rw [entryContents_eq, hkind]
  cases nesting with
  | zero =>
      have hfails : fails 0 (.entry entry) = false := by simp [fails, hkind]
      have hplain := ends_plain hfails (Or.inl rfl)
      rw [hclass] at hplain
      exact hplain
  | succ deeper =>
      show Ends _ _ ((nestedContents (walk deeper) label entry).result.map _)
      cases hcontent : entry.content with
      | none =>
          have hfails : fails (deeper + 1) (.entry entry) = true := by simp [fails, hcontent, hkind]
          rw [nestedContents, hcontent]
          exact .failed (givesUp_singleton_of_fails hfails) (by simp [hfails]) ArchiveError.noConfusion
      | some bytes =>
          have hfails : fails (deeper + 1) (.entry entry) = false := by simp [fails, hcontent]
          cases hread : Zip.read bytes with
          | none =>
              have hnested : nestedItems? entry = none := by simp [nestedItems?, hkind, hcontent, hread]
              have hplain := ends_plain hfails (Or.inr hnested)
              rw [hclass] at hplain
              rw [nestedContents, hcontent]
              simp only [hread]
              exact hplain
          | some inside =>
              have hnested : nestedItems? entry = some inside := by
                simp [nestedItems?, hkind, hcontent, hread]
              rw [result_nestedContents label hcontent hread]
              exact ends_nested hnested hfails hclass (hinside deeper rfl _ _)

lemma ends_entry {nesting : Nat} (entry : Zip.Entry) (label : String)
    (hinside : ∀ deeper, nesting = deeper + 1 → ∀ label items, Ends deeper items (walk deeper label items).result) :
    Ends nesting [.entry entry]
      ((entryContents (deeper? nesting) label entry).result.map (Contents.ofTime entry.time).append) := by
  cases hkind : kind entry with
  | archive => exact ends_archive hkind label hinside
  | classFile =>
      rw [entryContents_eq, hkind]
      exact ends_classFile hkind label
  | directory | other =>
      have hfails : fails nesting (.entry entry) = false := by simp [fails, hkind]
      have hnested : nestedItems? entry = none := by simp [nestedItems?, hkind]
      have hplain := ends_plain hfails (Or.inr hnested)
      have hclass : classOf entry = [] := by simp [classOf, hkind]
      rw [entryContents_eq, hkind]
      rw [hclass] at hplain
      exact hplain

/-- **A walk ends as its items say**, whatever the nesting. -/
lemma ends_walk (nesting : Nat) (label : String) (items : List Zip.Item) :
    Ends nesting items (walk nesting label items).result := by
  induction nesting using Nat.strong_induction_on generalizing label items with
  | _ nesting ih =>
      have hinside : ∀ deeper, nesting = deeper + 1 → ∀ label items,
          Ends deeper items (walk deeper label items).result := by
        intro deeper hdeeper
        exact ih deeper (by omega)
      rw [walk_eq]
      generalize 0 = index
      induction items generalizing index with
      | nil =>
          have hopen : givesUp nesting [] = false := by cases nesting <;> rfl
          have hempty : gathered nesting [] = Contents.empty := by cases nesting <;> rfl
          have hcounted := Ends.counted hopen rfl
          rw [hempty] at hcounted
          exact hcounted
      | cons item later ihlater =>
          cases item with
          | unreadable =>
              refine .failed ?_ rfl ArchiveError.noConfusion
              rw [givesUp_cons]
              rfl
          | locked =>
              refine .abandoned ?_
              cases nesting <;> rfl
          | entry entry =>
              rw [result_walkFrom_entry]
              exact (ends_entry entry label hinside).cons (ihlater (index + 1))

/-! ## Versions -/

lemma mem_insertVersion {version v : UInt16} {versions : List UInt16} :
    v ∈ Contents.insertVersion version versions ↔ v = version ∨ v ∈ versions := by
  induction versions with
  | nil => simp [Contents.insertVersion]
  | cons first rest ih =>
      rw [Contents.insertVersion]
      split_ifs with heq hlt
      · subst heq
        simp
      · simp
      · rw [List.mem_cons, ih, List.mem_cons]
        tauto

lemma pairwise_insertVersion (version : UInt16) {versions : List UInt16} (h : versions.Pairwise (· < ·)) :
    (Contents.insertVersion version versions).Pairwise (· < ·) := by
  induction versions with
  | nil => exact List.pairwise_singleton _ _
  | cons first rest ih =>
      have hrest := List.pairwise_cons.mp h
      rw [Contents.insertVersion]
      split_ifs with heq hlt
      · exact h
      · refine List.pairwise_cons.mpr ⟨?_, h⟩
        rw [List.forall_mem_cons]
        exact ⟨hlt, fun v hv => UInt16.lt_trans hlt (hrest.1 v hv)⟩
      · refine List.pairwise_cons.mpr ⟨?_, ih hrest.2⟩
        intro v hv
        rcases mem_insertVersion.mp hv with rfl | hv
        · exact UInt16.lt_of_le_of_ne (UInt16.not_lt.mp hlt) (Ne.symm heq)
        · exact hrest.1 v hv

/-- The versions of contents are those of their classes, in ascending order. -/
lemma versions_spec (contents : Contents) :
    contents.versions.Pairwise (· < ·) ∧
      ∀ v, v ∈ contents.versions ↔ ∃ scan ∈ contents.classes, scan.major = v := by
  have hfold : ∀ (classes : List ClassFile.Scan) (seen : List UInt16), seen.Pairwise (· < ·) →
      (classes.foldl (fun seen scan => Contents.insertVersion scan.major seen) seen).Pairwise (· < ·) ∧
      ∀ v, v ∈ classes.foldl (fun seen scan => Contents.insertVersion scan.major seen) seen ↔
        v ∈ seen ∨ ∃ scan ∈ classes, scan.major = v := by
    intro classes
    induction classes with
    | nil => exact fun seen hseen => ⟨hseen, by simp⟩
    | cons scan classes ih =>
        intro seen hseen
        obtain ⟨hpairwise, hmem⟩ := ih _ (pairwise_insertVersion scan.major hseen)
        refine ⟨hpairwise, fun v => ?_⟩
        rw [List.foldl_cons, hmem, mem_insertVersion]
        simp only [List.mem_cons, exists_eq_or_imp, @eq_comm _ v]
        tauto
  obtain ⟨hpairwise, hmem⟩ := hfold contents.classes [] List.Pairwise.nil
  refine ⟨hpairwise, fun v => (hmem v).trans ?_⟩
  simp

/-! ## Reading an archive -/

/-- The record of an archive with some contents. -/
def recordOf (path : String) (bytes : ByteArray) (modified : Int) (contents : Contents) : ArchiveRecord where
  path := path
  sha1 := Digest.Sha1.ofBytes bytes
  lastModified := modified
  internalTimestamp := contents.newest
  size := bytes.size
  classCount := contents.classes.length
  bytecodeVersions := contents.versions

lemma result_read {tree : FileTree} {path : String} {bytes : ByteArray} {modified : Int}
    (hfile : tree.find path = .ok (.file bytes modified)) :
    (read tree path).result =
      match Zip.read bytes with
      | none => .error (.damagedStructure path)
      | some items => (walk maxNesting path items).result.map fun contents =>
        (recordOf path bytes modified contents, contents.classes) := by
  rw [read, hfile]
  dsimp only
  cases Zip.read bytes with
  | none => rfl
  | some items =>
      simp only [bind, pure]
      generalize walk maxNesting path items = inner
      obtain ⟨_, _ | _⟩ := inner <;> rfl

/-- What the record of an archive says of its items. -/
structure Records (items : List Zip.Item) (record : ArchiveRecord) : Prop where
  newest : record.internalTimestamp = newest (contribution timeOf maxNesting items)
  count : record.classCount = (contribution classOf maxNesting items).length
  ascending : record.bytecodeVersions.Pairwise (· < ·)
  versions : ∀ v, v ∈ record.bytecodeVersions ↔
    ∃ scan ∈ contribution classOf maxNesting items, scan.major = v

/-- **Nested archives count as a whole or not at all.**  For every file that is read as an archive

* the reader gives up exactly when it comes upon a locked entry, at any level;
* else reading fails exactly when the structure of the file cannot be read or one of its own items fails;
* and otherwise it yields the classes that the items contribute, in order, and a record with their number,
  their versions and the newest time of an entry that counts. -/
theorem archive_counted_whole {tree : FileTree} {path : String} {bytes : ByteArray} {modified : Int}
    (hfile : tree.find path = .ok (.file bytes modified)) :
    ((read tree path).result = .error .abandoned ↔
      ∃ items, Zip.read bytes = some items ∧ givesUp maxNesting items = true) ∧
    ((∃ error ≠ .abandoned, (read tree path).result = .error error) ↔
      Zip.read bytes = none ∨ ∃ items, Zip.read bytes = some items ∧
        givesUp maxNesting items = false ∧ ∃ item ∈ items, fails maxNesting item = true) ∧
    ∀ items, Zip.read bytes = some items → givesUp maxNesting items = false →
      (∀ item ∈ items, fails maxNesting item = false) →
      ∃ record, (read tree path).result = .ok (record, contribution classOf maxNesting items) ∧
        Records items record := by
  rw [result_read hfile]
  cases hzip : Zip.read bytes with
  | none => simp
  | some items =>
      simp only [Option.some.injEq, exists_eq_left', forall_eq', reduceCtorEq, false_or]
      have hends := ends_walk maxNesting path items
      generalize (walk maxNesting path items).result = result at hends ⊢
      cases hends with
      | abandoned hlocked => simp [Except.map, hlocked]
      | failed hopen hfails herror =>
          have hitem : ∃ item ∈ items, fails maxNesting item = true := by simpa using hfails
          refine ⟨?_, ?_, ?_⟩
          · simp [Except.map, hopen, herror]
          · simp [Except.map, hopen, hitem, herror]
          · intro _ hnone
            obtain ⟨item, hmem, hfail⟩ := hitem
            rw [hnone item hmem] at hfail
            cases hfail
      | counted hopen hfails =>
          have hnone : ∀ item ∈ items, fails maxNesting item = false := by simpa using hfails
          refine ⟨?_, ?_, ?_⟩
          · simp [Except.map, hopen]
          · simpa [Except.map, hopen] using hnone
          · intro _ _
            obtain ⟨hascending, hversions⟩ := versions_spec (gathered maxNesting items)
            exact ⟨_, rfl, rfl, rfl, hascending, hversions⟩

/-! An archive with a class and with a file that is an archive only by its name, both stored as they are. -/

def littleEndian (width value : Nat) : List UInt8 :=
  (List.range width).map fun i => UInt8.ofNat (value >>> (8 * i))

/-- The part that the header of a member and its header in the directory have in common. -/
def sampleDetails (name : String) (content : List UInt8) (crc : Nat) : List UInt8 :=
  littleEndian 6 0 ++ littleEndian 2 0x21 ++ littleEndian 4 crc ++ littleEndian 4 content.length ++
    littleEndian 4 content.length ++ littleEndian 2 name.length ++ littleEndian 2 0

def sampleMember (name : String) (content : List UInt8) (crc : Nat) : List UInt8 :=
  littleEndian 4 0x04034b50 ++ littleEndian 2 20 ++ sampleDetails name content crc ++
    name.toList.map (fun c => UInt8.ofNat c.toNat) ++ content

def sampleHeader (offset : Nat) (name : String) (content : List UInt8) (crc : Nat) : List UInt8 :=
  littleEndian 4 0x02014b50 ++ littleEndian 4 20 ++ sampleDetails name content crc ++ littleEndian 10 0 ++
    littleEndian 4 offset ++ name.toList.map (fun c => UInt8.ofNat c.toNat)

/-- The class `A`, of version 52, which mentions nothing. -/
def sampleClass : List UInt8 :=
  [0xCA, 0xFE, 0xBA, 0xBE, 0, 0, 0, 52, 0, 3, 1, 0, 1, 65, 7, 0, 1, 0, 0x21, 0, 2, 0, 0, 0, 0, 0, 0, 0, 0, 0, 0]

def sampleArchive : ByteArray :=
  ⟨(sampleMember "A.class" sampleClass 0x52CE0261 ++ sampleMember "b.jar" [] 0 ++
    sampleHeader 0 "A.class" sampleClass 0x52CE0261 ++ sampleHeader 68 "b.jar" [] 0 ++
    littleEndian 4 0x06054b50 ++ littleEndian 4 0 ++ littleEndian 2 2 ++ littleEndian 2 2 ++
    littleEndian 4 104 ++ littleEndian 4 103 ++ littleEndian 2 0).toArray⟩

def sampleTree : FileTree :=
  ⟨[], [(["app.jar"], .file sampleArchive 7)]⟩

lemma sampleArchive_counts :
    (Zip.read sampleArchive).map (fun items =>
      (givesUp maxNesting items, items.any (fails maxNesting), contribution classOf maxNesting items)) =
      some (false, false, [⟨"A", 52, []⟩]) := by
  decide +kernel

theorem archive_counted_whole_sample :
    sampleTree.find "/app.jar" = .ok (.file sampleArchive 7) ∧
    ∃ items record, Zip.read sampleArchive = some items ∧
      (read sampleTree "/app.jar").result = .ok (record, [⟨"A", 52, []⟩]) ∧ record.classCount = 1 ∧
      Records items record := by
  have hfile : sampleTree.find "/app.jar" = .ok (.file sampleArchive 7) := rfl
  obtain ⟨items, hitems, hcounts⟩ := Option.map_eq_some_iff.mp sampleArchive_counts
  obtain ⟨hopen, hfails, hclasses⟩ := Prod.mk.inj hcounts |>.imp_right Prod.mk.inj
  have hnone : ∀ item ∈ items, fails maxNesting item = false := by simpa using hfails
  obtain ⟨record, hread, hrecord⟩ := (archive_counted_whole hfile).2.2 items hitems hopen hnone
  have hcount := hrecord.count
  rw [hclasses] at hread hcount
  exact ⟨hfile, items, record, hitems, hread, hcount, hrecord⟩

end JarSurvey.Archive
