import JarSurvey.Proofs.Descriptor.Exactness
import JarSurvey.Proofs.Descriptor.Following

/-!
# Every text is read to an answer, at boundaries

The bytewise readers follow the readers of characters, grammar by grammar up to whole texts.

* `follows_fieldType`, `follows_reference` — types, by induction on the number of characters left: each level takes one,
  so neither of the two bounds on the nesting is reached;
* `follows_markedToEnd` — the interfaces of a class signature are read up to the end of the text, where the reader of
  characters stops at the first character that is no mark and fails later, because of what is left;
* **`bytewise_answers_at_boundaries`** — for every text, reading its bytes neither crashes nor reaches a bound, the
  answer is the same, and a failure lies at a boundary between characters.
-/

namespace JarSurvey.Descriptor

open Text.Utf8 (encode)

namespace Bytewise

variable {text : String} {n : Nat}

/-! ## Descriptors -/

section BaseLetters

variable {first : UInt8} {d : Char}

lemma isAscii_of_isBase (h : isBase d = true) : IsAscii d := by
  have hletters : AllAscii "BCDFIJSZ".toList := by decide
  exact hletters d (List.contains_iff_mem.mp h)

lemma isBaseByte_iff (hfirst : Begins first d) : isBaseByte first = true ↔ isBase d = true := by
  have hletters : AllAscii "BCDFIJSZ".toList := by decide
  rw [isBaseByte, isBase, List.contains_iff_mem, List.contains_iff_mem, hfirst.mem_map_ascii_iff hletters]

lemma letter_first (hfirst : Begins first d) (h : IsAscii d) : letter first = d := by
  have hnat : (ascii d).toNat = d.toNat := UInt8.toNat_ofNat_of_lt' (Nat.lt_trans h (by decide))
  rw [(hfirst.eq_ascii_iff d h).mpr rfl, letter, hnat, Char.ofNat_toNat]

end BaseLetters

lemma follows_fieldType (n depth depth' : Nat) (hdepth : n ≤ depth) (hdepth' : n ≤ depth') :
    Follows text n (fieldType text depth) (Scan.fieldType depth') := by
  induction n generalizing depth depth' with
  | zero => exact follows_of_eq_zero rfl
  | succ n ih =>
      obtain ⟨depth, rfl⟩ := Nat.exists_eq_add_of_le' (Nat.one_le_of_lt hdepth)
      obtain ⟨depth', rfl⟩ := Nat.exists_eq_add_of_le' (Nat.one_le_of_lt hdepth')
      refine follows_bump rfl ?_
      intro offset d rest h hlt first hfirst
      simp only [isBaseByte_iff hfirst, hfirst.eq_ascii_iff 'L' (by decide), hfirst.eq_ascii_iff '[' (by decide)]
      by_cases hobject : d = 'L'
      · subst hobject
        rw [if_neg (by decide), if_pos rfl]
        exact (follows_enclosedName FieldType.object).after h (by decide) (Nat.lt_of_succ_lt_succ hlt)
      by_cases harray : d = '['
      · subst harray
        rw [if_neg (by decide), if_neg (by decide), if_pos rfl]
        have helement := (ih depth depth' (by omega) (by omega)).bind_pure FieldType.array
        exact helement.after h (by decide) (Nat.lt_of_succ_lt_succ hlt)
      have hscan : Scan.fieldType (depth' + 1) (d :: rest) =
          if isBase d then .ok (.base d, rest) else .error (d :: rest) := by
        simp only [Scan.fieldType]
      rw [hscan, if_neg hobject, if_neg harray]
      split_ifs with hbase
      · rw [letter_first hfirst (isAscii_of_isBase hbase)]
        exact .value (h.step (isAscii_of_isBase hbase)) (Nat.le_succ _)
      · rw [stepBack_fail]
        exact .failure h le_rfl

lemma follows_methodDescriptor {depth : Nat} (hbound : n ≤ bound text) (hdepth : n ≤ depth) :
    Follows text n (methodDescriptor text) (Scan.methodDescriptor depth) := by
  have htype : Follows text n _ _ := follows_fieldType n _ depth hbound hdepth
  have hshrinks : Shrinks n (Scan.fieldType depth) :=
    shrinks_of_head ((Scan.reads_fieldType depth).mono hdepth) fun _ _ h => Scan.exists_head_fieldType h (Or.inl rfl)
  exact (follows_expect (by decide)).bind fun _ => (follows_items (by decide) htype hshrinks).bind fun parameters =>
    (follows_result htype).bind_pure fun result => MethodDescriptor.mk parameters result

/-! ## Types of signatures -/

section References

variable {walk : Bytewise TypeSignature} {scan : Scan TypeSignature}

lemma shrinks_reference (h : Scan.ReadsReferences n scan) : Shrinks n scan :=
  shrinks_of_head h fun _ _ hfits => Scan.exists_head_reference hfits.1

lemma follows_javaType (h : Follows text n walk scan) (hreads : Scan.ReadsReferences n scan) :
    Follows text n (javaType text walk) (Scan.javaType scan) := by
  refine follows_peek ?_ ?_
  · intro offset hstands hn
    have hend := h offset [] hstands hn
    rwa [h.scan_nil (shrinks_reference hreads) hn] at hend
  · intro offset d rest hstands hlt first hfirst
    simp only [Scan.javaType, isBaseByte_iff hfirst]
    split_ifs with hbase
    · rw [letter_first hfirst (isAscii_of_isBase hbase)]
      exact .value (hstands.step (isAscii_of_isBase hbase)) (Nat.le_succ _)
    · exact h offset _ hstands hlt

lemma follows_typeArgument (h : Follows text n walk scan) (hreads : Scan.ReadsReferences n scan) :
    Follows text n (typeArgument text walk) (Scan.typeArgument scan) := by
  refine follows_peek ?_ ?_
  · intro offset hstands hn
    change Agree text 0 _ (scan [] >>= fun x => pure (TypeArgument.exactly x.1, x.2))
    rw [h.scan_nil (shrinks_reference hreads) hn]
    exact .failure hstands le_rfl
  · intro offset d rest hstands hlt first hfirst
    simp only [hfirst.eq_ascii_iff '*' (by decide), hfirst.eq_ascii_iff '+' (by decide),
      hfirst.eq_ascii_iff '-' (by decide)]
    split_ifs with hwildcard hupper hlower
    · subst hwildcard
      exact .value (hstands.step (by decide)) (Nat.le_succ _)
    · subst hupper
      exact (h.bind_pure TypeArgument.upperBound).after hstands (by decide) (Nat.lt_of_succ_lt hlt)
    · subst hlower
      exact (h.bind_pure TypeArgument.lowerBound).after hstands (by decide) (Nat.lt_of_succ_lt hlt)
    · have hscan : Scan.typeArgument scan (d :: rest) = scan (d :: rest) >>= fun x => pure (.exactly x.1, x.2) := by
        simp [Scan.typeArgument, hwildcard, hupper, hlower]
      rw [hscan]
      exact h.bind_pure TypeArgument.exactly offset _ hstands hlt

lemma follows_classSegment (h : Follows text n walk scan) (hreads : Scan.ReadsReferences n scan) :
    Follows text n (classSegment text walk) (Scan.classSegment scan) := by
  have hshrinks : Shrinks n (Scan.typeArgument scan) :=
    shrinks_of_head (Scan.reads_typeArgument hreads) fun _ _ => Scan.exists_head_typeArgument
  exact (follows_name (by decide)).bind fun s =>
    (follows_bracketed (follows_typeArgument h hreads) hshrinks).bind_pure fun arguments => (s, arguments)

lemma follows_classBody (h : Follows text n walk scan) (hreads : Scan.ReadsReferences n scan) :
    Follows text n (classBody text walk) (Scan.classBody scan) := by
  have hsegment := follows_classSegment h hreads
  have hinner : Follows text n (innerClass text walk) (Scan.innerClass scan) :=
    hsegment.bind_pure fun segment => InnerClass.mk segment.1 segment.2
  exact hsegment.bind fun segment => (follows_marked (by decide) hinner).bind fun inner =>
    (follows_expect (by decide)).bind_pure fun _ => ClassType.mk segment.1 segment.2 inner

end References

lemma follows_reference (n depth depth' : Nat) (hdepth : n ≤ depth) (hdepth' : n ≤ depth') :
    Follows text n (reference text depth) (Scan.reference depth') := by
  induction n generalizing depth depth' with
  | zero => exact follows_of_eq_zero rfl
  | succ n ih =>
      obtain ⟨depth, rfl⟩ := Nat.exists_eq_add_of_le' (Nat.one_le_of_lt hdepth)
      obtain ⟨depth', rfl⟩ := Nat.exists_eq_add_of_le' (Nat.one_le_of_lt hdepth')
      have hinner := ih depth depth' (by omega) (by omega)
      have hreads : Scan.ReadsReferences n (Scan.reference depth') := (Scan.reads_reference depth').mono (by omega)
      refine follows_bump rfl ?_
      intro offset d rest h hlt first hfirst
      have hrest : rest.length < n := Nat.lt_of_succ_lt_succ hlt
      simp only [hfirst.eq_ascii_iff 'L' (by decide), hfirst.eq_ascii_iff 'T' (by decide),
        hfirst.eq_ascii_iff '[' (by decide)]
      split_ifs with hclass hvariable harray
      · subst hclass
        exact ((follows_classBody hinner hreads).bind_pure TypeSignature.classType).after h (by decide) hrest
      · subst hvariable
        exact (follows_enclosedName TypeSignature.typeVariable).after h (by decide) hrest
      · subst harray
        exact ((follows_javaType hinner hreads).bind_pure TypeSignature.array).after h (by decide) hrest
      · have hscan : Scan.reference (depth' + 1) (d :: rest) = .error (d :: rest) := by
          simp [Scan.reference, hclass, hvariable, harray]
        rw [hscan, stepBack_fail]
        exact .failure h le_rfl

/-! ## Declarations -/

section Declarations

variable {walk : Bytewise TypeSignature} {scan : Scan TypeSignature}

lemma follows_classBound (h : Follows text n walk scan) :
    Follows text n (classBound text walk) (Scan.classBound scan) := by
  refine follows_peek (fun offset hstands _ => .value hstands le_rfl) ?_
  intro offset d rest hstands hlt first hfirst
  simp only [Scan.classBound, hfirst.eq_ascii_iff 'L' (by decide), hfirst.eq_ascii_iff 'T' (by decide),
    hfirst.eq_ascii_iff '[' (by decide)]
  split_ifs
  · exact h.bind_pure some offset _ hstands hlt
  · exact .value hstands le_rfl

lemma follows_thrown (h : Follows text n walk scan) : Follows text n (thrown text walk) (Scan.thrown scan) := by
  refine follows_peek (fun offset hstands _ => .failure hstands le_rfl) ?_
  intro offset d rest hstands hlt first hfirst
  simp only [Scan.thrown, hfirst.eq_ascii_iff 'L' (by decide), hfirst.eq_ascii_iff 'T' (by decide)]
  split_ifs
  · exact h offset _ hstands hlt
  · exact .failure hstands le_rfl

lemma follows_typeParameter (h : Follows text n walk scan) :
    Follows text n (typeParameter text walk) (Scan.typeParameter scan) :=
  (follows_name (by decide)).bind fun s => (follows_expect (by decide)).bind fun _ =>
    (follows_classBound h).bind fun bound => (follows_marked (by decide) h).bind_pure fun interfaces =>
      TypeParameter.mk s bound interfaces

variable {depth : Nat}

lemma follows_typeParameters (hbound : n ≤ bound text) (hdepth : n ≤ depth) :
    Follows text n (typeParameters text) (Scan.bracketed (Scan.typeParameter (Scan.reference depth))) := by
  have hreads : Scan.ReadsReferences n (Scan.reference depth) := (Scan.reads_reference depth).mono hdepth
  have hshrinks : Shrinks n (Scan.typeParameter (Scan.reference depth)) :=
    shrinks_of_reads (Scan.reads_typeParameter hreads) fun parameter _ _ => by simp [TypeParameter.spelling]
  exact follows_bracketed (follows_typeParameter (follows_reference n _ depth hbound hdepth)) hshrinks

lemma follows_methodSignature (hbound : n ≤ bound text) (hdepth : n ≤ depth) :
    Follows text n (methodSignature text) (Scan.methodSignature depth) := by
  have hreads : Scan.ReadsReferences n (Scan.reference depth) := (Scan.reads_reference depth).mono hdepth
  have href : Follows text n _ _ := follows_reference n _ depth hbound hdepth
  have htype := follows_javaType href hreads
  have hshrinks : Shrinks n (Scan.javaType (Scan.reference depth)) :=
    shrinks_of_head (Scan.reads_javaType hreads) fun _ _ h => Scan.exists_head_javaType h (Or.inl rfl)
  exact (follows_typeParameters hbound hdepth).bind fun typeParameters => (follows_expect (by decide)).bind fun _ =>
    (follows_items (by decide) htype hshrinks).bind fun parameters => (follows_result htype).bind fun result =>
      (follows_marked (by decide) (follows_thrown href)).bind_pure fun throws =>
        MethodSignature.mk typeParameters parameters result throws

end Declarations

end Bytewise

/-! ## Up to the end of the text -/

namespace Scan

variable {α β : Type}

/-- The reader, where nothing may follow. -/
def ended (scan : Scan α) : Scan α := fun text =>
  scan text >>= fun x => if x.2 = [] then .ok x else .error x.2

lemma ended_bind (scan : Scan α) (later : α → Scan β) :
    ended (fun text => scan text >>= fun x => later x.1 x.2) =
      fun text => scan text >>= fun x => ended (later x.1) x.2 := by
  funext text
  rw [ended, bind_assoc]
  rfl

lemma ended_bind_pure (scan : Scan α) (f : α → β) :
    ended (fun text => scan text >>= fun x => pure (f x.1, x.2)) =
      fun text => ended scan text >>= fun x => pure (f x.1, x.2) := by
  funext text
  simp only [ended, bind_assoc, pure_bind]
  congr 1
  funext x
  split_ifs <;> rfl

/-- Where nothing may follow, a character that is no mark is a failure right there. -/
lemma ended_markedUpTo_cons (mark : Char) (scan : Scan α) (turns : Nat) (d : Char) (rest : List Char) :
    ended (markedUpTo mark scan (turns + 1)) (d :: rest) = expect mark (d :: rest) >>= fun x =>
      scan x.2 >>= fun y => ended (markedUpTo mark scan turns) y.2 >>= fun z => pure (y.1 :: z.1, z.2) := by
  by_cases h : d = mark
  · have hitem : ended (markedUpTo mark scan (turns + 1)) (d :: rest) = ended (fun text => scan text >>= fun y =>
        markedUpTo mark scan turns y.2 >>= fun z => pure (y.1 :: z.1, z.2)) rest := by
      rw [ended, ended, markedUpTo, if_pos h]
    rw [hitem, expect, if_pos h, ended_bind scan fun y rest => markedUpTo mark scan turns rest >>= fun z =>
      pure (y :: z.1, z.2)]
    simp only [ended_bind_pure]
    rfl
  · rw [ended, markedUpTo, if_neg h, expect, if_neg h]
    rfl

end Scan

section Ended

variable {α β : Type} {text : String} {n : Nat} {reader : Bytewise α} {scan : Scan α}

/-- Of readers in a row, only the last one has to see to the end. -/
lemma Follows.bind_ended (h : Follows text n reader scan) {next : α → Bytewise β} {later : α → Scan β}
    (hnext : ∀ a, Follows text n (next a) (Scan.ended (later a))) :
    Follows text n (reader >>= next) (Scan.ended fun rest => scan rest >>= fun x => later x.1 x.2) := by
  rw [Scan.ended_bind]
  exact h.bind hnext

lemma Follows.ended_bind_pure (h : Follows text n reader (Scan.ended scan)) (f : α → β) :
    Follows text n (reader >>= fun a => pure (f a))
      (Scan.ended fun rest => scan rest >>= fun x => pure (f x.1, x.2)) := by
  rw [Scan.ended_bind_pure]
  exact h.bind_pure f

lemma Follows.finish (h : Follows text n reader scan) :
    Follows text n (reader >>= fun value => Bytewise.finish text >>= fun _ => pure value) (Scan.ended scan) := by
  have hend : ∀ value : α, Follows text n (Bytewise.finish text >>= fun _ => pure value) fun rest =>
      if rest = [] then .ok (value, rest) else .error rest := by
    intro value
    rw [Bytewise.finish, bind_assoc]
    refine Bytewise.follows_peek (fun offset hstands _ => .value hstands le_rfl) ?_
    intro offset d rest hstands _ first _
    exact .failure hstands le_rfl
  exact h.bind hend

end Ended

namespace Bytewise

variable {α : Type} {text : String} {n : Nat}

/-- Items up to the end of the text are those with a mark, where nothing may follow them. -/
lemma follows_markedToEnd {mark : Char} (hmark : IsAscii mark) {item : Bytewise α} {scan : Scan α}
    (hitem : Follows text n item scan) (turns turns' : Nat) :
    Follows text (min n (min turns turns')) (markedToEnd text mark item turns)
      (Scan.ended (Scan.markedUpTo mark scan turns')) := by
  induction turns generalizing turns' with
  | zero => exact follows_of_eq_zero (by omega)
  | succ turns ih =>
      cases turns' with
      | zero => exact follows_of_eq_zero (by omega)
      | succ turns' =>
          have hmarks : Shrinks (min n (min (turns + 1) (turns' + 1))) (Scan.expect mark) :=
            shrinks_of_reads (Scan.reads_expect mark) (by simp)
          have hturn := (follows_expect hmark).bind_of_shrinks hmarks (m := min n (min turns turns')) (by omega)
            fun _ => (hitem.mono (Nat.min_le_left _ _)).bind fun x => (ih turns').bind_pure (x :: ·)
          refine follows_peek (fun offset hstands _ => .value hstands le_rfl) ?_
          intro offset d rest hstands hlt first _
          rw [Scan.ended_markedUpTo_cons]
          exact hturn offset _ hstands hlt

lemma follows_classSignature {depth : Nat} (hbound : n ≤ bound text) (hdepth : n ≤ depth) :
    Follows text n (classSignature text) (Scan.ended (Scan.classSignature depth)) := by
  have hreads : Scan.ReadsReferences n (Scan.reference depth) := (Scan.reads_reference depth).mono hdepth
  have hclass : Follows text n _ _ := follows_classBody (follows_reference n _ depth hbound hdepth) hreads
  have hinterfaces : Follows text n (markedToEnd text 'L' (classBody text (reference text (bound text))) (bound text))
      (Scan.ended (Scan.marked 'L' (Scan.classBody (Scan.reference depth)))) := by
    intro offset rest h hlt
    have hlength := h.length_lt_bound
    exact follows_markedToEnd (by decide) hclass _ _ offset rest h (by omega)
  exact (follows_typeParameters hbound hdepth).bind_ended fun typeParameters =>
    (follows_expect (by decide)).bind_ended fun _ => hclass.bind_ended fun superclass =>
      hinterfaces.ended_bind_pure fun interfaces => ClassSignature.mk typeParameters superclass interfaces

end Bytewise

/-! ## Whole texts -/

/-- **Reading the bytes settles the answer**: there is neither a crash nor a bound that was reached.  A failure names
the text, with an offset that lies in it, at a boundary between characters. -/
def Settles {α : Type} (text : String) (grammar : Grammar) (run : Except Halt α) (answer : Except Malformed α) : Prop :=
  (∃ value, run = .ok value ∧ answer = .ok value) ∨
    ∃ offset, run = .error (.malformed offset) ∧ answer = .error ⟨grammar, text, offset⟩ ∧
      offset ≤ text.utf8ByteSize ∧ IsBoundary text offset

section WholeTexts

variable {α : Type} {text : String} {grammar : Grammar}

lemma Settles.map {β : Type} {run : Except Halt α} {answer : Except Malformed α}
    (h : Settles text grammar run answer) (f : α → β) : Settles text grammar (run.map f) (answer.map f) := by
  rcases h with ⟨value, rfl, rfl⟩ | ⟨offset, rfl, rfl, hoffset⟩
  · exact .inl ⟨f value, rfl, rfl⟩
  · exact .inr ⟨offset, rfl, rfl, hoffset⟩

lemma readWhole_eq_ended (grammar : Grammar) (scan : Nat → Scan α) (text : String) :
    readWhole grammar scan text = ((Scan.ended (scan (text.toList.length + 1)) text.toList).mapError fun rest =>
      Malformed.mk grammar text (byteLength text.toList - byteLength rest)).map Prod.fst := by
  rw [readWhole, Scan.ended]
  dsimp only
  rcases scan (text.toList.length + 1) text.toList with rest | ⟨value, _ | ⟨c, rest⟩⟩ <;> rfl

lemma settles_of_follows {reader : Bytewise α} {scan : Nat → Scan α}
    (h : Follows text (text.toList.length + 1) reader (Scan.ended (scan (text.toList.length + 1)))) :
    Settles text grammar (Bytewise.fromStart reader) (readWhole grammar scan text) := by
  have hagree := h 0 text.toList (.start text) (Nat.lt_succ_self _)
  rw [readWhole_eq_ended, Bytewise.fromStart]
  generalize reader 0 = x, Scan.ended (scan (text.toList.length + 1)) text.toList = y at hagree
  cases hagree with
  | value _ _ => exact .inl ⟨_, rfl, rfl⟩
  | failure hstands _ =>
      have hoffset := hstands.offset_eq
      refine .inr ⟨_, rfl, ?_, hstands.isBoundary.le_rawEndPos, hstands.isBoundary⟩
      rw [hoffset]
      rfl

lemma settles_whole {reader : Bytewise α} {scan : Nat → Scan α}
    (h : ∀ n depth, n ≤ Bytewise.bound text → n ≤ depth → Follows text n reader (scan depth)) :
    Settles text grammar (Bytewise.whole text reader) (readWhole grammar scan text) :=
  settles_of_follows (h _ _ (Stands.start text).length_lt_bound le_rfl).finish

lemma settles_fieldDescriptor (text : String) :
    Settles text .fieldDescriptor (Bytewise.whole text (Bytewise.fieldType text (Bytewise.bound text)))
      (fieldDescriptor text) :=
  settles_whole fun n depth => Bytewise.follows_fieldType n _ depth

lemma settles_classConstantNames (text : String) :
    Settles text (if text = "" then .className else .fieldDescriptor) (Bytewise.classConstantNames text)
      (classConstantNames text) := by
  rw [Bytewise.classConstantNames, classConstantNames]
  cases htext : text.toList with
  | nil =>
      obtain rfl : text = "" := String.toList_eq_nil_iff.mp htext
      exact .inr ⟨0, rfl, rfl, le_rfl, (Stands.start "").isBoundary⟩
  | cons d rest =>
      have hne : text ≠ "" := by
        rintro rfl
        cases htext
      obtain ⟨first, hfirst, hpeek⟩ := (htext ▸ Stands.start text : Stands text 0 (d :: rest)).exists_first
      have hbytes : (encode text).isEmpty = false := by
        cases hencode : encode text with
        | nil => simp [hencode] at hpeek
        | cons byte bytes => rfl
      rw [if_neg hne, hpeek, hbytes]
      simp only [Option.some.injEq, hfirst.eq_ascii_iff '[' (by decide)]
      by_cases harray : d = '['
      · subst harray
        rw [if_pos rfl]
        exact (settles_fieldDescriptor text).map FieldType.names
      · rw [if_neg harray]
        refine .inl ⟨[dotted text], rfl, ?_⟩
        split
        · simp_all
        · simp_all
        · rfl

end WholeTexts

/-- **Every text is read to an answer, at boundaries.**  For each of the grammars, whatever the text: a cursor that
moves byte by byte never crashes, that is, it never cuts a name out of the text inside of a character and never steps
back from the start.  Nor does it reach a bound.  Its answer is that of the reader of characters, and a failure names
the text that was given and an offset between zero and its size in bytes, at a boundary between characters. -/
theorem bytewise_answers_at_boundaries (text : String) :
    Settles text .fieldDescriptor (Bytewise.whole text (Bytewise.fieldType text (Bytewise.bound text)))
      (fieldDescriptor text) ∧
    Settles text .methodDescriptor (Bytewise.whole text (Bytewise.methodDescriptor text)) (methodDescriptor text) ∧
    Settles text .fieldDescriptor
      (if text = "V" then .ok none
        else (Bytewise.whole text (Bytewise.fieldType text (Bytewise.bound text))).map some)
      (returnDescriptor text) ∧
    Settles text .classSignature (Bytewise.fromStart (Bytewise.classSignature text)) (classSignature text) ∧
    Settles text .methodSignature (Bytewise.whole text (Bytewise.methodSignature text)) (methodSignature text) ∧
    Settles text .fieldSignature (Bytewise.whole text (Bytewise.reference text (Bytewise.bound text)))
      (fieldSignature text) ∧
    Settles text (if text = "" then .className else .fieldDescriptor) (Bytewise.classConstantNames text)
      (classConstantNames text) := by
  refine ⟨settles_fieldDescriptor text, ?_, ?_, ?_, ?_, ?_, settles_classConstantNames text⟩
  · exact settles_whole fun _ _ => Bytewise.follows_methodDescriptor
  · rw [returnDescriptor]
    split_ifs
    · exact .inl ⟨none, rfl, rfl⟩
    · exact (settles_fieldDescriptor text).map some
  · exact settles_of_follows (Bytewise.follows_classSignature (Stands.start text).length_lt_bound le_rfl)
  · exact settles_whole fun _ _ => Bytewise.follows_methodSignature
  · exact settles_whole fun n depth => Bytewise.follows_reference n _ depth

end JarSurvey.Descriptor
