import JarSurvey.Proofs.Descriptor.Reading

/-!
# Descriptors and signatures are read exactly

Each reader of types reads the spelling of a well-formed tree and nothing else, part by part up to whole texts.

* `reads_fieldType`, `reads_reference` — types, by induction on the bound of their nesting: each level has a
  character of its own, so the texts inside are shorter;
* `reads_classBody` — a class without arguments has to end at a dot or a semicolon (`EndsAt`), and inside a class
  type it always does;
* `reads_typeParameters` — parameters in a row (`followed_typeParameters`);
* **`accepts_exactly_grammar`** — the six readers of whole texts.
-/

namespace JarSurvey.Descriptor

namespace Scan

variable {α : Type} {n : Nat}

/-! ## Descriptors -/

lemma isBase_iff {letter : Char} : isBase letter = true ↔ IsBaseLetter letter :=
  List.contains_iff_mem

/-- No other character that a type begins with, and none that ends a list, is a base letter. -/
lemma not_isBaseLetter {c : Char} (h : c ∈ "LT[V)".toList) : ¬ IsBaseLetter c := by
  rw [← isBase_iff]
  simp only [String.reduceToList, List.mem_cons, List.not_mem_nil, or_false] at h
  rcases h with rfl | rfl | rfl | rfl | rfl <;> decide

lemma reads_enclosedName (f : String → α) :
    Reads n (fun text => name [';'] text >>= fun x => expect ';' x.2 >>= fun y => pure (f x.1, y.2))
      fun text a rest => ∃ s, text = s.toList ++ ';' :: rest ∧ IsName [';'] s ∧ a = f s := by
  refine ((reads_name [';']).bind fun s => (reads_expect ';').bind fun _ => reads_pure (f s)).congr ?_
  intro text a rest
  simp only [Spelled]
  constructor
  · rintro ⟨s, _, ⟨rfl, hname, -⟩, _, _, ⟨rfl, -⟩, rfl, rfl⟩
    exact ⟨s, rfl, hname, rfl⟩
  · rintro ⟨s, rfl, hname, rfl⟩
    exact ⟨s, _, ⟨rfl, hname, ';', by simp⟩, (), rest, ⟨rfl, trivial⟩, rfl, rfl⟩

/-- **An erased type is read from its spelling.** -/
lemma reads_fieldType (n : Nat) :
    Reads n (fieldType n) (Spelled FieldType.spelling fun type _ => type.WellFormed) := by
  induction n with
  | zero =>
      intro text hlen
      simp at hlen
  | succ n ih =>
      rintro (_ | ⟨c, text⟩) hlen type rest
      · cases type <;> simp [fieldType, Spelled, FieldType.spelling]
      rw [List.length_cons] at hlen
      by_cases hobject : c = 'L'
      · subst hobject
        have hletter : ¬ IsBaseLetter 'L' := not_isBaseLetter (by simp)
        refine (reads_enclosedName (n := n) FieldType.object text (by omega) type rest).trans ?_
        cases type <;> grind [Spelled, FieldType.spelling, FieldType.WellFormed]
      by_cases harray : c = '['
      · subst harray
        have hletter : ¬ IsBaseLetter '[' := not_isBaseLetter (by simp)
        refine ((ih.bind fun element => reads_pure (.array element)) text (by omega) type rest).trans ?_
        cases type <;> grind [Spelled, FieldType.spelling, FieldType.WellFormed]
      have hread : fieldType (n + 1) (c :: text) =
          if isBase c then .ok (.base c, text) else .error (c :: text) := by
        simp only [fieldType]
      rw [hread]
      cases type <;> grind [Spelled, FieldType.spelling, FieldType.WellFormed, isBase_iff]

/-- A type does not look like the end of a list, or like no result. -/
lemma exists_head_fieldType {type : FieldType} (h : type.WellFormed) {c : Char} (hc : c = ')' ∨ c = 'V') :
    ∃ d later, type.spelling = d :: later ∧ d ≠ c := by
  cases type with
  | base letter =>
      refine ⟨letter, [], rfl, ?_⟩
      rintro rfl
      exact not_isBaseLetter (by simpa using by tauto) h
  | object name => exact ⟨'L', _, rfl, by rintro rfl; simp at hc⟩
  | array element => exact ⟨'[', _, rfl, by rintro rfl; simp at hc⟩

lemma reads_methodDescriptor (n : Nat) :
    Reads n (methodDescriptor n) (Spelled MethodDescriptor.spelling fun method _ => method.WellFormed) := by
  have hparameters := reads_items_of_wellFormed ')' (reads_fieldType n)
    fun type h => exists_head_fieldType h (Or.inl rfl)
  have hresult := reads_result (reads_fieldType n) fun type _ h => exists_head_fieldType h (Or.inr rfl)
  refine ((reads_expect '(').bind fun _ => hparameters.bind fun parameters => hresult.bind fun result =>
    reads_pure (MethodDescriptor.mk parameters result)).congr ?_
  rintro text ⟨parameters, result⟩ rest
  constructor
  · rintro ⟨_, _, ⟨rfl, -⟩, _, _, ⟨rfl, hps⟩, _, _, ⟨rfl, hr⟩, ⟨⟩, rfl⟩
    exact ⟨by simp [MethodDescriptor.spelling], hps, hr⟩
  · rintro ⟨rfl, hps, hr⟩
    exact ⟨(), _, ⟨rfl, trivial⟩, parameters, _, ⟨by simp, hps⟩, result, rest, ⟨rfl, hr⟩, rfl, rfl⟩

/-! ## Types of signatures -/

/-- A reference begins with the character that tells its kind. -/
lemma exists_head_reference {type : TypeSignature} (h : type.IsReference) :
    ∃ c later, type.spelling = c :: later ∧ (c = 'L' ∨ c = 'T' ∨ c = '[') := by
  cases type with
  | base letter => exact absurd h id
  | classType type => exact ⟨'L', _, by rw [TypeSignature.spelling], by simp⟩
  | typeVariable name => exact ⟨'T', _, by rw [TypeSignature.spelling], by simp⟩
  | array element => exact ⟨'[', _, by rw [TypeSignature.spelling], by simp⟩

lemma exists_head_javaType {type : TypeSignature} (h : type.WellFormed) {c : Char} (hc : c = ')' ∨ c = 'V') :
    ∃ d later, type.spelling = d :: later ∧ d ≠ c := by
  by_cases href : type.IsReference
  · obtain ⟨d, later, hd, hkind⟩ := exists_head_reference href
    refine ⟨d, later, hd, ?_⟩
    rintro rfl
    rcases hc with rfl | rfl <;> simp at hkind
  · cases type with
    | base letter =>
        refine ⟨letter, [], by rw [TypeSignature.spelling], ?_⟩
        rintro rfl
        rw [TypeSignature.WellFormed] at h
        exact not_isBaseLetter (by simpa using by tauto) h
    | _ => exact absurd trivial href

lemma exists_head_typeArgument {argument : TypeArgument} (h : argument.WellFormed) :
    ∃ c later, argument.spelling = c :: later ∧ c ≠ '>' := by
  cases argument with
  | wildcard => exact ⟨'*', _, by rw [TypeArgument.spelling], by simp⟩
  | upperBound bound => exact ⟨'+', _, by rw [TypeArgument.spelling], by simp⟩
  | lowerBound bound => exact ⟨'-', _, by rw [TypeArgument.spelling], by simp⟩
  | exactly type =>
      rw [TypeArgument.WellFormed] at h
      obtain ⟨c, later, hc, hkind⟩ := exists_head_reference h.1
      refine ⟨c, later, by rw [TypeArgument.spelling, hc], ?_⟩
      rintro rfl
      simp at hkind

/-- The reader of references reads them from their spelling, if the text is shorter than `n`. -/
abbrev ReadsReferences (n : Nat) (reference : Scan TypeSignature) : Prop :=
  Reads n reference (Spelled TypeSignature.spelling fun type _ => type.IsReference ∧ type.WellFormed)

section References

variable {reference : Scan TypeSignature}

lemma reads_javaType (h : ReadsReferences n reference) :
    Reads n (javaType reference) (Spelled TypeSignature.spelling fun type _ => type.WellFormed) := by
  rintro (_ | ⟨c, text⟩) hlen type rest
  · cases type <;> simp [javaType, Spelled, TypeSignature.spelling]
  rw [javaType]
  by_cases hc : isBase c = true
  · rw [if_pos hc]
    rw [isBase_iff] at hc
    cases type with
    | base letter =>
        simp only [Spelled, TypeSignature.spelling, TypeSignature.WellFormed]
        grind
    | _ =>
        simp only [Except.ok.injEq, Prod.mk.injEq, reduceCtorEq, false_and, false_iff]
        rintro ⟨htext, -⟩
        rw [TypeSignature.spelling] at htext
        rw [(List.cons.inj htext).1] at hc
        exact not_isBaseLetter (by simp) hc
  · rw [if_neg hc, h (c :: text) hlen type rest]
    rw [isBase_iff] at hc
    cases type with
    | base letter =>
        simp only [Spelled, TypeSignature.spelling, TypeSignature.WellFormed, TypeSignature.IsReference]
        grind
    | _ => simp [Spelled, TypeSignature.IsReference]

/-- What is exactly a type does not begin with the sign of a wildcard. -/
lemma not_spelled_exactly {type : TypeSignature} {c : Char} {more rest : List Char}
    (hc : c = '*' ∨ c = '+' ∨ c = '-') :
    ¬ Spelled TypeArgument.spelling (fun argument _ => argument.WellFormed) (c :: more) (.exactly type) rest := by
  rintro ⟨htext, hwell⟩
  rw [TypeArgument.WellFormed] at hwell
  obtain ⟨d, later, hd, hkind⟩ := exists_head_reference hwell.1
  rw [TypeArgument.spelling, hd, List.cons_append] at htext
  obtain ⟨rfl, -⟩ := List.cons.inj htext
  rcases hc with rfl | rfl | rfl <;> simp at hkind

lemma reads_typeArgument (h : ReadsReferences n reference) :
    Reads n (typeArgument reference) (Spelled TypeArgument.spelling fun argument _ => argument.WellFormed) := by
  intro text hlen argument rest
  unfold typeArgument
  split
  · cases argument with
    | exactly type => simp [not_spelled_exactly]
    | _ => simp [Spelled, TypeArgument.spelling, TypeArgument.WellFormed]
  · rename_i more
    rw [List.length_cons] at hlen
    have hread := h.bind fun bound => reads_pure (TypeArgument.upperBound bound)
    refine (hread more (by omega) argument rest).trans ?_
    cases argument with
    | exactly type => simp [not_spelled_exactly]
    | _ => simp [Spelled, TypeArgument.spelling, TypeArgument.WellFormed]
  · rename_i more
    rw [List.length_cons] at hlen
    have hread := h.bind fun bound => reads_pure (TypeArgument.lowerBound bound)
    refine (hread more (by omega) argument rest).trans ?_
    cases argument with
    | exactly type => simp [not_spelled_exactly]
    | _ => simp [Spelled, TypeArgument.spelling, TypeArgument.WellFormed]
  · rename_i hstar hplus hminus
    refine ((h.bind fun type => reads_pure (TypeArgument.exactly type)) text hlen argument rest).trans ?_
    cases argument with
    | exactly type => simp [Spelled, TypeArgument.spelling, TypeArgument.WellFormed]
    | wildcard =>
        simp only [reduceCtorEq, false_and, and_false, exists_false, false_iff]
        rintro ⟨rfl, -⟩
        exact hstar _ (by rw [TypeArgument.spelling]; rfl)
    | upperBound bound =>
        simp only [reduceCtorEq, false_and, and_false, exists_false, false_iff]
        rintro ⟨rfl, -⟩
        exact hplus _ (by rw [TypeArgument.spelling]; rfl)
    | lowerBound bound =>
        simp only [reduceCtorEq, false_and, and_false, exists_false, false_iff]
        rintro ⟨rfl, -⟩
        exact hminus _ (by rw [TypeArgument.spelling]; rfl)

/-- A class without arguments ends at a dot or a semicolon. -/
def EndsAt (arguments : List TypeArgument) (rest : List Char) : Prop :=
  arguments = [] → rest.head? = some '.' ∨ rest.head? = some ';'

lemma reads_classSegment (h : ReadsReferences n reference) :
    Reads n (classSegment reference)
      (Spelled (fun segment => segment.1.toList ++ angled segment.2 (segment.2.flatMap TypeArgument.spelling))
        fun segment rest => IsName ['<', '.', ';'] segment.1 ∧ (∀ argument ∈ segment.2, argument.WellFormed) ∧
          EndsAt segment.2 rest) := by
  have harguments := reads_bracketed_of_wellFormed (reads_typeArgument h) fun _ => exists_head_typeArgument
  refine ((reads_name ['<', '.', ';']).bind fun s => harguments.bind fun arguments =>
    reads_pure (s, arguments)).congr ?_
  rintro text ⟨s, arguments⟩ rest
  constructor
  · rintro ⟨_, _, ⟨rfl, hname, hstop⟩, _, _, ⟨rfl, hwell, hnone⟩, ⟨⟩, rfl⟩
    refine ⟨by simp, hname, hwell, ?_⟩
    rintro rfl
    simp [angled] at hstop hnone
    tauto
  · rintro ⟨rfl, hname, hwell, hends⟩
    refine ⟨s, angled arguments _ ++ rest, ⟨by simp, hname, ?_⟩, arguments, rest, ⟨rfl, hwell, ?_⟩, rfl, rfl⟩
    · cases arguments with
      | nil => simpa [angled] using Or.inr (hends rfl)
      | cons argument arguments => simp [angled]
    · intro hnil
      rcases hends hnil with hdot | hsemicolon <;> simp [*]

/-- A nested class before a rest. -/
def InnerFits : InnerClass → List Char → Prop
  | .mk name arguments, rest => InnerClass.WellFormed (.mk name arguments) ∧ EndsAt arguments rest

lemma reads_innerClass (h : ReadsReferences n reference) :
    Reads n (innerClass reference) (Spelled InnerClass.spelling InnerFits) := by
  refine ((reads_classSegment h).bind fun segment => reads_pure (InnerClass.mk segment.1 segment.2)).congr ?_
  rintro text ⟨s, arguments⟩ rest
  constructor
  · rintro ⟨⟨_, _⟩, _, ⟨rfl, hname, hwell, hends⟩, ⟨⟩, rfl⟩
    exact ⟨rfl, ⟨hname, hwell⟩, hends⟩
  · rintro ⟨rfl, ⟨hname, hwell⟩, hends⟩
    exact ⟨(s, arguments), rest, ⟨rfl, hname, hwell, hends⟩, rfl, rfl⟩

/-- A nested class is followed by the dot of the next one or by the semicolon at the end. -/
lemma followed_innerClasses (inner : List InnerClass) (rest : List Char) :
    Followed (fun nested : InnerClass => '.' :: nested.spelling) InnerFits inner (';' :: rest) ↔
      ∀ nested ∈ inner, nested.WellFormed := by
  refine followed_iff (fun more => more.head? = some '.' ∨ more.head? = some ';') (by simp) (by simp) ?_
  rintro ⟨s, arguments⟩ more hkind
  exact and_iff_left fun _ => hkind

lemma reads_classBody (h : ReadsReferences n reference) :
    Reads n (classBody reference) (Spelled ClassType.spelling fun type _ => type.WellFormed) := by
  refine ((reads_classSegment h).bind fun segment => (reads_marked '.' (reads_innerClass h)).bind fun inner =>
    (reads_expect ';').bind fun _ => reads_pure (ClassType.mk segment.1 segment.2 inner)).congr ?_
  rintro text ⟨s, arguments, inner⟩ rest
  simp only [Spelled, ClassType.spelling, ClassType.WellFormed, TypeArgument.listSpelling_eq,
    InnerClass.listSpelling_eq, TypeArgument.listWellFormed_iff, InnerClass.listWellFormed_iff,
    ← followed_innerClasses inner rest]
  constructor
  · rintro ⟨⟨_, _⟩, _, ⟨rfl, hname, hwell, -⟩, _, _, ⟨rfl, hfollowed, -⟩, _, _, ⟨rfl, -⟩, ⟨⟩, rfl⟩
    exact ⟨by simp, hname, hwell, hfollowed⟩
  · rintro ⟨rfl, hname, hwell, hfollowed⟩
    have hends : EndsAt arguments ((inner.flatMap fun nested => '.' :: nested.spelling) ++ ';' :: rest) := by
      intro _
      cases inner <;> simp
    exact ⟨(s, arguments), _, ⟨by simp, hname, hwell, hends⟩, inner, ';' :: rest,
      ⟨rfl, hfollowed, by simp⟩, (), rest, ⟨rfl, trivial⟩, rfl, rfl⟩

end References

/-- **A reference is read from its spelling.** -/
lemma reads_reference (n : Nat) : ReadsReferences n (reference n) := by
  induction n with
  | zero =>
      intro text hlen
      simp at hlen
  | succ n ih =>
      rintro (_ | ⟨c, text⟩) hlen type rest
      · cases type <;> simp [reference, Spelled, TypeSignature.spelling]
      rw [List.length_cons] at hlen
      by_cases hclass : c = 'L'
      · subst hclass
        have hread := (reads_classBody ih).bind fun type => reads_pure (TypeSignature.classType type)
        refine (hread text (by omega) type rest).trans ?_
        cases type <;> simp [Spelled, TypeSignature.spelling, TypeSignature.WellFormed, TypeSignature.IsReference]
      by_cases hvariable : c = 'T'
      · subst hvariable
        refine (reads_enclosedName (n := n) TypeSignature.typeVariable text (by omega) type rest).trans ?_
        cases type <;> simp [Spelled, TypeSignature.spelling, TypeSignature.WellFormed, TypeSignature.IsReference]
      by_cases harray : c = '['
      · subst harray
        have hread := (reads_javaType ih).bind fun element => reads_pure (TypeSignature.array element)
        refine (hread text (by omega) type rest).trans ?_
        cases type <;> simp [Spelled, TypeSignature.spelling, TypeSignature.WellFormed, TypeSignature.IsReference]
      have hread : reference (n + 1) (c :: text) = .error (c :: text) := by
        simp [reference, hclass, hvariable, harray]
      simp only [hread, reduceCtorEq, false_iff]
      rintro ⟨htext, href, -⟩
      obtain ⟨d, later, hd, hkind⟩ := exists_head_reference href
      rw [hd, List.cons_append] at htext
      obtain ⟨rfl, -⟩ := List.cons.inj htext
      rcases hkind with hkind | hkind | hkind
      · exact hclass hkind
      · exact hvariable hkind
      · exact harray hkind

/-! ## Declarations -/

section Declarations

variable {reference : Scan TypeSignature}

open TypeParameter (LooksBound)

/-- A class bound is left out where the text does not look like one. -/
lemma reads_classBound (h : ReadsReferences n reference) :
    Reads n (classBound reference)
      (Spelled (fun bound => bound.elim [] TypeSignature.spelling) fun bound rest =>
        (∀ type ∈ bound, type.IsReference ∧ type.WellFormed) ∧ (bound = none → ¬ LooksBound rest)) := by
  rintro (_ | ⟨c, text⟩) hlen bound rest
  · cases bound with
    | none =>
        constructor
        · rintro ⟨⟩
          exact ⟨rfl, by simp, by simp [LooksBound]⟩
        · rintro ⟨rfl, -⟩
          rfl
    | some type =>
        simp only [classBound, Except.ok.injEq, Prod.mk.injEq, reduceCtorEq, false_and, false_iff]
        rintro ⟨htext, hwell, -⟩
        obtain ⟨c, later, hc, -⟩ := exists_head_reference (hwell type rfl).1
        simp [hc] at htext
  rw [classBound]
  by_cases hc : c = 'L' ∨ c = 'T' ∨ c = '['
  · rw [if_pos hc]
    refine ((h.bind fun type => reads_pure (some type)) _ hlen bound rest).trans ?_
    cases bound with
    | none =>
        simp only [reduceCtorEq, false_and, and_false, exists_false, false_iff]
        rintro ⟨rfl, -, hbound⟩
        exact hbound rfl (by simpa [LooksBound] using hc)
    | some type => simp [Spelled]
  · rw [if_neg hc]
    cases bound with
    | none =>
        constructor
        · rintro ⟨⟩
          exact ⟨rfl, by simp, fun _ => by simpa [LooksBound] using hc⟩
        · rintro ⟨rfl, -⟩
          rfl
    | some type =>
        simp only [Except.ok.injEq, Prod.mk.injEq, reduceCtorEq, false_and, false_iff]
        rintro ⟨htext, hwell, -⟩
        obtain ⟨d, later, hd, hkind⟩ := exists_head_reference (hwell type rfl).1
        simp only [Option.elim_some, hd, List.cons_append, List.cons.injEq] at htext
        rw [htext.1] at hc
        exact hc hkind

/-- What may follow a type parameter. -/
def MayFollow (parameter : TypeParameter) (rest : List Char) : Prop :=
  rest.head? ≠ some ':' ∧ (parameter.IsUnbounded → ¬ LooksBound rest)

/-- A type parameter before a rest.  That its name does not begin with `>` is up to the list it stands in. -/
def ParameterFits (parameter : TypeParameter) (rest : List Char) : Prop :=
  (IsName [':'] parameter.name ∧ (∀ bound ∈ parameter.classBound, bound.IsReference ∧ bound.WellFormed) ∧
    ∀ bound ∈ parameter.interfaceBounds, bound.IsReference ∧ bound.WellFormed) ∧ MayFollow parameter rest

lemma reads_typeParameter (h : ReadsReferences n reference) :
    Reads n (typeParameter reference) (Spelled TypeParameter.spelling ParameterFits) := by
  refine ((reads_name [':']).bind fun s => (reads_expect ':').bind fun _ => (reads_classBound h).bind fun bound =>
    (reads_marked_of_wellFormed ':' h).bind fun interfaces =>
      reads_pure (TypeParameter.mk s bound interfaces)).congr ?_
  rintro text ⟨s, bound, interfaces⟩ rest
  constructor
  · rintro ⟨_, _, ⟨rfl, hname, -⟩, _, _, ⟨rfl, -⟩, _, _, ⟨rfl, hbound, hnone⟩, _, _, ⟨rfl, hwell, hhead⟩,
      ⟨⟩, rfl⟩
    refine ⟨by simp [TypeParameter.spelling], ⟨hname, hbound, hwell⟩, hhead, ?_⟩
    rintro ⟨rfl, rfl⟩
    exact hnone rfl
  · rintro ⟨rfl, ⟨hname, hbound, hwell⟩, hhead, hunbounded⟩
    refine ⟨s, _, ⟨by simp [TypeParameter.spelling], hname, ':', by simp⟩, (), _, ⟨rfl, trivial⟩, bound, _,
      ⟨rfl, hbound, ?_⟩, interfaces, rest, ⟨rfl, hwell, hhead⟩, rfl, rfl⟩
    rintro rfl
    cases interfaces with
    | nil => exact hunbounded ⟨rfl, rfl⟩
    | cons first interfaces => simp [LooksBound]

lemma head?_spelling_typeParameter {parameter : TypeParameter} (h : parameter.name ≠ "") (more : List Char) :
    (parameter.spelling ++ more).head? = parameter.name.toList.head? := by
  obtain ⟨c, later, hc⟩ := List.exists_cons_of_ne_nil (mt String.toList_eq_nil_iff.mp h)
  simp [TypeParameter.spelling, hc]

lemma mayFollow_typeParameter {parameter next : TypeParameter} (h : IsName [':'] next.name) (more : List Char) :
    MayFollow parameter (next.spelling ++ more) ↔ (parameter.IsUnbounded → ¬ LooksBound next.name.toList) := by
  rw [MayFollow, LooksBound, LooksBound, head?_spelling_typeParameter h.1]
  refine and_iff_right ?_
  intro hcolon
  exact h.2 ':' (List.mem_of_mem_head? hcolon) (by simp)

/-- **Type parameters in a row can be told apart exactly if they are well formed as a list.** -/
lemma followed_typeParameters (parameters : List TypeParameter) (rest : List Char) :
    Followed TypeParameter.spelling (fun parameter more => parameter.spelling.head? ≠ some '>' ∧
      ParameterFits parameter more) parameters ('>' :: rest) ↔ TypeParameter.ListWellFormed parameters := by
  have hhead : ∀ parameter : TypeParameter, IsName [':'] parameter.name →
      parameter.spelling.head? = parameter.name.toList.head? := by
    intro parameter h
    simpa using head?_spelling_typeParameter h.1 []
  induction parameters with
  | nil => simp [Followed, TypeParameter.ListWellFormed]
  | cons parameter parameters ih =>
      rw [Followed]
      refine (and_congr_right fun _ => ih).trans ?_
      cases parameters with
      | nil =>
          simp [TypeParameter.ListWellFormed, TypeParameter.WellFormed, ParameterFits, MayFollow, LooksBound]
          grind
      | cons next parameters =>
          simp only [TypeParameter.ListWellFormed, List.forall_mem_cons, List.isChain_cons_cons, List.flatMap_cons,
            List.append_assoc, TypeParameter.WellFormed]
          constructor
          · rintro ⟨⟨hend, ⟨hname, hbounds⟩, hfollow⟩, ⟨hnext, hlater⟩, hchain⟩
            rw [hhead parameter hname] at hend
            rw [mayFollow_typeParameter hnext.1] at hfollow
            exact ⟨⟨⟨hname, hend, hbounds⟩, hnext, hlater⟩, hfollow, hchain⟩
          · rintro ⟨⟨⟨hname, hend, hbounds⟩, hnext, hlater⟩, hfollow, hchain⟩
            rw [← hhead parameter hname] at hend
            rw [← mayFollow_typeParameter hnext.1] at hfollow
            exact ⟨⟨hend, ⟨hname, hbounds⟩, hfollow⟩, ⟨hnext, hlater⟩, hchain⟩

lemma reads_typeParameters (h : ReadsReferences n reference) :
    Reads n (bracketed (typeParameter reference))
      (Spelled TypeParameter.listSpelling fun parameters rest =>
        TypeParameter.ListWellFormed parameters ∧ (parameters = [] → rest.head? ≠ some '<')) := by
  refine (reads_bracketed (reads_typeParameter h) fun parameter _ _ => by simp [TypeParameter.spelling]).congr ?_
  intro text parameters rest
  rw [Spelled, followed_typeParameters]
  rfl

lemma reads_thrown (h : ReadsReferences n reference) :
    Reads n (thrown reference) (Spelled TypeSignature.spelling fun type _ => type.IsThrowable ∧ type.WellFormed) := by
  rintro (_ | ⟨c, text⟩) hlen type rest
  · cases type <;> simp [thrown, Spelled, TypeSignature.spelling]
  rw [thrown]
  by_cases hc : c = 'L' ∨ c = 'T'
  · rw [if_pos hc, h _ hlen]
    cases type with
    | array element =>
        simp only [Spelled, TypeSignature.spelling, TypeSignature.IsThrowable]
        rcases hc with rfl | rfl <;> simp
    | _ => simp [Spelled, TypeSignature.IsReference, TypeSignature.IsThrowable]
  · rw [if_neg hc]
    cases type with
    | classType type => simp_all [Spelled, TypeSignature.spelling]
    | typeVariable name => simp_all [Spelled, TypeSignature.spelling]
    | _ => simp [Spelled, TypeSignature.IsThrowable]

end Declarations

lemma reads_methodSignature (n : Nat) :
    Reads n (methodSignature n)
      (Spelled MethodSignature.spelling fun signature rest => signature.WellFormed ∧ rest.head? ≠ some '^') := by
  have href := reads_reference n
  have hparameters := reads_items_of_wellFormed ')' (reads_javaType href)
    fun type h => exists_head_javaType h (Or.inl rfl)
  have hresult := reads_result (reads_javaType href) fun type _ h => exists_head_javaType h (Or.inr rfl)
  have hthrows := reads_marked_of_wellFormed '^' (reads_thrown href)
  refine ((reads_typeParameters href).bind fun typeParameters => (reads_expect '(').bind fun _ =>
    hparameters.bind fun parameters => hresult.bind fun result => hthrows.bind fun throws =>
      reads_pure (MethodSignature.mk typeParameters parameters result throws)).congr ?_
  rintro text ⟨typeParameters, parameters, result, throws⟩ rest
  constructor
  · rintro ⟨_, _, ⟨rfl, htypes, -⟩, _, _, ⟨rfl, -⟩, _, _, ⟨rfl, hps⟩, _, _, ⟨rfl, hr⟩, _, _,
      ⟨rfl, hthrows, hhead⟩, ⟨⟩, rfl⟩
    exact ⟨by simp [MethodSignature.spelling], ⟨htypes, hps, hr, hthrows⟩, hhead⟩
  · rintro ⟨rfl, ⟨htypes, hps, hr, hthrows⟩, hhead⟩
    refine ⟨typeParameters, '(' :: (parameters.flatMap TypeSignature.spelling ++ [')'] ++
      (resultSpelling TypeSignature.spelling result ++
        (throws.flatMap (fun type => '^' :: type.spelling) ++ rest))),
      ⟨by simp [MethodSignature.spelling], htypes, by simp⟩, (), _, ⟨rfl, trivial⟩, parameters, _,
      ⟨rfl, hps⟩, ?_⟩
    exact ⟨result, _, ⟨rfl, hr⟩, throws, rest, ⟨rfl, hthrows, hhead⟩, rfl, rfl⟩

lemma reads_classSignature (n : Nat) :
    Reads n (classSignature n)
      (Spelled ClassSignature.spelling fun signature rest => signature.WellFormed ∧ rest.head? ≠ some 'L') := by
  have hclass := reads_classBody (reads_reference n)
  refine ((reads_typeParameters (reads_reference n)).bind fun typeParameters => (reads_expect 'L').bind fun _ =>
    hclass.bind fun superclass => (reads_marked_of_wellFormed 'L' hclass).bind fun interfaces =>
      reads_pure (ClassSignature.mk typeParameters superclass interfaces)).congr ?_
  rintro text ⟨typeParameters, superclass, interfaces⟩ rest
  constructor
  · rintro ⟨_, _, ⟨rfl, htypes, -⟩, _, _, ⟨rfl, -⟩, _, _, ⟨rfl, hsuper⟩, _, _, ⟨rfl, hinterfaces, hhead⟩, ⟨⟩, rfl⟩
    exact ⟨by simp [ClassSignature.spelling], ⟨htypes, hsuper, hinterfaces⟩, hhead⟩
  · rintro ⟨rfl, ⟨htypes, hsuper, hinterfaces⟩, hhead⟩
    exact ⟨typeParameters, _, ⟨by simp [ClassSignature.spelling], htypes, by simp⟩, (), _, ⟨rfl, trivial⟩,
      superclass, _, ⟨rfl, hsuper⟩, interfaces, rest, ⟨rfl, hinterfaces, hhead⟩, rfl, rfl⟩

end Scan

/-! ## Whole texts -/

/-- A whole text is accepted exactly if it is the spelling of a value that nothing has to follow. -/
lemma readWhole_eq_ok_iff {α : Type} {grammar : Grammar} {scan : Nat → Scan α} {spelling : α → List Char}
    {fits : α → List Char → Prop} (h : ∀ n, Scan.Reads n (scan n) (Scan.Spelled spelling fits)) {text : String}
    {a : α} : readWhole grammar scan text = .ok a ↔ fits a [] ∧ text = String.ofList (spelling a) := by
  have hscan := h (text.toList.length + 1) text.toList (Nat.lt_succ_self _) a []
  have htext : text = String.ofList (spelling a) ↔ text.toList = spelling a := by
    rw [← String.toList_inj, String.toList_ofList]
  rw [Scan.Spelled, List.append_nil] at hscan
  rw [htext, and_comm, ← hscan, readWhole]
  dsimp only
  split
  · rename_i value heq
    simp [heq]
  · rename_i value rest hne heq
    simpa [heq] using fun _ hrest => hne hrest
  · rename_i rest heq
    simp [heq]

lemma fieldDescriptor_eq_ok_iff {text : String} {type : FieldType} :
    fieldDescriptor text = .ok type ↔ type.WellFormed ∧ text = type.text :=
  readWhole_eq_ok_iff Scan.reads_fieldType

/-- `V` alone stands for no result, and a type is never written like that. -/
lemma returnDescriptor_eq_ok_iff {text : String} {result : Option FieldType} :
    returnDescriptor text = .ok result ↔
      (∀ type ∈ result, type.WellFormed) ∧ text = String.ofList (resultSpelling FieldType.spelling result) := by
  rw [returnDescriptor]
  cases result with
  | none =>
      split_ifs with hvoid
      · simpa [resultSpelling] using hvoid
      · simpa [map_eq_ok_iff, resultSpelling] using hvoid
  | some type =>
      split_ifs with hvoid
      · subst hvoid
        simp only [Except.ok.injEq, reduceCtorEq, false_iff]
        rintro ⟨hwell, htext⟩
        obtain ⟨c, later, hc, hne⟩ := Scan.exists_head_fieldType (hwell type rfl) (Or.inr rfl)
        have hchars := congrArg String.toList htext
        simp only [resultSpelling, hc, String.reduceToList, String.toList_ofList, List.cons.injEq] at hchars
        exact hne hchars.1.symm
      · simp [map_eq_ok_iff, fieldDescriptor_eq_ok_iff, resultSpelling, FieldType.text]

/-- **Each reader accepts exactly the texts of its grammar.**  A text is read as a tree if and only if the tree is
well formed and the text is the one that stands for it, so no two texts stand for one tree. -/
theorem accepts_exactly_grammar :
    (∀ text type, fieldDescriptor text = .ok type ↔ type.WellFormed ∧ text = type.text) ∧
    (∀ text method, methodDescriptor text = .ok method ↔ method.WellFormed ∧ text = method.text) ∧
    (∀ text result, returnDescriptor text = .ok result ↔
      (∀ type ∈ result, type.WellFormed) ∧ text = String.ofList (resultSpelling FieldType.spelling result)) ∧
    (∀ text signature, classSignature text = .ok signature ↔ signature.WellFormed ∧ text = signature.text) ∧
    (∀ text signature, methodSignature text = .ok signature ↔ signature.WellFormed ∧ text = signature.text) ∧
    ∀ text type, fieldSignature text = .ok type ↔ (type.IsReference ∧ type.WellFormed) ∧ text = type.text := by
  refine ⟨fun _ _ => fieldDescriptor_eq_ok_iff, fun _ _ => readWhole_eq_ok_iff Scan.reads_methodDescriptor,
    fun _ _ => returnDescriptor_eq_ok_iff, ?_, ?_, fun _ _ => readWhole_eq_ok_iff Scan.reads_reference⟩
  · intro text signature
    exact (readWhole_eq_ok_iff Scan.reads_classSignature).trans (and_congr_left fun _ => and_iff_left (by simp))
  · intro text signature
    exact (readWhole_eq_ok_iff Scan.reads_methodSignature).trans (and_congr_left fun _ => and_iff_left (by simp))

end JarSurvey.Descriptor
