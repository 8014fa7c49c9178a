import JarSurvey.Proofs.ClassFile.Decoding

/-!
# The limit to the nesting of annotation values

Annotation values are read with a number of levels that is counted down, by one for an array and by two for a nested
annotation, from different starts for a default value and for the members of an annotation.  Here the level of a value
is told from the values around it (`ElementValue.Holds`, `Attribute.Holds`), and the reader is compared with it:

* **nothing is read that stands deeper than the limit** (`ensures_attributes`), whatever the bytes are, and also where
  annotations stand on code;
* **whatever is laid out well is read back if its levels are within the limit, and refused for its nesting if not**
  (`takesIf_attributes`).  To say so, `Layout.DeepBody` lays out annotations without a bound on their levels.

`nesting_limit_exact` puts the two together.
-/

namespace JarSurvey.ClassFile

/-! ## Levels -/

/-- The value stands at this level if `outer` stands at `start`: it is `outer`, or an element of an array, one level
below the array, or a member of a nested annotation, two levels below the value that is the annotation. -/
inductive ElementValue.Holds (outer : ElementValue) (start : Nat) : ElementValue → Nat → Prop
  | self : Holds outer start outer start
  | element {values : List ElementValue} {value : ElementValue} {level : Nat}
      (h : Holds outer start (.array values) level) (hvalue : value ∈ values) : Holds outer start value (level + 1)
  | member {type name : String} {elements : List AnnotationElement} {value : ElementValue} {level : Nat}
      (h : Holds outer start (.nested (.mk type elements)) level) (hmember : .mk name value ∈ elements) :
      Holds outer start value (level + 2)

/-- The value stands at this level of an annotation, whose members stand at level one. -/
def AnnotationUse.Holds (use : AnnotationUse) (value : ElementValue) (level : Nat) : Prop :=
  ∃ name member, .mk name member ∈ use.elements ∧ member.Holds 1 value level

/-- The value stands at this level of an annotation that the attribute holds, or of a default value, which stands at
level zero. -/
inductive Attribute.Holds : Attribute → ElementValue → Nat → Prop
  | annotationDefault {default value : ElementValue} {level : Nat} (h : default.Holds 0 value level) :
      Holds (.annotationDefault default) value level
  | annotations {visible : Bool} {uses : List AnnotationUse} {use : AnnotationUse} {value : ElementValue} {level : Nat}
      (huse : use ∈ uses) (h : use.Holds value level) : Holds (.annotations visible uses) value level
  | parameterAnnotations {visible : Bool} {parameters : List (List AnnotationUse)} {uses : List AnnotationUse}
      {use : AnnotationUse} {value : ElementValue} {level : Nat} (huses : uses ∈ parameters) (huse : use ∈ uses)
      (h : use.Holds value level) : Holds (.parameterAnnotations visible parameters) value level
  | typeAnnotations {visible : Bool} {uses : List TypeAnnotationUse} {use : TypeAnnotationUse} {value : ElementValue}
      {level : Nat} (huse : use ∈ uses) (h : use.use.Holds value level) :
      Holds (.typeAnnotations visible uses) value level
  | code {body : Code Attribute} {inside : Attribute} {value : ElementValue} {level : Nat}
      (hinside : inside ∈ body.attributes) (h : Holds inside value level) : Holds (.code body) value level

/-- No value stands at a level beyond the limit. -/
def LevelsUpTo (limit : Nat) (holds : ElementValue → Nat → Prop) : Prop :=
  ∀ value level, holds value level → level ≤ limit

lemma ElementValue.Holds.trans {outer middle value : ElementValue} {start between level : Nat}
    (h : outer.Holds start middle between) (hinside : middle.Holds between value level) :
    outer.Holds start value level := by
  induction hinside with
  | self => exact h
  | element _ hvalue ih => exact .element ih hvalue
  | member _ hmember ih => exact .member ih hmember

lemma ElementValue.Within.of_holds {outer value : ElementValue} {start level : Nat} (hwithin : outer.Within start)
    (h : outer.Holds start value level) : value.Within level := by
  induction h with
  | self => exact hwithin
  | element _ hvalue ih =>
      cases ih with
      | array _ hvalues => exact hvalues _ hvalue
  | member _ hmember ih =>
      cases ih with
      | nested _ hmembers => exact hmembers _ _ hmember

lemma ElementValue.within_of_levelsUpTo {value : ElementValue} {start : Nat}
    (h : LevelsUpTo Reader.maxElementDepth (value.Holds start)) : value.Within start := by
  have hstart : start ≤ Reader.maxElementDepth := h _ _ .self
  induction hsize : sizeOf value using Nat.strong_induction_on generalizing value start with
  | _ size ih =>
      subst hsize
      cases value with
      | constant tag index => exact .constant hstart
      | enumConstant type name => exact .enumConstant hstart
      | classLiteral descriptor => exact .classLiteral hstart
      | nested use =>
          obtain ⟨type, elements⟩ := use
          refine .nested hstart fun name member hmember => ?_
          have hsmaller : sizeOf member < sizeOf (nested (.mk type elements)) := by
            have hlt := List.sizeOf_lt_of_mem hmember
            simp only [AnnotationElement.mk.sizeOf_spec, nested.sizeOf_spec, AnnotationUse.mk.sizeOf_spec] at hlt ⊢
            omega
          have hlevels : LevelsUpTo Reader.maxElementDepth (member.Holds (start + 2)) :=
            fun inside level hinside => h _ _ ((Holds.self.member hmember).trans hinside)
          exact ih _ hsmaller hlevels (hlevels _ _ .self) rfl
      | array values =>
          refine .array hstart fun element helement => ?_
          have hsmaller : sizeOf element < sizeOf (array values) := by
            have hlt := List.sizeOf_lt_of_mem helement
            simp only [array.sizeOf_spec]
            omega
          have hlevels : LevelsUpTo Reader.maxElementDepth (element.Holds (start + 1)) :=
            fun inside level hinside => h _ _ ((Holds.self.element helement).trans hinside)
          exact ih _ hsmaller hlevels (hlevels _ _ .self) rfl

/-- **The values within the limit are those with no level beyond it.** -/
lemma ElementValue.within_iff {value : ElementValue} {start : Nat} :
    value.Within start ↔ LevelsUpTo Reader.maxElementDepth (value.Holds start) :=
  ⟨fun h _ _ hholds => (h.of_holds hholds).level_le, within_of_levelsUpTo⟩

lemma AnnotationUse.within_iff {use : AnnotationUse} :
    use.Within ↔ LevelsUpTo Reader.maxElementDepth use.Holds := by
  constructor
  · rintro h value level ⟨name, member, hmember, hholds⟩
    exact ElementValue.within_iff.mp (h name member hmember) value level hholds
  · intro h name member hmember
    exact ElementValue.within_iff.mpr fun value level hholds => h value level ⟨name, member, hmember, hholds⟩

/-- No value of an attribute stands at a level beyond the limit. -/
def Attribute.Within (content : Attribute) : Prop :=
  LevelsUpTo Reader.maxElementDepth content.Holds

namespace Attribute

lemma within_annotations {visible : Bool} {uses : List AnnotationUse} :
    (annotations visible uses).Within ↔ ∀ use ∈ uses, use.Within := by
  simp only [AnnotationUse.within_iff]
  constructor
  · exact fun h use huse value level hholds => h value level (.annotations huse hholds)
  · rintro h value level (_ | ⟨huse, hholds⟩)
    exact h _ huse value level hholds

lemma within_parameterAnnotations {visible : Bool} {parameters : List (List AnnotationUse)} :
    (parameterAnnotations visible parameters).Within ↔ ∀ uses ∈ parameters, ∀ use ∈ uses, use.Within := by
  simp only [AnnotationUse.within_iff]
  constructor
  · exact fun h uses huses use huse value level hholds => h value level (.parameterAnnotations huses huse hholds)
  · rintro h value level (_ | _ | ⟨huses, huse, hholds⟩)
    exact h _ huses _ huse value level hholds

lemma within_typeAnnotations {visible : Bool} {uses : List TypeAnnotationUse} :
    (typeAnnotations visible uses).Within ↔ ∀ use ∈ uses, use.use.Within := by
  simp only [AnnotationUse.within_iff]
  constructor
  · exact fun h use huse value level hholds => h value level (.typeAnnotations huse hholds)
  · rintro h value level (_ | _ | _ | ⟨huse, hholds⟩)
    exact h _ huse value level hholds

lemma within_annotationDefault {value : ElementValue} : (annotationDefault value).Within ↔ value.Within 0 := by
  rw [ElementValue.within_iff]
  constructor
  · exact fun h inside level hholds => h inside level (.annotationDefault hholds)
  · rintro h inside level (hholds | _)
    exact h inside level hholds

lemma within_code {body : Code Attribute} : (code body).Within ↔ ∀ inside ∈ body.attributes, inside.Within := by
  constructor
  · exact fun h inside hinside value level hholds => h value level (.code hinside hholds)
  · rintro h value level (_ | _ | _ | _ | ⟨hinside, hholds⟩)
    exact h _ hinside value level hholds

end Attribute

namespace Reader

open Layout

/-! ## What is read -/

/-- Whatever the reader yields has the property. -/
def Ensures {α : Type} (reader : Reader α) (property : α → Prop) : Prop :=
  ∀ cursor value cursor', reader cursor = .ok (value, cursor') → property value

section Ensuring

variable {α β : Type} {reader : Reader α} {property : α → Prop} {property' : β → Prop}

lemma ensures_true (reader : Reader α) : Ensures reader fun _ => True :=
  fun _ _ _ _ => trivial

lemma ensures_pure {a : α} (h : property a) : Ensures (pure a) property := by
  intro cursor value cursor' hread
  cases hread
  exact h

lemma ensures_throw (error : FormatError) : Ensures (throw error) property :=
  fun _ _ _ hread => absurd hread throw_ne_ok

lemma Ensures.bind {next : α → Reader β} (h : Ensures reader property)
    (hnext : ∀ a, property a → Ensures (next a) property') : Ensures (reader >>= next) property' := by
  intro cursor value cursor' hread
  rw [bind_apply, bind_eq_ok_iff] at hread
  obtain ⟨⟨a, middle⟩, hfirst, hsecond⟩ := hread
  exact hnext a (h _ _ _ hfirst) _ _ _ hsecond

/-- The property does not depend on what is read first. -/
lemma ensures_bind {next : α → Reader β} (h : ∀ a, Ensures (next a) property') :
    Ensures (reader >>= next) property' :=
  (ensures_true reader).bind fun a _ => h a

lemma Ensures.map {f : α → β} (h : Ensures reader property) (hf : ∀ a, property a → property' (f a)) :
    Ensures (f <$> reader) property' :=
  h.bind fun a ha => ensures_pure (hf a ha)

lemma Ensures.many (h : Ensures reader property) (count : Nat) :
    Ensures (many reader count) fun values => ∀ a ∈ values, property a := by
  induction count with
  | zero => exact ensures_pure (by simp)
  | succ count ih =>
      exact h.bind fun a ha => ih.bind fun later hlater => ensures_pure (List.forall_mem_cons.mpr ⟨ha, hlater⟩)

lemma Ensures.counted (h : Ensures reader property) :
    Ensures (counted reader) fun values => ∀ a ∈ values, property a :=
  ensures_bind fun count => h.many count.toNat

lemma Ensures.shortCounted (h : Ensures reader property) :
    Ensures (shortCounted reader) fun values => ∀ a ∈ values, property a :=
  ensures_bind fun count => h.many count.toNat

end Ensuring

section Attributes

variable {pool : ConstantPool} {bytes : List UInt8}

lemma ensures_annotationWith {value : Reader ElementValue} (level : Nat) (h : Ensures value (·.Within level)) :
    Ensures (annotationWith pool value) fun use =>
      ∀ name member, .mk name member ∈ use.elements → member.Within level := by
  have helement : Ensures (annotationElement pool value) fun element =>
      ∀ name member, element = .mk name member → member.Within level := by
    refine ensures_bind fun name => h.bind fun member hmember => ensures_pure ?_
    rintro _ _ ⟨⟩
    exact hmember
  refine ensures_bind fun type => helement.counted.bind fun elements helements => ensures_pure ?_
  exact fun name member hmember => helements _ hmember name member rfl

/-- A value is read at a level that leaves the number of levels that are still allowed. -/
lemma ensures_elementValue {level levels : Nat} (h : level + levels = maxElementDepth + 1) :
    Ensures (elementValue pool levels) (·.Within level) := by
  induction levels using Nat.strong_induction_on generalizing level with
  | _ levels ih =>
      cases levels with
      | zero => exact ensures_throw _
      | succ levels =>
          have hlevel : level ≤ maxElementDepth := by omega
          unfold elementValue
          refine ensures_bind fun tag => ?_
          split_ifs
          · exact ensures_bind fun index => ensures_pure (.constant hlevel)
          · exact ensures_bind fun type => ensures_bind fun name => ensures_pure (.enumConstant hlevel)
          · exact ensures_bind fun descriptor => ensures_pure (.classLiteral hlevel)
          · refine (ensures_annotationWith (level + 2) ?_).bind fun use huse => ensures_pure ?_
            · cases levels with
              | zero => exact ensures_throw _
              | succ below => exact ih below (by omega) (by omega)
            · obtain ⟨type, elements⟩ := use
              exact .nested hlevel huse
          · have helement : Ensures (elementValue pool levels) (·.Within (level + 1)) :=
              ih levels (by omega) (by omega)
            exact helement.counted.bind fun values hvalues => ensures_pure (.array hlevel hvalues)
          · exact ensures_throw _

lemma ensures_annotationUse : Ensures (annotationUse pool) AnnotationUse.Within :=
  ensures_annotationWith 1 (ensures_elementValue (Nat.add_comm 1 maxElementDepth))

lemma ensures_typeAnnotationUse : Ensures (typeAnnotationUse pool) (·.use.Within) :=
  ensures_bind fun _ => ensures_bind fun _ => ensures_bind fun _ =>
    ensures_annotationUse.bind fun _ huse => ensures_pure huse

lemma ensures_code {attributes : Reader (List Attribute)}
    (h : Ensures attributes fun values => ∀ inside ∈ values, inside.Within) :
    Ensures (code pool attributes) fun body => ∀ inside ∈ body.attributes, inside.Within :=
  ensures_bind fun _ => ensures_bind fun _ => ensures_bind fun _ => ensures_bind fun _ =>
    h.bind fun _ hvalues => ensures_pure hvalues

lemma ensures_content {attributes : Reader (List Attribute)} {name : String} {content : Reader Attribute}
    (h : Ensures attributes fun values => ∀ inside ∈ values, inside.Within)
    (hcontent : content? pool attributes name = some content) : Ensures content Attribute.Within := by
  have huses : Ensures (counted (annotationUse pool)) fun uses => ∀ use ∈ uses, use.Within :=
    ensures_annotationUse.counted
  unfold content? at hcontent
  split at hcontent
  all_goals cases hcontent
  case h_4 => exact (ensures_code h).map fun _ => Attribute.within_code.mpr
  case h_5 | h_6 => exact huses.map fun _ => Attribute.within_annotations.mpr
  case h_7 | h_8 => exact huses.shortCounted.map fun _ => Attribute.within_parameterAnnotations.mpr
  case h_9 | h_10 => exact ensures_typeAnnotationUse.counted.map fun _ => Attribute.within_typeAnnotations.mpr
  case h_11 => exact (ensures_elementValue (Nat.zero_add _)).map fun _ => Attribute.within_annotationDefault.mpr
  -- The other attributes hold no annotation values.
  all_goals
    refine (ensures_true _).map fun _ _ value level hholds => ?_
    cases hholds

lemma ensures_attributeWith {attributes : Reader (List Attribute)}
    (h : Ensures attributes fun values => ∀ inside ∈ values, inside.Within) :
    Ensures (attributeWith pool attributes) Attribute.Within := by
  refine ensures_bind fun name => ensures_bind fun body => ?_
  cases hcontent : content? pool attributes name with
  | none =>
      refine ensures_pure fun value level hholds => ?_
      cases hholds
  | some content =>
      intro cursor value cursor' hread
      obtain ⟨found, hfound, ⟨⟩⟩ := bind_eq_ok_iff.mp hread
      obtain ⟨position, hwhole⟩ := (whole_eq_ok_iff content body (.attributeLength name)).mp hfound
      exact ensures_content h hcontent _ _ _ hwhole

/-- **No value that is read stands deeper than the limit.** -/
lemma ensures_attributes (pool : ConstantPool) :
    Ensures (attributes pool) fun values => ∀ content ∈ values, content.Within := by
  have hlevels : ∀ levels, Ensures (attributesUpTo pool levels) fun values => ∀ content ∈ values, content.Within := by
    intro levels
    induction levels with
    | zero =>
        intro cursor values cursor' hread
        cases hread
    | succ levels ih => exact (ensures_attributeWith ih).counted
  exact fun cursor => hlevels _ cursor

end Attributes

/-! ## What is refused -/

/-- The bytes are taken if the condition holds, and refused for their nesting if not. -/
def TakesIf {α : Type} (condition : Prop) (reader : Reader α) (value : α) (bytes : List UInt8) : Prop :=
  (condition → Takes reader value bytes) ∧ (¬ condition → Refuses reader .nestingTooDeep bytes)

section TakesIf

variable {α β ι : Type} {reader : Reader α} {condition condition' : Prop} {a : α} {as bytes : List UInt8}

lemma TakesIf.congr (h : TakesIf condition reader a as) (hiff : condition' ↔ condition) :
    TakesIf condition' reader a as := by
  rwa [propext hiff]

lemma Takes.bind_if {next : α → Reader β} {b : β} {bs : List UInt8} (h : Takes reader a as)
    (hnext : TakesIf condition (next a) b bs) : TakesIf condition (reader >>= next) b (as ++ bs) :=
  ⟨fun holds => h.bind (hnext.1 holds), fun fails => h.bind_refuses (hnext.2 fails)⟩

lemma TakesIf.bind_pure (h : TakesIf condition reader a as) (f : α → β) :
    TakesIf condition (reader >>= fun x => pure (f x)) (f a) as :=
  ⟨fun holds => (h.1 holds).bind_pure f, fun fails => (h.2 fails).bind _⟩

lemma TakesIf.map (h : TakesIf condition reader a as) (f : α → β) : TakesIf condition (f <$> reader) (f a) as :=
  h.bind_pure f

/-- A sequence is taken if the conditions of all its items hold. -/
lemma takesIf_many {item : Reader α} {xs : List ι} {value : ι → α} {bytesOf : ι → List UInt8} {holds : ι → Prop}
    (h : ∀ x ∈ xs, TakesIf (holds x) item (value x) (bytesOf x)) :
    TakesIf (∀ x ∈ xs, holds x) (many item xs.length) (xs.map value) (xs.flatMap bytesOf) := by
  refine ⟨fun hall => takes_many fun x hx => (h x hx).1 (hall x hx), fun hnot => ?_⟩
  have heither : ∀ x ∈ xs, Takes item (value x) (bytesOf x) ∨ Refuses item .nestingTooDeep (bytesOf x) :=
    fun x hx => (em (holds x)).imp (h x hx).1 (h x hx).2
  push Not at hnot
  obtain ⟨x, hx, hfails⟩ := hnot
  exact refuses_many heither ⟨x, hx, (h x hx).2 hfails⟩

lemma TakesIf.counted {item : Reader α} {values : List α} {count : Nat} (hcount : count < 0x10000)
    (h : TakesIf condition (many item count) values bytes) :
    TakesIf condition (counted item) values (u2 count ++ bytes) := by
  refine (takes_count hcount).bind_if ?_
  rwa [UInt16.toNat_ofNat_of_lt' hcount]

lemma takesIf_counted {item : Reader α} {xs : List ι} {value : ι → α} {bytesOf : ι → List UInt8} {holds : ι → Prop}
    (h : ∀ x ∈ xs, TakesIf (holds x) item (value x) (bytesOf x)) (hcount : xs.length < 0x10000) :
    TakesIf (∀ x ∈ xs, holds x) (counted item) (xs.map value) (u2 xs.length ++ xs.flatMap bytesOf) :=
  (takesIf_many h).counted hcount

section Layouts

variable {item : Reader α} {layout : α → List UInt8 → Prop} {holds : α → Prop} {values : List α}
  (hitem : ∀ value bytes, layout value bytes → TakesIf (holds value) item value bytes)

include hitem

lemma takesIf_many_of_layout (h : Many layout values bytes) :
    TakesIf (∀ value ∈ values, holds value) (many item values.length) values bytes := by
  obtain ⟨pieces, hpieces, rfl, rfl⟩ := h
  rw [List.length_map]
  refine (takesIf_many fun piece hp => hitem _ _ (hpieces piece hp)).congr ?_
  exact List.forall_mem_map

lemma takesIf_counted_of_layout (h : Counted layout values bytes) :
    TakesIf (∀ value ∈ values, holds value) (counted item) values bytes := by
  obtain ⟨content, hmany, hcount, rfl⟩ := h
  exact (takesIf_many_of_layout hitem hmany).counted hcount

lemma takesIf_shortCounted_of_layout (h : ShortCounted layout values bytes) :
    TakesIf (∀ value ∈ values, holds value) (shortCounted item) values bytes := by
  obtain ⟨content, hmany, hcount, rfl⟩ := h
  refine (takes_u8 _).bind_if ?_
  rw [UInt8.toNat_ofNat_of_lt' hcount]
  exact takesIf_many_of_layout hitem hmany

end Layouts

end TakesIf

/-! ## Annotations -/

section Annotations

variable {pool : ConstantPool} {bytes : List UInt8}

lemma takesIf_annotationWith {value : Reader ElementValue} {type : String} {typeBytes : List UInt8}
    {members : List MemberPiece} {level : Nat} (htype : TextIndex pool type typeBytes)
    (hnames : ∀ m ∈ members, TextIndex pool m.name m.nameBytes)
    (hvalues : ∀ m ∈ members, TakesIf (m.value.Within level) value m.value m.valueBytes)
    (hcount : members.length < 0x10000) :
    TakesIf (∀ m ∈ members, m.value.Within level) (annotationWith pool value)
      (.mk type (members.map MemberPiece.element))
      (typeBytes ++ (u2 members.length ++ members.flatMap MemberPiece.bytes)) := by
  have hmembers : ∀ m ∈ members, TakesIf (m.value.Within level) (annotationElement pool value) m.element m.bytes :=
    fun m hm => (takes_utf8 (hnames m hm)).bind_if ((hvalues m hm).bind_pure _)
  exact (takes_utf8 htype).bind_if ((takesIf_counted hmembers hcount).bind_pure _)

lemma forall_members_iff {members : List MemberPiece} {level : Nat} :
    (∀ name value, .mk name value ∈ members.map MemberPiece.element → value.Within level) ↔
      ∀ m ∈ members, m.value.Within level := by
  constructor
  · exact fun h m hm => h m.name m.value (List.mem_map_of_mem hm)
  · intro h name value hmember
    obtain ⟨m, hm, heq⟩ := List.mem_map.mp hmember
    cases heq
    exact h m hm

/-- A value within the limit is read back, so that only the refusal of other values is left to show. -/
lemma takesIf_elementValue_of_refuses {value : ElementValue} {level levels : Nat} (h : Value pool value bytes)
    (hlevels : level + levels = maxElementDepth + 1)
    (hrefuses : ¬ value.Within level → Refuses (elementValue pool levels) .nestingTooDeep bytes) :
    TakesIf (value.Within level) (elementValue pool levels) value bytes := by
  refine ⟨fun hwithin => ?_, hrefuses⟩
  have hle := hwithin.level_le
  obtain ⟨below, rfl⟩ : ∃ below, levels = below + 1 := ⟨levels - 1, by omega⟩
  exact takes_elementValue h hwithin (by omega)

lemma refuses_elementValue {value : ElementValue} {level levels : Nat} (h : Value pool value bytes)
    (hdeep : ¬ value.Within level) (hlevels : level + levels = maxElementDepth + 1) :
    Refuses (elementValue pool levels) .nestingTooDeep bytes := by
  induction h generalizing level levels with
  | constant | enumConstant | classLiteral =>
      cases levels with
      | zero => exact refuses_throw _ _
      | succ levels => exact absurd (by constructor; omega) hdeep
  | @nested type typeBytes members htype hnames hvalues hcount ih =>
      cases levels with
      | zero => exact refuses_throw _ _
      | succ levels =>
          have hnot : ¬ ∀ m ∈ members, m.value.Within (level + 2) :=
            fun hall => hdeep (.nested (by omega) (forall_members_iff.mpr hall))
          unfold elementValue
          refine (takes_u8 _).bind_refuses
            (((takesIf_annotationWith htype hnames (fun m hm => ?_) hcount).2 hnot).bind _)
          cases levels with
          | zero =>
              -- No level is left for any member.
              refine ⟨fun hwithin => ?_, fun _ => refuses_throw _ _⟩
              have hle := hwithin.level_le
              omega
          | succ below =>
              exact takesIf_elementValue_of_refuses (hvalues m hm) (by omega) fun hnot => ih m hm hnot (by omega)
  | @array pieces hpieces hcount ih =>
      cases levels with
      | zero => exact refuses_throw _ _
      | succ levels =>
          have hnot : ¬ ∀ piece ∈ pieces, piece.1.Within (level + 1) :=
            fun hall => hdeep (.array (by omega) (List.forall_mem_map.mpr hall))
          have hreads : ∀ piece ∈ pieces,
              TakesIf (piece.1.Within (level + 1)) (elementValue pool levels) piece.1 piece.2 := fun piece hp =>
            takesIf_elementValue_of_refuses (hpieces piece hp) (by omega) fun hnot => ih piece hp hnot (by omega)
          unfold elementValue
          exact (takes_u8 _).bind_refuses (((takesIf_counted hreads hcount).2 hnot).bind _)

/-- **A value is refused for its nesting exactly if too few levels are left for the values inside of it.** -/
lemma takesIf_elementValue {value : ElementValue} {level levels : Nat} (h : Value pool value bytes)
    (hlevels : level + levels = maxElementDepth + 1) :
    TakesIf (value.Within level) (elementValue pool levels) value bytes :=
  takesIf_elementValue_of_refuses h hlevels fun hdeep => refuses_elementValue h hdeep hlevels

lemma takesIf_defaultValue {value : ElementValue} (h : Value pool value bytes) :
    TakesIf (value.Within 0) (defaultValue pool) value bytes :=
  takesIf_elementValue h (Nat.zero_add _)

lemma takesIf_annotationUse {use : AnnotationUse} (h : Use pool use bytes) :
    TakesIf use.Within (annotationUse pool) use bytes := by
  obtain ⟨type, elements⟩ := use
  obtain ⟨typeBytes, members, htype, hmembers, hcount, helements, rfl⟩ := h
  subst helements
  have hreads : ∀ m ∈ members, TakesIf (m.value.Within 1) (elementValue pool maxElementDepth) m.value m.valueBytes :=
    fun m hm => takesIf_elementValue (hmembers m hm).2 (Nat.add_comm _ _)
  exact (takesIf_annotationWith htype (fun m hm => (hmembers m hm).1) hreads hcount).congr forall_members_iff

lemma takesIf_typeAnnotationUse {use : TypeAnnotationUse} (h : TypeUse pool use bytes) :
    TakesIf use.use.Within (typeAnnotationUse pool) use bytes := by
  obtain ⟨info, path, useBytes, hinfo, hpath, huse, rfl⟩ := h
  exact (takes_u8 _).bind_if ((takes_targetInfo hinfo).bind_if ((takes_path hpath).bind_if
    ((takesIf_annotationUse huse).bind_pure _)))

end Annotations

end Reader

/-! ## Attributes of any depth -/

namespace Layout

/-- The body of an attribute, in which annotation values may nest to any depth. -/
inductive DeepBody (pool : ConstantPool) : Attribute → List UInt8 → Prop
  | shallow {content : Attribute} {bytes : List UInt8} (h : Body pool content bytes) : DeepBody pool content bytes
  | annotations {visible : Bool} {uses : List AnnotationUse} {bytes : List UInt8} (h : Counted (Use pool) uses bytes) :
      DeepBody pool (.annotations visible uses) bytes
  | parameterAnnotations {visible : Bool} {parameters : List (List AnnotationUse)} {bytes : List UInt8}
      (h : ShortCounted (Counted (Use pool)) parameters bytes) :
      DeepBody pool (.parameterAnnotations visible parameters) bytes
  | typeAnnotations {visible : Bool} {uses : List TypeAnnotationUse} {bytes : List UInt8}
      (h : Counted (TypeUse pool) uses bytes) : DeepBody pool (.typeAnnotations visible uses) bytes
  | annotationDefault {value : ElementValue} {bytes : List UInt8} (h : Value pool value bytes) :
      DeepBody pool (.annotationDefault value) bytes
  | code {maxStack maxLocals : UInt16} {bytecode : List UInt8} {handlers : List ExceptionHandler}
      {handlerBytes : List UInt8} {entries : List Entry} (hlength : bytecode.length < 0x100000000)
      (hhandlers : Counted (Handler pool) handlers handlerBytes) (hcount : entries.length < 0x10000)
      (hentries : ∀ entry ∈ entries, entry.Fits pool)
      (hbodies : ∀ entry ∈ entries, DeepBody pool entry.content entry.body) :
      DeepBody pool (.code ⟨maxStack, maxLocals, bytecode, handlers, entries.map Entry.content⟩)
        (u2 maxStack.toNat ++ (u2 maxLocals.toNat ++ (u4 bytecode.length ++ bytecode ++
          (handlerBytes ++ (u2 entries.length ++ entries.flatMap Entry.bytes)))))

/-- The number of attributes and the attributes, in which annotation values may nest to any depth. -/
def DeepAttributes (pool : ConstantPool) (attributes : List Attribute) (bytes : List UInt8) : Prop :=
  ∃ entries : List Entry, (∀ entry ∈ entries, entry.Fits pool) ∧
    (∀ entry ∈ entries, DeepBody pool entry.content entry.body) ∧ entries.length < 0x10000 ∧
    attributes = entries.map Entry.content ∧ bytes = u2 entries.length ++ entries.flatMap Entry.bytes

lemma Body.within {pool : ConstantPool} {content : Attribute} {bytes : List UInt8} (h : Body pool content bytes) :
    content.Within := by
  induction h with
  | annotations _ hlevels => exact Attribute.within_annotations.mpr hlevels
  | parameterAnnotations _ hlevels => exact Attribute.within_parameterAnnotations.mpr hlevels
  | typeAnnotations _ hlevels => exact Attribute.within_typeAnnotations.mpr hlevels
  | annotationDefault _ hlevels => exact Attribute.within_annotationDefault.mpr hlevels
  | code _ _ _ _ _ ih => exact Attribute.within_code.mpr (List.forall_mem_map.mpr ih)
  | _ =>
      intro value level hholds
      cases hholds

end Layout

namespace Reader

open Layout

variable {pool : ConstantPool}

/-- An attribute with a known name is taken or refused as its body is. -/
lemma takesIf_known {attributes : Reader (List Attribute)} {nameBytes body : List UInt8} {value : Attribute}
    {content : Reader Attribute} {condition : Prop} (hfits : Entry.Fits pool ⟨value, nameBytes, body⟩)
    (hcontent : content? pool attributes (attributeName value) = some content)
    (hbody : TakesIf condition content value body) :
    TakesIf condition (attributeWith pool attributes) value (Entry.bytes ⟨value, nameBytes, body⟩) := by
  refine ⟨fun holds => takes_known hfits hcontent (hbody.1 holds), fun fails => ?_⟩
  obtain ⟨hname, hlength⟩ : TextIndex pool (attributeName value) nameBytes ∧ body.length < _ := hfits
  have hwhole : wholeBody (attributeName value) content body = .error .nestingTooDeep := by
    have hread := hbody.2 fails 0 []
    rw [List.append_nil] at hread
    rw [wholeBody, Cursor.start, hread]
    rfl
  refine (takes_utf8 hname).bind_refuses ((takes_sized hlength).bind_throw ?_)
  rw [hcontent]
  exact congrArg liftM hwhole

/-- **An attribute is refused for its nesting exactly if a value in it stands too deep**, as long as no fewer levels of
code are left than its body has bytes. -/
lemma takesIf_entry {content : Attribute} {body : List UInt8} (h : DeepBody pool content body) {levels : Nat}
    {nameBytes : List UInt8} (hfits : Entry.Fits pool ⟨content, nameBytes, body⟩) (hlevels : body.length ≤ levels) :
    TakesIf content.Within (attributeWith pool (attributesUpTo pool levels)) content
      (Entry.bytes ⟨content, nameBytes, body⟩) := by
  induction h generalizing levels nameBytes with
  | shallow h => exact ⟨fun _ => takes_entry h hfits hlevels, fun hdeep => absurd h.within hdeep⟩
  | @annotations visible _ _ h =>
      have hbody := takesIf_counted_of_layout (fun _ _ => takesIf_annotationUse) h
      cases visible <;> exact (takesIf_known hfits rfl (hbody.map _)).congr Attribute.within_annotations
  | @parameterAnnotations visible _ _ h =>
      have hbody := takesIf_shortCounted_of_layout
        (fun _ _ => takesIf_counted_of_layout fun _ _ => takesIf_annotationUse) h
      cases visible <;> exact (takesIf_known hfits rfl (hbody.map _)).congr Attribute.within_parameterAnnotations
  | @typeAnnotations visible _ _ h =>
      have hbody := takesIf_counted_of_layout (fun _ _ => takesIf_typeAnnotationUse) h
      cases visible <;> exact (takesIf_known hfits rfl (hbody.map _)).congr Attribute.within_typeAnnotations
  | annotationDefault h =>
      exact (takesIf_known hfits rfl ((takesIf_defaultValue h).map _)).congr Attribute.within_annotationDefault
  | @code _ _ _ _ _ entries hlength hhandlers hcount hentries hbodies ih =>
      have hhandlers' := takes_counted_of_layout (fun _ _ _ => takes_exceptionHandler) hhandlers
      -- The attributes inside of code lie within its body, next to other bytes of it.
      simp only [List.length_append, u2, List.length_cons, List.length_nil] at hlevels
      obtain ⟨below, rfl⟩ : ∃ below, levels = below + 1 := ⟨levels - 1, by omega⟩
      have hinner : ∀ entry ∈ entries, TakesIf entry.content.Within
          (attributeWith pool (attributesUpTo pool below)) entry.content entry.bytes := by
        intro entry he
        have hle := length_body_le he
        exact ih entry he (hentries entry he) (by omega)
      have hattributes := takesIf_counted hinner hcount
      refine (takesIf_known hfits rfl (TakesIf.map ((takes_u16 _).bind_if ((takes_u16 _).bind_if
        ((takes_sized hlength).bind_if (hhandlers'.bind_if (hattributes.bind_pure _))))) _)).congr ?_
      exact Attribute.within_code.trans List.forall_mem_map

lemma takesIf_attributes {values : List Attribute} {bytes : List UInt8} (h : DeepAttributes pool values bytes) :
    TakesIf (∀ content ∈ values, content.Within) (attributes pool) values bytes := by
  obtain ⟨entries, hfits, hbodies, hcount, rfl, rfl⟩ := h
  have hlevels : ∀ rest : List UInt8, TakesIf (∀ content ∈ entries.map Entry.content, content.Within)
      (attributesUpTo pool (((u2 entries.length ++ entries.flatMap Entry.bytes) ++ rest).length + 1))
      (entries.map Entry.content) (u2 entries.length ++ entries.flatMap Entry.bytes) := by
    intro rest
    refine (takesIf_counted (fun entry he => takesIf_entry (hbodies entry he) (hfits entry he) ?_) hcount).congr
      List.forall_mem_map
    have hle := length_body_le he
    simp only [List.length_append]
    omega
  exact ⟨fun holds position rest => (hlevels rest).1 holds position rest,
    fun fails position rest => (hlevels rest).2 fails position rest⟩

end Reader

/-- **The limit to the nesting of annotation values is exact.**

* Whatever is read as attributes, from any bytes, holds no annotation value beyond level 64.
* The bytes of a default value, of an annotation and of an annotation on a type are read back if all levels in them are
  up to 64, and refused for their nesting if not.
* So are the bytes of attributes, on code or not, whatever else is among them. -/
theorem nesting_limit_exact (pool : ConstantPool) :
    (∀ cursor attributes cursor', Reader.attributes pool cursor = .ok (attributes, cursor') →
      ∀ content ∈ attributes, LevelsUpTo 64 content.Holds) ∧
    (∀ value bytes, Layout.Value pool value bytes →
      Reader.TakesIf (LevelsUpTo 64 (value.Holds 0)) (Reader.defaultValue pool) value bytes) ∧
    (∀ use bytes, Layout.Use pool use bytes →
      Reader.TakesIf (LevelsUpTo 64 use.Holds) (Reader.annotationUse pool) use bytes) ∧
    (∀ use bytes, Layout.TypeUse pool use bytes →
      Reader.TakesIf (LevelsUpTo 64 use.use.Holds) (Reader.typeAnnotationUse pool) use bytes) ∧
    (∀ attributes bytes, Layout.DeepAttributes pool attributes bytes →
      Reader.TakesIf (∀ content ∈ attributes, LevelsUpTo 64 content.Holds) (Reader.attributes pool) attributes
        bytes) := by
  refine ⟨Reader.ensures_attributes pool, ?_, ?_, ?_, fun _ _ => Reader.takesIf_attributes⟩
  · exact fun value bytes h => (Reader.takesIf_defaultValue h).congr ElementValue.within_iff.symm
  · exact fun use bytes h => (Reader.takesIf_annotationUse h).congr AnnotationUse.within_iff.symm
  · exact fun use bytes h => (Reader.takesIf_typeAnnotationUse h).congr AnnotationUse.within_iff.symm

/-! Arrays inside of arrays, with a number in the innermost one. -/

def stackedArrays : Nat → ElementValue
  | 0 => .constant 73 1
  | count + 1 => .array [stackedArrays count]

def stackedBytes : Nat → List UInt8
  | 0 => [73, 0, 1]
  | count + 1 => [91, 0, 1] ++ stackedBytes count

/-- The name of the attribute is the only constant. -/
def defaultPool : ConstantPool :=
  ⟨#[none, some (.utf8 "AnnotationDefault")]⟩

def stackedEntry (count : Nat) : Layout.Entry :=
  ⟨.annotationDefault (stackedArrays count), [0, 1], stackedBytes count⟩

lemma length_stackedBytes (count : Nat) : (stackedBytes count).length = 3 * (count + 1) := by
  induction count with
  | zero => rfl
  | succ count ih =>
      rw [stackedBytes, List.length_append, ih, List.length_cons, List.length_cons, List.length_cons, List.length_nil]
      omega

lemma stackedArrays_layout (pool : ConstantPool) (count : Nat) :
    Layout.Value pool (stackedArrays count) (stackedBytes count) := by
  induction count with
  | zero => exact .constant ⟨'I', by decide, rfl⟩
  | succ count ih =>
      have hhead : ([91, 0, 1] : List UInt8) = UInt8.ofNat '['.toNat :: Layout.u2 1 := rfl
      have harray := @Layout.Value.array pool [(stackedArrays count, stackedBytes count)]
        (List.forall_mem_singleton.mpr ih) (by simp)
      rw [List.flatMap_singleton] at harray
      rw [stackedBytes, hhead]
      exact harray

lemma stackedEntry_layout {count : Nat} (hcount : count < 0x1000) :
    Layout.DeepAttributes defaultPool [(stackedEntry count).content] (Layout.u2 1 ++ (stackedEntry count).bytes) := by
  have hlength : (stackedBytes count).length < 0x100000000 := by
    rw [length_stackedBytes]
    omega
  refine ⟨[stackedEntry count], List.forall_mem_singleton.mpr ⟨⟨1, rfl, rfl⟩, hlength⟩,
    List.forall_mem_singleton.mpr (.annotationDefault (stackedArrays_layout _ count)), by simp, rfl, ?_⟩
  rw [List.flatMap_singleton, List.length_singleton]

lemma within_stackedArrays_iff {count start : Nat} :
    (stackedArrays count).Within start ↔ start + count ≤ Reader.maxElementDepth := by
  induction count generalizing start with
  | zero => exact ⟨fun h => h.level_le, .constant⟩
  | succ count ih =>
      constructor
      · rintro (_ | _ | _ | _ | ⟨_, hvalues⟩)
        have hinner := ih.mp (hvalues _ (List.mem_singleton.mpr rfl))
        omega
      · intro h
        exact .array (by omega) (List.forall_mem_singleton.mpr (ih.mpr (by omega)))

lemma levelsUpTo_stackedArrays_iff {count : Nat} : LevelsUpTo 64 ((stackedArrays count).Holds 0) ↔ count ≤ 64 := by
  refine ElementValue.within_iff.symm.trans (within_stackedArrays_iff.trans ?_)
  rw [Nat.zero_add, Reader.maxElementDepth]

lemma levelsUpTo_stackedEntry_iff {count : Nat} :
    (∀ content ∈ [(stackedEntry count).content], LevelsUpTo 64 content.Holds) ↔ count ≤ 64 := by
  rw [List.forall_mem_singleton, ← levelsUpTo_stackedArrays_iff]
  exact Attribute.within_annotationDefault.trans ElementValue.within_iff

theorem nesting_limit_exact_stacked :
    Reader.Takes (Reader.defaultValue defaultPool) (stackedArrays 64) (stackedBytes 64) ∧
    Reader.Refuses (Reader.defaultValue defaultPool) .nestingTooDeep (stackedBytes 65) ∧
    Reader.Takes (Reader.attributes defaultPool) [(stackedEntry 64).content] (Layout.u2 1 ++ (stackedEntry 64).bytes) ∧
    Reader.Refuses (Reader.attributes defaultPool) .nestingTooDeep (Layout.u2 1 ++ (stackedEntry 65).bytes) := by
  obtain ⟨-, hvalue, -, -, hattributes⟩ := nesting_limit_exact defaultPool
  have hvalues := fun count => hvalue _ _ (stackedArrays_layout defaultPool count)
  refine ⟨(hvalues 64).1 ?_, (hvalues 65).2 ?_, (hattributes _ _ (stackedEntry_layout ?_)).1 ?_,
    (hattributes _ _ (stackedEntry_layout ?_)).2 ?_⟩
  · exact levelsUpTo_stackedArrays_iff.mpr (by decide)
  · exact levelsUpTo_stackedArrays_iff.not.mpr (by decide)
  · decide
  · exact levelsUpTo_stackedEntry_iff.mpr (by decide)
  · decide
  · exact levelsUpTo_stackedEntry_iff.not.mpr (by decide)

end JarSurvey.ClassFile
