import JarSurvey.Proofs.ClassFile.Cursor

/-!
# Reading a class file undoes its layout

Each reader takes the bytes that the layout gives for a value, part by part up to the whole class, so that
**the bytes of a class are read as exactly that class** (`parse_layout`).

Two readers count down how deep they may still go, and have to be given enough:

* annotation values start with as many levels as `ElementValue.Within` allows (`takes_elementValue`);
* attributes of code start with more levels than there are bytes, and each level of code has bytes of its
  own around the attributes inside of it (`takes_entry`).
-/

namespace JarSurvey.ClassFile.Reader

open Layout

/-! ## The constant pool -/

/-- A text is read from any bytes that decode to it. -/
lemma takes_readText {text : String} {bytes : List UInt8} (slot : Nat)
    (htext : Text.ModifiedUtf8.decode bytes = some text) (h : bytes.length < 0x10000) :
    Takes (ConstantPool.readText slot) text (u2 bytes.length ++ bytes) := by
  refine (takes_count h).bind ?_
  rw [UInt16.toNat_ofNat_of_lt' h]
  refine (takes_take _).bind_nil ?_
  rw [htext]
  exact takes_pure text

/-- Every constant is read back from its tag and its operands. -/
lemma takes_readConstant {c : Constant} (slot : Nat) (h : textLength c < 0x10000) :
    Takes (ConstantPool.readConstant slot) c (constant c) := by
  cases c with
  | utf8 text => exact takes_tag ((takes_readText slot (Text.ModifiedUtf8.decode_encode text) h).bind_pure _)
  | integer value =>
      have hvalue := (takes_u32 value.toUInt32).bind_pure UInt32.toInt32
      rw [Int32.toInt32_toUInt32] at hvalue
      exact takes_tag (hvalue.bind_pure Constant.integer)
  | float bits => exact takes_tag ((takes_u32 bits).bind_pure _)
  | long value =>
      have hvalue := (takes_u64 value.toUInt64).bind_pure fun n => Constant.long n.toInt64
      rw [Int64.toInt64_toUInt64] at hvalue
      exact takes_tag hvalue
  | double bits => exact takes_tag ((takes_u64 bits).bind_pure _)
  | classRef name => exact takes_tag ((takes_u16 name).bind_pure _)
  | string text => exact takes_tag ((takes_u16 text).bind_pure _)
  | fieldRef owner nameAndType =>
      exact takes_tag ((takes_u16 owner).bind ((takes_u16 nameAndType).bind_pure _))
  | methodRef owner nameAndType =>
      exact takes_tag ((takes_u16 owner).bind ((takes_u16 nameAndType).bind_pure _))
  | interfaceMethodRef owner nameAndType =>
      exact takes_tag ((takes_u16 owner).bind ((takes_u16 nameAndType).bind_pure _))
  | nameAndType name descriptor =>
      exact takes_tag ((takes_u16 name).bind ((takes_u16 descriptor).bind_pure _))
  | methodHandle kind member =>
      exact takes_tag ((takes_u8 kind).bind ((takes_u16 member).bind_pure _))
  | methodType descriptor => exact takes_tag ((takes_u16 descriptor).bind_pure _)
  | dynamic bootstrap nameAndType =>
      exact takes_tag ((takes_u16 bootstrap).bind ((takes_u16 nameAndType).bind_pure _))
  | invokeDynamic bootstrap nameAndType =>
      exact takes_tag ((takes_u16 bootstrap).bind ((takes_u16 nameAndType).bind_pure _))
  | moduleRef name => exact takes_tag ((takes_u16 name).bind_pure _)
  | packageRef name => exact takes_tag ((takes_u16 name).bind_pure _)

lemma takes_readSlots {constants : List Constant} (slot : Nat)
    (h : ∀ c ∈ constants, textLength c < 0x10000) :
    Takes (ConstantPool.readSlots slot (constants.flatMap slots).length) (constants.flatMap slots)
      (constants.flatMap constant) := by
  induction constants generalizing slot with
  | nil =>
      rw [List.flatMap_nil, List.length_nil, ConstantPool.readSlots]
      exact takes_pure []
  | cons c constants ih =>
      have hfirst := takes_readConstant slot (h c List.mem_cons_self)
      have hrest := fun next => ih next fun d hd => h d (List.mem_cons_of_mem c hd)
      rw [List.flatMap_cons, List.flatMap_cons]
      by_cases hwide : c.isWide = true
      · rw [slots, if_pos hwide, List.length_append, Nat.add_comm,
          show [some c, none].length = 1 + 1 from rfl, ← Nat.add_assoc, ConstantPool.readSlots]
        refine hfirst.bind ?_
        rw [if_pos hwide]
        exact (hrest (slot + 2)).bind_pure fun rest => some c :: none :: rest
      · rw [slots, if_neg hwide, List.length_append, Nat.add_comm,
          show [some c].length = 1 from rfl, ConstantPool.readSlots]
        refine hfirst.bind ?_
        rw [if_neg hwide]
        exact (hrest (slot + 1)).bind_pure fun rest => some c :: rest

lemma takes_pool {pool : ConstantPool} {bytes : List UInt8} (h : Pool pool bytes) :
    Takes ConstantPool.read pool bytes := by
  obtain ⟨constants, hfits, hslots, hsize, rfl⟩ := h
  obtain ⟨poolSlots⟩ := pool
  subst hslots
  refine (takes_count hsize).bind ?_
  have hleft : (UInt16.ofNat (ConstantPool.size ⟨(none :: constants.flatMap slots).toArray⟩)).toNat - 1 =
      (constants.flatMap slots).length := by
    rw [UInt16.toNat_ofNat_of_lt' hsize]
    simp [ConstantPool.size]
  rw [hleft]
  exact (takes_readSlots 1 hfits).bind_pure fun found => ConstantPool.mk (none :: found).toArray

section Indices

variable {pool : ConstantPool} {bytes : List UInt8}

lemma takes_utf8 {text : String} (h : TextIndex pool text bytes) : Takes (utf8 pool) text bytes := by
  obtain ⟨index, hat, rfl⟩ := h
  exact (takes_u16 index).bind_nil (takes_lift (ConstantPool.utf8_eq_ok_iff.mpr hat))

lemma takes_className {name : String} (h : ClassIndex pool name bytes) :
    Takes (className pool) name bytes := by
  obtain ⟨index, hat, rfl⟩ := h
  exact (takes_u16 index).bind_nil (takes_lift (ConstantPool.className_eq_ok_iff.mpr hat))

lemma takes_optionalClassName {name : Option String} (h : OptionalClassIndex pool name bytes) :
    Takes (className? pool) name bytes := by
  cases name with
  | none =>
      rw [show bytes = u2 (0 : UInt16).toNat from h]
      exact (takes_u16 0).bind_nil (takes_lift rfl)
  | some name =>
      obtain ⟨index, hzero, hat, rfl⟩ := h
      refine (takes_u16 index).bind_nil (takes_lift ?_)
      rw [ConstantPool.className?, if_neg hzero, ConstantPool.className_eq_ok_iff.mpr hat]
      rfl

end Indices

/-! ## Annotations -/

section Attributes

variable {pool : ConstantPool} {bytes : List UInt8}

lemma takes_annotationWith {value : Reader ElementValue} {type : String} {typeBytes : List UInt8}
    {members : List MemberPiece} (htype : TextIndex pool type typeBytes)
    (hnames : ∀ m ∈ members, TextIndex pool m.name m.nameBytes)
    (hvalues : ∀ m ∈ members, Takes value m.value m.valueBytes) (hcount : members.length < 0x10000) :
    Takes (annotationWith pool value) (.mk type (members.map MemberPiece.element))
      (typeBytes ++ (u2 members.length ++ members.flatMap MemberPiece.bytes)) := by
  have hmembers : ∀ m ∈ members, Takes (annotationElement pool value) m.element m.bytes := by
    intro m hm
    exact (takes_utf8 (hnames m hm)).bind ((hvalues m hm).bind_pure _)
  exact (takes_utf8 htype).bind ((takes_counted hmembers hcount).bind_pure _)

lemma isConstantTag_of_mem {tag : UInt8} (h : ∃ c ∈ "BCDFIJSZs".toList, tag.toNat = c.toNat) :
    isConstantTag tag = true := by
  obtain ⟨c, hc, htag⟩ := h
  exact List.any_eq_true.mpr ⟨c, hc, by simp [htag]⟩

/-- **A value is read back if enough levels are left for the values inside of it.** -/
lemma takes_elementValue {value : ElementValue} {level levels : Nat} (h : Value pool value bytes)
    (hwithin : value.Within level) (hlevels : level + levels = maxElementDepth) :
    Takes (elementValue pool (levels + 1)) value bytes := by
  induction h generalizing level levels with
  | constant htag =>
      unfold elementValue
      refine takes_tag ?_
      rw [if_pos (isConstantTag_of_mem htag)]
      exact (takes_u16 _).bind_pure _
  | enumConstant htype hname =>
      unfold elementValue
      exact takes_tag ((takes_utf8 htype).bind ((takes_utf8 hname).bind_pure _))
  | classLiteral h =>
      unfold elementValue
      exact takes_tag ((takes_utf8 h).bind_pure _)
  | nested htype hnames hvalues hcount ih =>
      cases hwithin with
      | nested _ hmembers =>
          unfold elementValue
          refine takes_tag ((takes_annotationWith htype hnames ?_ hcount).bind_pure _)
          intro m hm
          have hm' := hmembers m.name m.value (List.mem_map_of_mem hm)
          have hle := hm'.level_le
          obtain ⟨below, rfl⟩ : ∃ below, levels = below + 2 := ⟨levels - 2, by omega⟩
          exact ih m hm hm' (by omega)
  | array hpieces hcount ih =>
      cases hwithin with
      | array _ hvalues =>
          unfold elementValue
          refine takes_tag ((takes_counted ?_ hcount).bind_pure _)
          intro piece hp
          have hp' := hvalues piece.1 (List.mem_map_of_mem hp)
          have hle := hp'.level_le
          obtain ⟨below, rfl⟩ : ∃ below, levels = below + 1 := ⟨levels - 1, by omega⟩
          exact ih piece hp hp' (by omega)

lemma takes_defaultValue {value : ElementValue} (h : Value pool value bytes) (hwithin : value.Within 0) :
    Takes (defaultValue pool) value bytes :=
  takes_elementValue h hwithin (Nat.zero_add _)

lemma takes_annotationUse {use : AnnotationUse} (h : Use pool use bytes) (hwithin : use.Within) :
    Takes (annotationUse pool) use bytes := by
  obtain ⟨type, elements⟩ := use
  obtain ⟨typeBytes, members, htype, hmembers, hcount, helements, rfl⟩ := h
  subst helements
  refine takes_annotationWith htype (fun m hm => (hmembers m hm).1) (fun m hm => ?_) hcount
  exact takes_elementValue (hmembers m hm).2 (hwithin m.name m.value (List.mem_map_of_mem hm))
    (show 1 + 63 = maxElementDepth from rfl)

lemma takes_targetInfo {target : UInt8} (h : TargetInfo target bytes) :
    Takes (targetInfo target) () bytes := by
  unfold targetInfo
  dsimp only
  cases h with
  | typeParameter h | formalParameter h =>
      rw [if_pos (by omega)]
      exact takes_skip rfl
  | supertype h | typeParameterBound h | throws h | handler h | offset h =>
      rw [if_neg (by omega), if_pos (by omega)]
      exact takes_skip rfl
  | empty h =>
      rw [if_neg (by omega), if_neg (by omega), if_pos (by omega)]
      exact takes_pure ()
  | localVariables h hranges =>
      rw [if_neg (by omega), if_neg (by omega), if_neg (by omega), if_pos (by omega)]
      exact (takes_u16 _).bind (takes_skip hranges)
  | typeArgument h =>
      rw [if_neg (by omega), if_neg (by omega), if_neg (by omega), if_neg (by omega), if_pos (by omega)]
      exact takes_skip rfl

lemma takes_path {path : List (UInt8 × UInt8)}
    (h : ShortCounted (fun step bytes => bytes = [step.1, step.2]) path bytes) :
    Takes (shortCounted pathStep) path bytes := by
  refine takes_shortCounted_of_layout (fun step _ bytes hstep => ?_) h
  subst hstep
  exact (takes_u8 step.1).bind ((takes_u8 step.2).bind_pure _)

lemma takes_typeAnnotationUse {use : TypeAnnotationUse} (h : TypeUse pool use bytes)
    (hwithin : use.use.Within) : Takes (typeAnnotationUse pool) use bytes := by
  obtain ⟨info, path, useBytes, hinfo, hpath, huse, rfl⟩ := h
  exact takes_tag ((takes_targetInfo hinfo).bind ((takes_path hpath).bind
    ((takes_annotationUse huse hwithin).bind_pure _)))

/-! ## Stack maps and code -/

lemma takes_verificationType {type : VerificationType} (h : Verification pool type bytes) :
    Takes (verificationType pool) type bytes := by
  cases type with
  | top | integer | float | double | long | null | uninitializedThis =>
      cases h
      exact takes_tag (takes_pure _)
  | object name =>
      obtain ⟨index, hclass, rfl⟩ := h
      exact takes_tag ((takes_className hclass).bind_pure _)
  | uninitialized offset =>
      cases h
      exact takes_tag ((takes_u16 offset).bind_pure _)

lemma takes_one {α : Type} {item : Reader α} {value : α} (h : Takes item value bytes) :
    Takes (many item 1) [value] bytes :=
  h.bind_nil ((takes_pure []).bind_pure _)

/-- The distance from the frame before is passed over. -/
lemma takes_distance {α : Type} {next : Unit → Reader α} {value : α} {a b : UInt8} {more : List UInt8}
    (h : Takes (next ()) value more) : Takes (skip 2 >>= next) value (a :: b :: more) := by
  have hskip : Takes (skip 2) () [a, b] := takes_skip rfl
  exact hskip.bind h

lemma takes_frame {frame : Frame} (h : StackFrame pool frame bytes) :
    Takes (Reader.frame pool) frame bytes := by
  have hmany : ∀ types : List VerificationType, ∀ type ∈ types, ∀ bytes,
      Verification pool type bytes → Takes (verificationType pool) type bytes :=
    fun _ _ _ _ => takes_verificationType
  unfold Reader.frame
  dsimp only
  cases h with
  | same h =>
      refine takes_tag ?_
      rw [if_pos h]
      exact takes_pure _
  | sameOneItem h hitem =>
      refine takes_tag ?_
      rw [if_neg (by omega), if_pos h.2]
      exact (takes_one (takes_verificationType hitem)).bind_pure _
  | sameOneItemExtended hitem =>
      refine takes_tag ?_
      rw [if_neg (by decide), if_neg (by decide), if_neg (by decide)]
      refine takes_distance ?_
      rw [if_pos (by decide)]
      exact (takes_one (takes_verificationType hitem)).bind_pure _
  | chop h =>
      refine takes_tag ?_
      rw [if_neg (by omega), if_neg (by omega), if_neg (by omega)]
      refine takes_distance ?_
      rw [if_neg (by omega), if_pos (by omega)]
      exact takes_pure _
  | sameExtended =>
      refine takes_tag ?_
      rw [if_neg (by decide), if_neg (by decide), if_neg (by decide)]
      refine takes_distance ?_
      rw [if_neg (by decide), if_pos (by decide)]
      exact takes_pure _
  | append h hcount hlocals =>
      refine takes_tag ?_
      rw [if_neg (by omega), if_neg (by omega), if_neg (by omega)]
      refine takes_distance ?_
      rw [if_neg (by omega), if_neg (by omega), if_pos (by omega), ← hcount]
      exact (takes_many_of_layout (hmany _) hlocals).bind_pure _
  | full hlocals hstack =>
      refine takes_tag ?_
      rw [if_neg (by decide), if_neg (by decide), if_neg (by decide)]
      refine takes_distance ?_
      rw [if_neg (by decide), if_neg (by decide), if_neg (by decide)]
      exact (takes_counted_of_layout (hmany _) hlocals).bind
        ((takes_counted_of_layout (hmany _) hstack).bind_pure _)

lemma takes_exceptionHandler {handler : ExceptionHandler} (h : Handler pool handler bytes) :
    Takes (exceptionHandler pool) handler bytes := by
  obtain ⟨catchBytes, hcatch, rfl⟩ := h
  exact (takes_u16 _).bind ((takes_u16 _).bind ((takes_u16 _).bind
    ((takes_optionalClassName hcatch).bind_pure _)))

lemma takes_bootstrapMethod {method : BootstrapMethod} (h : Bootstrap method bytes) :
    Takes bootstrapMethod method bytes := by
  obtain ⟨arguments, harguments, rfl⟩ := h
  have harguments' : Takes (counted u16) method.arguments arguments := by
    refine takes_counted_of_layout (fun index _ bytes hindex => ?_) harguments
    subst hindex
    exact takes_u16 index
  exact (takes_u16 _).bind (harguments'.bind_pure _)

/-! ## Attributes -/

lemma wholeBody_eq {name : String} {content : Reader Attribute} {value : Attribute} {body : List UInt8}
    (h : Takes content value body) : wholeBody name content body = .ok value := by
  have hread := h 0 []
  rw [List.append_nil] at hread
  rw [wholeBody, Cursor.start, hread]
  rfl

section Entries

variable {attributes : Reader (List Attribute)} {nameBytes body : List UInt8}

/-- An attribute with a known name is read back if its body is. -/
lemma takes_known {value : Attribute} {content : Reader Attribute}
    (hfits : Entry.Fits pool ⟨value, nameBytes, body⟩)
    (hcontent : content? pool attributes (attributeName value) = some content)
    (hbody : Takes content value body) :
    Takes (attributeWith pool attributes) value (Entry.bytes ⟨value, nameBytes, body⟩) := by
  obtain ⟨hname, hlength⟩ : TextIndex pool (attributeName value) nameBytes ∧ body.length < _ := hfits
  refine (takes_utf8 hname).bind ((takes_sized hlength).bind_nil ?_)
  rw [hcontent]
  exact takes_lift (wholeBody_eq hbody)

lemma content?_eq_none {name : String} (h : name ∉ knownNames) :
    content? pool attributes name = none := by
  unfold content?
  split <;> first | rfl | exact absurd (by decide) h

/-- An attribute with any other name is read back whatever its body holds. -/
lemma takes_other {name : String} (hfits : Entry.Fits pool ⟨.other name, nameBytes, body⟩)
    (hunknown : name ∉ knownNames) :
    Takes (attributeWith pool attributes) (.other name) (Entry.bytes ⟨.other name, nameBytes, body⟩) := by
  obtain ⟨hname, hlength⟩ : TextIndex pool name nameBytes ∧ body.length < _ := hfits
  refine (takes_utf8 hname).bind ((takes_sized hlength).bind_nil ?_)
  rw [content?_eq_none hunknown]
  exact takes_pure _

end Entries

lemma length_body_le {entries : List Entry} {entry : Entry} (h : entry ∈ entries) :
    entry.body.length ≤ (entries.flatMap Entry.bytes).length := by
  induction entries with
  | nil => cases h
  | cons first entries ih =>
      rw [List.flatMap_cons, List.length_append]
      rcases List.mem_cons.mp h with rfl | h
      · simp only [Entry.bytes, List.length_append]
        omega
      · have := ih h
        omega

/-- **An attribute is read back if more levels are left than its body has bytes.** -/
lemma takes_entry {content : Attribute} {body : List UInt8} (h : Body pool content body) {levels : Nat}
    {nameBytes : List UInt8} (hfits : Entry.Fits pool ⟨content, nameBytes, body⟩)
    (hlevels : body.length ≤ levels) :
    Takes (attributeWith pool (attributesUpTo pool levels)) content
      (Entry.bytes ⟨content, nameBytes, body⟩) := by
  induction h generalizing levels nameBytes with
  | signature h => exact takes_known hfits rfl ((takes_utf8 h).map _)
  | constantValue => exact takes_known hfits rfl ((takes_u16 _).map _)
  | exceptions h =>
      exact takes_known hfits rfl ((takes_counted_of_layout (fun _ _ _ => takes_className) h).map _)
  | @code _ _ _ _ _ entries hlength hhandlers hcount hentries hbodies ih =>
      refine takes_known hfits rfl (Takes.map ?_ _)
      have hhandlers' := takes_counted_of_layout (fun _ _ _ => takes_exceptionHandler) hhandlers
      -- The attributes inside of code lie within its body, next to other bytes of it.
      simp only [List.length_append, u2, List.length_cons, List.length_nil] at hlevels
      obtain ⟨below, rfl⟩ : ∃ below, levels = below + 1 := ⟨levels - 1, by omega⟩
      have hinner : ∀ entry ∈ entries, Takes (attributeWith pool (attributesUpTo pool below)) entry.content
          entry.bytes := by
        intro entry he
        have hle := length_body_le he
        exact ih entry he (hentries entry he) (by omega)
      have hattributes := takes_counted hinner hcount
      exact (takes_u16 _).bind ((takes_u16 _).bind ((takes_sized hlength).bind (hhandlers'.bind
        (hattributes.bind_pure _))))
  | @annotations visible _ _ h hwithin =>
      have hbody := takes_counted_of_layout (fun use hu _ hb => takes_annotationUse hb (hwithin use hu)) h
      cases visible <;> exact takes_known hfits rfl (hbody.map _)
  | @parameterAnnotations visible _ _ h hwithin =>
      have hbody := takes_shortCounted_of_layout (fun uses hus _ hb => takes_counted_of_layout
        (fun use hu _ hb => takes_annotationUse hb (hwithin uses hus use hu)) hb) h
      cases visible <;> exact takes_known hfits rfl (hbody.map _)
  | @typeAnnotations visible _ _ h hwithin =>
      have hbody := takes_counted_of_layout
        (fun use hu _ hb => takes_typeAnnotationUse hb (hwithin use hu)) h
      cases visible <;> exact takes_known hfits rfl (hbody.map _)
  | annotationDefault h hwithin => exact takes_known hfits rfl ((takes_defaultValue h hwithin).map _)
  | bootstrapMethods h =>
      exact takes_known hfits rfl
        ((takes_counted_of_layout (fun _ _ _ => takes_bootstrapMethod) h).map _)
  | stackMapTable h =>
      exact takes_known hfits rfl ((takes_counted_of_layout (fun _ _ _ => takes_frame) h).map _)
  | other hname => exact takes_other hfits hname

lemma takes_attributes {values : List Attribute} (h : Attributes pool values bytes) :
    Takes (attributes pool) values bytes := by
  obtain ⟨entries, hfits, hbodies, hcount, rfl, rfl⟩ := h
  intro position rest
  have hentries : ∀ entry ∈ entries, Takes (attributeWith pool (attributesUpTo pool
      ((u2 entries.length ++ entries.flatMap Entry.bytes) ++ rest).length)) entry.content entry.bytes := by
    intro entry he
    have hle := length_body_le he
    refine takes_entry (hbodies entry he) (hfits entry he) ?_
    simp only [List.length_append]
    omega
  exact takes_counted hentries hcount position rest

/-! ## Classes -/

lemma takes_member {member : Member} (h : Layout.Member pool member bytes) :
    Takes (Reader.member pool) member bytes := by
  obtain ⟨nameBytes, descriptorBytes, attributeBytes, hname, hdescriptor, hattributes, rfl⟩ := h
  exact (takes_u16 _).bind ((takes_utf8 hname).bind ((takes_utf8 hdescriptor).bind
    ((takes_attributes hattributes).bind_pure _)))

end Attributes

lemma takes_header : Takes header () (u4 0xCAFEBABE) :=
  (takes_u32 magic).bind_nil (takes_pure ())

lemma takes_classFile {file : ClassFile} {bytes : List UInt8} (h : File file bytes) :
    Takes classFile file bytes := by
  obtain ⟨poolBytes, nameBytes, superBytes, interfaces, fields, methods, attributeBytes, hpool, hname,
    hsuper, hinterfaces, hfields, hmethods, hattributes, rfl⟩ := h
  have hinterfaces' := takes_counted_of_layout (fun _ _ _ => takes_className) hinterfaces
  have hfields' := takes_counted_of_layout (fun _ _ _ => takes_member) hfields
  have hmethods' := takes_counted_of_layout (fun _ _ _ => takes_member) hmethods
  exact takes_header.bind ((takes_u16 _).bind ((takes_u16 _).bind ((takes_pool hpool).bind
    ((takes_u16 _).bind ((takes_className hname).bind ((takes_optionalClassName hsuper).bind
      (hinterfaces'.bind (hfields'.bind (hmethods'.bind
        ((takes_attributes hattributes).bind_pure _))))))))))

end JarSurvey.ClassFile.Reader

namespace JarSurvey.ClassFile

/-- **The bytes of a class are read as exactly that class.** -/
theorem parse_layout {file : ClassFile} {bytes : List UInt8} (h : Layout.File file bytes) :
    parse bytes = .ok file := by
  have hread := Reader.takes_classFile h 0 []
  rw [List.append_nil] at hread
  rw [parse, Cursor.start, hread]
  rfl

/-! A class with a name that needs the long forms of modified UTF-8, a constant of two slots, a method whose
code has a handler and an attribute of no known name, and an annotation whose member is an array. -/

def sampleConstants : List Constant :=
  [.utf8 "A\x00😀", .classRef 1, .utf8 "Code", .utf8 "m", .utf8 "()V", .long (-2),
    .utf8 "LineNumberTable", .utf8 "RuntimeVisibleAnnotations", .utf8 "LT;"]

def sampleCode : Attribute :=
  .code ⟨0, 1, [0xB1], [⟨0, 1, 0, some "A\x00😀"⟩], [.other "LineNumberTable"]⟩

def sampleFile : ClassFile where
  minor := 0
  major := 65
  pool := ⟨(none :: sampleConstants.flatMap Layout.slots).toArray⟩
  access := 0x0021
  name := "A\x00😀"
  superclass := none
  interfaces := []
  fields := []
  methods := [⟨0x0009, "m", "()V", [sampleCode]⟩]
  attributes := [.annotations true [.mk "LT;" [.mk "m" (.array [.constant 74 6])]]]

def sampleCodeBytes : List UInt8 :=
  [0, 0, 0, 1, 0, 0, 0, 1, 0xB1, 0, 1, 0, 0, 0, 1, 0, 0, 0, 2, 0, 1, 0, 8, 0, 0, 0, 3, 9, 9, 9]

def sampleBytes : List UInt8 :=
  [0xCA, 0xFE, 0xBA, 0xBE, 0, 0, 0, 65] ++ ([0, 11] ++ sampleConstants.flatMap Layout.constant) ++
    [0, 0x21, 0, 2, 0, 0, 0, 0, 0, 0] ++ [0, 1, 0, 9, 0, 4, 0, 5, 0, 1, 0, 3, 0, 0, 0, 30] ++
    sampleCodeBytes ++ [0, 1, 0, 9, 0, 0, 0, 14, 0, 1, 0, 10, 0, 1, 0, 4, 91, 0, 1, 74, 0, 6]

lemma sampleHandler_layout :
    Layout.Handler sampleFile.pool ⟨0, 1, 0, some "A\x00😀"⟩ [0, 0, 0, 1, 0, 0, 0, 2] :=
  ⟨[0, 2], ⟨2, by decide, ⟨1, rfl, rfl⟩, rfl⟩, rfl⟩

lemma sampleCode_layout : Layout.Body sampleFile.pool sampleCode sampleCodeBytes := by
  have hhandlers : Layout.Counted (Layout.Handler sampleFile.pool) [⟨0, 1, 0, some "A\x00😀"⟩]
      [0, 1, 0, 0, 0, 1, 0, 0, 0, 2] :=
    ⟨_, ⟨[(_, _)], List.forall_mem_singleton.mpr sampleHandler_layout, rfl, rfl⟩, by decide, rfl⟩
  let lines : Layout.Entry := ⟨.other "LineNumberTable", [0, 8], [9, 9, 9]⟩
  have hlines : lines.Fits sampleFile.pool := ⟨⟨8, rfl, rfl⟩, by decide⟩
  have hunknown : "LineNumberTable" ∉ Layout.knownNames := by decide
  have hcode := @Layout.Body.code _ 0 1 [0xB1] _ _ [lines] (by decide) hhandlers (by decide)
    (List.forall_mem_singleton.mpr hlines) (List.forall_mem_singleton.mpr (.other hunknown))
  have hbytes : sampleCodeBytes = Layout.u2 0 ++ (Layout.u2 1 ++ (Layout.u4 1 ++ [0xB1] ++
      ([0, 1, 0, 0, 0, 1, 0, 0, 0, 2] ++ (Layout.u2 1 ++ lines.bytes)))) := by decide
  rw [hbytes]
  exact hcode

lemma sampleUse_layout : Layout.Use sampleFile.pool (.mk "LT;" [.mk "m" (.array [.constant 74 6])])
    [0, 10, 0, 1, 0, 4, 91, 0, 1, 74, 0, 6] := by
  have hconstant : Layout.Value sampleFile.pool (.constant 74 6) [74, 0, 6] :=
    .constant ⟨'J', by decide, rfl⟩
  have harray : Layout.Value sampleFile.pool (.array [.constant 74 6]) [91, 0, 1, 74, 0, 6] :=
    @Layout.Value.array _ [(.constant 74 6, [74, 0, 6])] (List.forall_mem_singleton.mpr hconstant)
      (by decide)
  exact ⟨[0, 10], [⟨"m", [0, 4], .array [.constant 74 6], [91, 0, 1, 74, 0, 6]⟩], ⟨10, rfl, rfl⟩,
    List.forall_mem_singleton.mpr ⟨⟨4, rfl, rfl⟩, harray⟩, by decide, rfl, rfl⟩

lemma sampleUse_within :
    AnnotationUse.Within (.mk "LT;" [.mk "m" (.array [.constant 74 6])]) := by
  intro name value h
  obtain ⟨rfl, rfl⟩ := AnnotationElement.mk.inj (List.mem_singleton.mp h)
  exact .array (by decide) (List.forall_mem_singleton.mpr (.constant (by decide)))

lemma sampleFile_layout : Layout.File sampleFile sampleBytes := by
  have hpool : Layout.Pool sampleFile.pool ([0, 11] ++ sampleConstants.flatMap Layout.constant) :=
    ⟨sampleConstants, by decide, rfl, by decide, rfl⟩
  let code : Layout.Entry := ⟨sampleCode, [0, 3], sampleCodeBytes⟩
  have hcode : code.Fits sampleFile.pool := ⟨⟨3, rfl, rfl⟩, by decide⟩
  have hmethod : Layout.Member sampleFile.pool ⟨0x0009, "m", "()V", [sampleCode]⟩
      ([0, 9, 0, 4, 0, 5] ++ ([0, 1] ++ [code].flatMap Layout.Entry.bytes)) :=
    ⟨[0, 4], [0, 5], _, ⟨4, rfl, rfl⟩, ⟨5, rfl, rfl⟩, ⟨[code], List.forall_mem_singleton.mpr hcode,
      List.forall_mem_singleton.mpr sampleCode_layout, by decide, rfl, rfl⟩, by decide⟩
  let uses : Layout.Entry := ⟨.annotations true [.mk "LT;" [.mk "m" (.array [.constant 74 6])]], [0, 9],
    [0, 1, 0, 10, 0, 1, 0, 4, 91, 0, 1, 74, 0, 6]⟩
  have huses : uses.Fits sampleFile.pool := ⟨⟨9, rfl, rfl⟩, by decide⟩
  have hbody : Layout.Body sampleFile.pool uses.content uses.body :=
    .annotations ⟨_, ⟨[(_, _)], List.forall_mem_singleton.mpr sampleUse_layout, rfl, rfl⟩, by decide, rfl⟩
      (List.forall_mem_singleton.mpr sampleUse_within)
  exact ⟨_, [0, 2], [0, 0], [0, 0], [0, 0], _, _, hpool, ⟨2, ⟨1, rfl, rfl⟩, rfl⟩, rfl,
    ⟨[], ⟨[], by simp, rfl, rfl⟩, by decide, rfl⟩, ⟨[], ⟨[], by simp, rfl, rfl⟩, by decide, rfl⟩,
    ⟨_, ⟨[(_, _)], List.forall_mem_singleton.mpr hmethod, rfl, rfl⟩, by decide, rfl⟩,
    ⟨[uses], List.forall_mem_singleton.mpr huses, List.forall_mem_singleton.mpr hbody, by decide, rfl,
      rfl⟩, by decide +kernel⟩

theorem parse_layout_sample :
    Layout.File sampleFile sampleBytes ∧ parse sampleBytes = .ok sampleFile :=
  ⟨sampleFile_layout, parse_layout sampleFile_layout⟩

end JarSurvey.ClassFile
