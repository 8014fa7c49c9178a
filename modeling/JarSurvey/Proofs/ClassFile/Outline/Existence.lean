import JarSurvey.Proofs.ClassFile.Outline.Reading

/-!
# Every class file has an outline

Whatever a reader takes is laid out in the way of that reader (`LaidOut`).  From the constants to the class as a whole,
the layout of what was taken is that of an outline that fits its fields, so a class that is read at all has an outline
(**`exists_outline`**).  Together with `parse_outline_iff` this says that outlines leave no class out.
-/

namespace JarSurvey.ClassFile.Reader

open Layout

/-! ## The constant pool -/

lemma laidOut_readText (slot : Nat) :
    LaidOut (ConstantPool.readText slot) fun text bytes => ∃ body, bytes = u2 body.length ++ body ∧
      Text.ModifiedUtf8.decode body = some text ∧ body.length < 0x10000 := by
  refine LaidOut.mono (laidOut_u16.bind fun length => (laidOut_take length.toNat).bind_with
    (fun body text bytes => bytes = [] ∧ Text.ModifiedUtf8.decode body = some text) fun body => ?_) ?_
  · split
    · next found hfound =>
      refine (laidOut_pure found).mono fun text bytes h => ?_
      exact ⟨h.1, by rw [hfound, h.2]⟩
    · exact laidOut_throw _
  · rintro text bytes ⟨length, _, _, rfl, rfl, body, _, _, rfl, ⟨rfl, hlength⟩, rfl, htext⟩
    exact ⟨_, by rw [hlength, List.append_nil], htext, hlength ▸ length.toNat_lt⟩

/-- A constant with the tag of its kind and its operand is spelled as its layout says. -/
lemma laidOut_operand {α : Type} {operand : Reader α} {layout : α → List UInt8} {tag : UInt8} {n : Nat}
    (htag : tag.toNat = n) (h : LaidOut operand fun a bytes => bytes = layout a) (f : α → Constant)
    (hother : ∀ a text, f a ≠ .utf8 text) (hlayout : ∀ a, constant (f a) = UInt8.ofNat n :: layout a) :
    LaidOut (operand >>= fun a => pure (f a)) fun value bytes => Spells value (tag :: bytes) := by
  refine (h.bind_pure f).mono ?_
  rintro value bytes ⟨a, rfl, rfl⟩
  rw [← UInt8.ofNat_toNat (x := tag), htag, ← hlayout]
  exact .other (hother a)

lemma laidOut_operands {α β : Type} {first : Reader α} {second : Reader β} {layout : α → List UInt8}
    {layout' : β → List UInt8} {tag : UInt8} {n : Nat} (htag : tag.toNat = n)
    (hfirst : LaidOut first fun a bytes => bytes = layout a) (hsecond : LaidOut second fun b bytes => bytes = layout' b)
    (f : α → β → Constant) (hother : ∀ a b text, f a b ≠ .utf8 text)
    (hlayout : ∀ a b, constant (f a b) = UInt8.ofNat n :: (layout a ++ layout' b)) :
    LaidOut (first >>= fun a => second >>= fun b => pure (f a b)) fun value bytes => Spells value (tag :: bytes) := by
  refine (hfirst.bind fun a => hsecond.bind_pure (f a)).mono ?_
  rintro value bytes ⟨a, _, _, rfl, rfl, b, rfl, rfl⟩
  rw [← UInt8.ofNat_toNat (x := tag), htag, ← hlayout]
  exact .other (hother a b)

lemma laidOut_readConstant (slot : Nat) : LaidOut (ConstantPool.readConstant slot) Spells := by
  have hsigned : LaidOut i32 fun n bytes => bytes = u4 n.toUInt32.toNat := by
    refine (laidOut_u32.bind_pure UInt32.toInt32).mono ?_
    rintro _ bytes ⟨n, rfl, rfl⟩
    rfl
  refine LaidOut.mono (laidOut_u8.bind_with (fun tag value bytes => Spells value (tag :: bytes)) fun tag => ?_) ?_
  -- The kinds of constants, put together by what follows the tag.
  · split
    case h_1 htag =>
      refine ((laidOut_readText slot).bind_pure _).mono ?_
      rintro value bytes ⟨text, ⟨body, rfl, hdecode, hlength⟩, rfl⟩
      obtain rfl : tag = 1 := UInt8.toNat_inj.mp htag
      exact .text hdecode hlength
    case h_2 htag => exact laidOut_operand htag hsigned _ (fun _ _ => Constant.noConfusion) fun _ => rfl
    case h_3 htag => exact laidOut_operand htag laidOut_u32 _ (fun _ _ => Constant.noConfusion) fun _ => rfl
    case h_4 htag | h_5 htag =>
      exact laidOut_operand htag laidOut_u64 _ (fun _ _ => Constant.noConfusion) fun _ => rfl
    case h_6 htag | h_7 htag | h_13 htag | h_16 htag | h_17 htag =>
      exact laidOut_operand htag laidOut_u16 _ (fun _ _ => Constant.noConfusion) fun _ => rfl
    case h_8 htag | h_9 htag | h_10 htag | h_11 htag | h_14 htag | h_15 htag =>
      exact laidOut_operands htag laidOut_u16 laidOut_u16 _ (fun _ _ _ => Constant.noConfusion) fun _ _ => rfl
    case h_12 htag =>
      exact laidOut_operands htag laidOut_u8 laidOut_u16 _ (fun _ _ _ => Constant.noConfusion) fun _ _ => rfl
    case h_18 => exact laidOut_throw _
  · rintro value bytes ⟨tag, _, rest, rfl, rfl, h⟩
    exact h

/-- The slots that are filled are those of the constants, and they are as many as there were left to fill. -/
lemma laidOut_readSlots (slot left : Nat) :
    LaidOut (ConstantPool.readSlots slot left) fun found bytes => ∃ constants : List SpelledConstant,
      found = constants.flatMap (fun piece => slots piece.value) ∧
      bytes = constants.flatMap SpelledConstant.bytes ∧ Counts left found := by
  fun_induction ConstantPool.readSlots slot left with
  | case1 =>
      refine (laidOut_pure []).mono ?_
      rintro found bytes ⟨rfl, rfl⟩
      exact ⟨[], rfl, rfl, counts_nil_iff.mpr rfl⟩
  | case2 slot left ihwide ih =>
      refine LaidOut.mono ((laidOut_readConstant slot).bind_with (fun value found bytes =>
        ∃ constants : List SpelledConstant,
          found = slots value ++ constants.flatMap (fun piece => slots piece.value) ∧
          bytes = constants.flatMap SpelledConstant.bytes ∧ Counts (if value.isWide then left - 1 else left)
            (constants.flatMap fun piece => slots piece.value)) fun value => ?_) ?_
      -- Whether the constant is wide decides how many slots are left, and the count follows it.
      · rw [slots]
        split
        · refine (ihwide.bind_pure _).mono ?_
          rintro found bytes ⟨_, ⟨constants, rfl, rfl, hcounts⟩, rfl⟩
          exact ⟨constants, rfl, rfl, hcounts⟩
        · refine (ih.bind_pure _).mono ?_
          rintro found bytes ⟨_, ⟨constants, rfl, rfl, hcounts⟩, rfl⟩
          exact ⟨constants, rfl, rfl, hcounts⟩
      · rintro found bytes ⟨value, first, _, rfl, hspells, constants, rfl, rfl, hcounts⟩
        refine ⟨⟨value, first, hspells⟩ :: constants, rfl, rfl, ?_⟩
        exact (counts_slots_append_iff (head?_flatMap_slots constants)).mpr ⟨left, rfl, hcounts⟩

lemma laidOut_pool :
    LaidOut ConstantPool.read fun pool bytes => ∃ (count : UInt16) (constants : List SpelledConstant),
      pool = ⟨(slotsOf constants).toArray⟩ ∧ Counts count.toNat (slotsOf constants) ∧
      bytes = u2 count.toNat ++ constants.flatMap SpelledConstant.bytes := by
  refine (laidOut_u16.bind fun count => (laidOut_readSlots 1 (count.toNat - 1)).bind_pure _).mono ?_
  rintro pool bytes ⟨count, _, _, rfl, rfl, _, ⟨constants, rfl, rfl, hcounts⟩, rfl⟩
  exact ⟨count, constants, rfl, (counts_none_cons_iff (head?_flatMap_slots constants)).mpr hcounts, rfl⟩

/-! ## Attributes -/

section Attributes

variable {pool : ConstantPool} {attributes : Reader (List Attribute)}

lemma laidOut_exceptionHandler :
    LaidOut (exceptionHandler pool) fun _ bytes => ∃ outline : HandlerOutline, True ∧ bytes = outline.bytes := by
  refine (laidOut_u16.bind fun startPc => laidOut_u16.bind fun endPc => laidOut_u16.bind fun handlerPc =>
    (laidOut_lookup pool.className?).bind_pure _).mono ?_
  rintro _ bytes ⟨startPc, _, _, rfl, rfl, endPc, _, _, rfl, rfl, handlerPc, _, _, rfl, rfl, _, ⟨index, rfl, -⟩, -⟩
  exact ⟨⟨startPc, endPc, handlerPc, index⟩, trivial, rfl⟩

/-- Attributes that fit, in a list with their number. -/
def FittingList (pool : ConstantPool) (bytes : List UInt8) : Prop :=
  ∃ inside, AttributeOutline.Fit pool inside ∧ inside.length < 0x10000 ∧ bytes = AttributeOutline.countedBytes inside

lemma laidOut_code (h : LaidOut attributes fun _ => FittingList pool) :
    LaidOut (code pool attributes) fun _ bytes =>
      ∃ front : CodeFront, front.Fits ∧ ∃ inside, FittingList pool inside ∧ bytes = front.bytesWith inside := by
  refine (laidOut_u16.bind fun maxStack => laidOut_u16.bind fun maxLocals => laidOut_sized.bind fun bytecode =>
    (laidOut_counted laidOut_exceptionHandler).bind fun _ => h.bind_pure _).mono ?_
  rintro _ bytes ⟨maxStack, _, _, rfl, rfl, maxLocals, _, _, rfl, rfl, bytecode, _, _, rfl, ⟨rfl, hlength⟩, _, _, _, rfl,
    ⟨handlers, hcount, -, rfl⟩, _, hinside, -⟩
  exact ⟨⟨maxStack, maxLocals, bytecode, handlers⟩, ⟨hlength, hcount⟩, _, hinside, rfl⟩

/-- An attribute that fits in front of any others. -/
def Fitting (pool : ConstantPool) (outline : AttributeOutline) : Prop :=
  ∀ later, AttributeOutline.Fit pool later → AttributeOutline.Fit pool (outline :: later)

lemma laidOut_attributeWith (h : LaidOut attributes fun _ => FittingList pool) :
    LaidOut (attributeWith pool attributes) fun _ bytes => ∃ outline, Fitting pool outline ∧ bytes = outline.bytes := by
  refine LaidOut.mono ((laidOut_lookup pool.utf8).bind fun name => laidOut_sized.bind_with
    (fun body value bytes => bytes = [] ∧ bodyValue pool attributes name body = .ok value) fun body => ?_) ?_
  · rw [bodyValue]
    cases content? pool attributes name with
    | none => exact laidOut_lift (.ok (Attribute.other name))
    | some content => exact laidOut_lift (wholeBody name content body)
  · rintro value bytes ⟨name, _, _, rfl, ⟨index, rfl, hname⟩, body, _, _, rfl, ⟨rfl, hlength⟩, rfl, hvalue⟩
    rw [ConstantPool.utf8_eq_ok_iff] at hname
    rw [List.append_nil]
    by_cases hcode : name = "Code"
    · subst hcode
      obtain ⟨position, hread⟩ := wholeBody_eq_ok_iff.mp hvalue
      obtain ⟨_, ⟨front, hfront, _, ⟨inside, hinside, hcount, rfl⟩, rfl⟩, -⟩ :=
        ((laidOut_code h).bind_pure Attribute.code).whole hread
      exact ⟨.code index front inside, fun later hlater => .code hname hfront hcount hlength hinside hlater, rfl⟩
    · exact ⟨.plain index body, fun later hlater => .plain hname hcode hlength hlater, rfl⟩

lemma listBytes_eq (outlines : List AttributeOutline) :
    AttributeOutline.listBytes outlines = outlines.flatMap AttributeOutline.bytes := by
  induction outlines with
  | nil => rfl
  | cons outline outlines ih => rw [AttributeOutline.listBytes, ih, List.flatMap_cons]

lemma fit_of_fitting {outlines : List AttributeOutline} (h : ∀ outline ∈ outlines, Fitting pool outline) :
    AttributeOutline.Fit pool outlines := by
  induction outlines with
  | nil => exact .nil
  | cons outline outlines ih =>
      rw [List.forall_mem_cons] at h
      exact h.1 outlines (ih h.2)

lemma laidOut_attributesUpTo (pool : ConstantPool) (levels : Nat) :
    LaidOut (attributesUpTo pool levels) fun _ => FittingList pool := by
  induction levels with
  | zero =>
      intro position bytes value cursor hread
      cases hread
  | succ levels ih =>
      -- The attributes inside of code are read with one level less.
      refine (laidOut_counted (laidOut_attributeWith ih)).mono ?_
      rintro values bytes ⟨outlines, hcount, hfit, rfl⟩
      exact ⟨outlines, fit_of_fitting hfit, hcount, by rw [AttributeOutline.countedBytes, listBytes_eq]⟩

lemma laidOut_attributes (pool : ConstantPool) : LaidOut (Reader.attributes pool) fun _ => FittingList pool :=
  fun _ _ _ _ hread => laidOut_attributesUpTo pool _ _ _ _ _ hread

lemma laidOut_member (pool : ConstantPool) :
    LaidOut (member pool) fun _ bytes => ∃ outline : MemberOutline, outline.Fits pool ∧ bytes = outline.bytes := by
  refine (laidOut_u16.bind fun access => (laidOut_lookup pool.utf8).bind fun _ => (laidOut_lookup pool.utf8).bind fun _ =>
    (laidOut_attributes pool).bind_pure _).mono ?_
  rintro _ bytes ⟨access, _, _, rfl, rfl, _, _, _, rfl, ⟨name, rfl, -⟩, _, _, _, rfl, ⟨descriptor, rfl, -⟩, _,
    ⟨attributes, hfit, hcount, rfl⟩, -⟩
  exact ⟨⟨access, name, descriptor, attributes⟩, ⟨hcount, hfit⟩, rfl⟩

end Attributes

/-! ## Classes -/

lemma laidOut_header : LaidOut header fun _ bytes => bytes = u4 0xCAFEBABE := by
  refine LaidOut.mono (laidOut_u32.bind_with (fun found _ bytes => bytes = [] ∧ found = magic) fun found => ?_) ?_
  · split
    · exact laidOut_throw _
    · next hmagic =>
      refine (laidOut_pure ()).mono fun _ bytes h => ?_
      exact ⟨h.1, not_not.mp hmagic⟩
  · rintro _ bytes ⟨_, _, _, rfl, rfl, rfl, rfl⟩
    rfl

/-- What stands behind the pool of a class. -/
def BehindPool (pool : ConstantPool) (bytes : List UInt8) : Prop :=
  ∃ (access : UInt16) (name superclass : Index) (interfaces : List Index) (fields methods : List MemberOutline),
    ∃ attributes, interfaces.length < 0x10000 ∧ fields.length < 0x10000 ∧ (∀ field ∈ fields, field.Fits pool) ∧
      methods.length < 0x10000 ∧ (∀ method ∈ methods, method.Fits pool) ∧ FittingList pool attributes ∧
      bytes = u2 access.toNat ++ (u2 name.toNat ++ (u2 superclass.toNat ++
        (u2 interfaces.length ++ interfaces.flatMap (fun index => u2 index.toNat) ++
          (u2 fields.length ++ fields.flatMap MemberOutline.bytes ++
            (u2 methods.length ++ methods.flatMap MemberOutline.bytes ++ attributes)))))

lemma laidOut_classFile :
    LaidOut classFile fun _ bytes => ∃ outline : ClassOutline, outline.Fits ∧ bytes = outline.bytes := by
  have hinterface : ∀ pool : ConstantPool, LaidOut (className pool) fun _ bytes =>
      ∃ index : Index, True ∧ bytes = u2 index.toNat := by
    intro pool
    refine (laidOut_lookup pool.className).mono ?_
    rintro _ bytes ⟨index, rfl, -⟩
    exact ⟨index, trivial, rfl⟩
  refine LaidOut.mono (laidOut_header.bind fun _ => laidOut_u16.bind fun minor => laidOut_u16.bind fun major =>
    laidOut_pool.bind_with (fun pool _ => BehindPool pool) fun pool => ?_) ?_
  · refine (laidOut_u16.bind fun access => (laidOut_lookup pool.className).bind fun _ =>
      (laidOut_lookup pool.className?).bind fun _ => (laidOut_counted (hinterface pool)).bind fun _ =>
        (laidOut_counted (laidOut_member pool)).bind fun _ => (laidOut_counted (laidOut_member pool)).bind fun _ =>
          (laidOut_attributes pool).bind_pure _).mono ?_
    rintro _ bytes ⟨access, _, _, rfl, rfl, _, _, _, rfl, ⟨name, rfl, -⟩, _, _, _, rfl, ⟨superclass, rfl, -⟩,
      _, _, _, rfl, ⟨interfaces, hinterfaces, -, rfl⟩, _, _, _, rfl, ⟨fields, hfieldCount, hfields, rfl⟩,
      _, _, _, rfl, ⟨methods, hmethodCount, hmethods, rfl⟩, _, hattributes, -⟩
    exact ⟨access, name, superclass, interfaces, fields, methods, _, hinterfaces, hfieldCount, hfields, hmethodCount,
      hmethods, hattributes, rfl⟩
  · rintro _ bytes ⟨_, _, _, rfl, rfl, minor, _, _, rfl, rfl, major, _, _, rfl, rfl,
      _, _, _, rfl, ⟨count, constants, rfl, hcounts, rfl⟩, access, name, superclass, interfaces, fields, methods, _,
      hinterfaces, hfieldCount, hfields, hmethodCount, hmethods, ⟨attributes, hattributes, hattributeCount, rfl⟩, rfl⟩
    exact ⟨⟨minor, major, count, constants, access, name, superclass, interfaces, fields, methods, attributes⟩,
      ⟨hcounts, hinterfaces, hfieldCount, hfields, hmethodCount, hmethods, hattributeCount, hattributes⟩, rfl⟩

end JarSurvey.ClassFile.Reader

namespace JarSurvey.ClassFile

/-- **Every class that is read has an outline.** -/
lemma exists_outline {bytes : List UInt8} {file : ClassFile} (h : parse bytes = .ok file) :
    ∃ outline : ClassOutline, outline.Fits ∧ outline.bytes = bytes := by
  obtain ⟨position, hread⟩ := parse_eq_ok_iff.mp h
  obtain ⟨outline, hfits, rfl⟩ := Reader.laidOut_classFile.whole hread
  exact ⟨outline, hfits, rfl⟩

end JarSurvey.ClassFile
