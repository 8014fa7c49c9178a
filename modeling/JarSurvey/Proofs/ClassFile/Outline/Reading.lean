import JarSurvey.Proofs.ClassFile.Decoding
import JarSurvey.Proofs.ClassFile.Outline
import JarSurvey.Proofs.ClassFile.SelfDelimiting

/-!
# Reading an outline

An outline that fits its fields is read as what it means, part by part, and it is read in no other way.  `Exactly` puts
both into one statement about a reader and some bytes: the reader succeeds on them **if and only if** there is a value
that is meant, whatever follows, and it takes just these bytes.

The meaning of an outline (`ClassOutline.Means`) looks indices up and reads the bodies of attributes.  It knows nothing
of positions, lengths and counts, so that what is added to a class can be followed through it.
-/

namespace JarSurvey.ClassFile

open Layout

/-! ## What an outline means -/

/-- The value of an attribute with this name and body; the attributes inside of code are read by `attributes`. -/
def bodyValue (pool : ConstantPool) (attributes : Reader (List Attribute)) (name : String) (body : List UInt8) :
    Except FormatError Attribute :=
  match Reader.content? pool attributes name with
  | some content => Reader.wholeBody name content body
  | none => .ok (.other name)

def HandlerOutline.Means (pool : ConstantPool) (outline : HandlerOutline) (handler : ExceptionHandler) : Prop :=
  ∃ catchType, pool.className? outline.catchType = .ok catchType ∧
    handler = ⟨outline.startPc, outline.endPc, outline.handlerPc, catchType⟩

/-- What is read from attributes. -/
inductive AttributeOutline.Means (pool : ConstantPool) : List AttributeOutline → List Attribute → Prop
  | nil : Means pool [] []
  | plain {name : Index} {text : String} {body : List UInt8} {later : List AttributeOutline} {value : Attribute}
      {values : List Attribute} (hname : pool.TextAt name text)
      (hvalue : bodyValue pool Reader.outOfData text body = .ok value) (hlater : Means pool later values) :
      Means pool (plain name body :: later) (value :: values)
  | code {name : Index} {front : CodeFront} {attributes later : List AttributeOutline}
      {handlers : List ExceptionHandler} {inside values : List Attribute}
      (hhandlers : List.Forall₂ (HandlerOutline.Means pool) front.handlers handlers)
      (hinside : Means pool attributes inside) (hlater : Means pool later values) :
      Means pool (code name front attributes :: later)
        (.code ⟨front.maxStack, front.maxLocals, front.bytecode, handlers, inside⟩ :: values)

structure MemberOutline.Means (pool : ConstantPool) (outline : MemberOutline) (member : Member) : Prop where
  access : member.access = outline.access
  name : pool.TextAt outline.name member.name
  descriptor : pool.TextAt outline.descriptor member.descriptor
  attributes : AttributeOutline.Means pool outline.attributes member.attributes

/-- What is read from a class. -/
structure ClassOutline.Means (outline : ClassOutline) (file : ClassFile) : Prop where
  minor : file.minor = outline.minor
  major : file.major = outline.major
  pool : file.pool = outline.pool
  access : file.access = outline.access
  name : outline.pool.ClassAt outline.name file.name
  superclass : outline.pool.className? outline.superclass = .ok file.superclass
  interfaces : List.Forall₂ outline.pool.ClassAt outline.interfaces file.interfaces
  fields : List.Forall₂ (MemberOutline.Means outline.pool) outline.fields file.fields
  methods : List.Forall₂ (MemberOutline.Means outline.pool) outline.methods file.methods
  attributes : AttributeOutline.Means outline.pool outline.attributes file.attributes

end JarSurvey.ClassFile

namespace JarSurvey.ClassFile.Reader

open Layout

/-- If the reader finds these bytes it takes just them, and it yields the values that are meant. -/
def Exactly {α : Type} (reader : Reader α) (bytes : List UInt8) (means : α → Prop) : Prop :=
  ∀ position rest value cursor, reader ⟨position, bytes ++ rest⟩ = .ok (value, cursor) ↔
    means value ∧ cursor = ⟨position + bytes.length, rest⟩

section Combinators

variable {α β : Type} {reader : Reader α} {as bs : List UInt8}

lemma Takes.exactly {a : α} (h : Takes reader a as) : Exactly reader as (· = a) := by
  intro position rest value cursor
  rw [h, Except.ok.injEq, Prod.mk.injEq, eq_comm, @eq_comm _ cursor]

lemma Exactly.congr {means means' : α → Prop} (h : Exactly reader as means) (hmeans : ∀ a, means a ↔ means' a) :
    Exactly reader as means' := by
  intro position rest value cursor
  rw [h, hmeans]

lemma Exactly.bind {next : α → Reader β} {first : α → Prop} {second : α → β → Prop} (h : Exactly reader as first)
    (hnext : ∀ a, first a → Exactly (next a) bs (second a)) :
    Exactly (reader >>= next) (as ++ bs) fun b => ∃ a, first a ∧ second a b := by
  intro position rest b cursor
  rw [bind_apply, bind_eq_ok_iff, List.append_assoc, List.length_append, ← Nat.add_assoc]
  constructor
  · rintro ⟨⟨a, middle⟩, hfirst, hsecond⟩
    obtain ⟨ha, rfl⟩ := (h _ _ _ _).mp hfirst
    obtain ⟨hb, rfl⟩ := (hnext a ha _ _ _ _).mp hsecond
    exact ⟨⟨a, ha, hb⟩, rfl⟩
  · rintro ⟨⟨a, ha, hb⟩, rfl⟩
    exact ⟨_, (h _ _ _ _).mpr ⟨ha, rfl⟩, (hnext a ha _ _ _ _).mpr ⟨hb, rfl⟩⟩

/-- After a part with a value that is known. -/
lemma Takes.exactly_bind {next : α → Reader β} {a : α} {means : β → Prop} (h : Takes reader a as)
    (hnext : Exactly (next a) bs means) : Exactly (reader >>= next) (as ++ bs) means := by
  have hbind : Exactly (reader >>= next) (as ++ bs) fun b => ∃ x, x = a ∧ means b := by
    refine h.exactly.bind fun x hx => ?_
    rwa [hx]
  exact hbind.congr fun b => exists_eq_left

/-- The last part of a reader may take nothing. -/
lemma Takes.exactly_bind_nil {next : α → Reader β} {a : α} {means : β → Prop} (h : Takes reader a as)
    (hnext : Exactly (next a) [] means) : Exactly (reader >>= next) as means := by
  have hbind := h.exactly_bind hnext
  rwa [List.append_nil] at hbind

lemma Exactly.bind_pure {means : α → Prop} (h : Exactly reader as means) (f : α → β) :
    Exactly (reader >>= fun a => pure (f a)) as fun b => ∃ a, means a ∧ b = f a := by
  have hbind := h.bind fun a _ => (takes_pure (f a)).exactly
  rwa [List.append_nil] at hbind

lemma exactly_lift (x : Except FormatError α) : Exactly (liftM x : Reader α) [] (x = .ok ·) := by
  cases x with
  | error error =>
      intro position rest value cursor
      simp [liftM, monadLift, MonadLift.monadLift, StateT.lift, bind, Except.bind]
  | ok a =>
      refine (takes_lift rfl).exactly.congr fun value => ?_
      rw [Except.ok.injEq, eq_comm]

/-- An index takes two bytes, and what it leads to is looked up. -/
lemma exactly_lookup (index : Index) (lookup : Index → Except FormatError α) :
    Exactly (u16 >>= fun i => (liftM (lookup i) : Reader α)) (u2 index.toNat) (lookup index = .ok ·) :=
  (takes_u16 index).exactly_bind_nil (exactly_lift (lookup index))

/-- What is read when all there is are these bytes. -/
lemma Exactly.whole_iff {means : α → Prop} (h : Exactly reader as means) {a : α} :
    (∃ position, reader (Cursor.start as) = .ok (a, ⟨position, []⟩)) ↔ means a := by
  have hread := fun cursor => h 0 [] a cursor
  rw [List.append_nil] at hread
  constructor
  · rintro ⟨position, ha⟩
    exact ((hread _).mp ha).1
  · intro ha
    exact ⟨_, (hread _).mpr ⟨ha, rfl⟩⟩

end Combinators

lemma wholeBody_eq_ok_iff {name : String} {content : Reader Attribute} {body : List UInt8} {value : Attribute} :
    wholeBody name content body = .ok value ↔
      ∃ position, content (Cursor.start body) = .ok (value, ⟨position, []⟩) :=
  whole_eq_ok_iff content body (.attributeLength name)

section Sequences

variable {ι α : Type} {item : Reader α}

lemma Exactly.cons {as bs : List UInt8} {first : α → Prop} {later : List α → Prop} {count : Nat}
    (h : Exactly item as first) (hlater : Exactly (many item count) bs later) :
    Exactly (many item (count + 1)) (as ++ bs) fun values => ∃ x xs, first x ∧ later xs ∧ values = x :: xs := by
  refine (h.bind fun x _ => hlater.bind_pure (x :: ·)).congr fun values => ?_
  simp only [exists_and_left]

lemma exactly_many {xs : List ι} {bytesOf : ι → List UInt8} {means : ι → α → Prop}
    (h : ∀ x ∈ xs, Exactly item (bytesOf x) (means x)) :
    Exactly (many item xs.length) (xs.flatMap bytesOf) (List.Forall₂ means xs) := by
  induction xs with
  | nil => exact (takes_pure []).exactly.congr fun values => List.forall₂_nil_left_iff.symm
  | cons x xs ih =>
      have hcons := (h x List.mem_cons_self).cons (ih fun y hy => h y (List.mem_cons_of_mem x hy))
      exact hcons.congr fun values => List.forall₂_cons_left_iff.symm

lemma exactly_counted {xs : List ι} {bytesOf : ι → List UInt8} {means : ι → α → Prop}
    (h : ∀ x ∈ xs, Exactly item (bytesOf x) (means x)) (hcount : xs.length < 0x10000) :
    Exactly (counted item) (u2 xs.length ++ xs.flatMap bytesOf) (List.Forall₂ means xs) := by
  refine (takes_count hcount).exactly_bind ?_
  rw [UInt16.toNat_ofNat_of_lt' hcount]
  exact exactly_many h

end Sequences

/-! ## The constant pool -/

section Constants

variable {count : Nat} {slots : List (Option Constant)}

lemma counts_nil_iff : Counts count [] ↔ count = 0 := by
  simp [Counts]

lemma counts_cons_iff {value : Constant} :
    Counts count (some value :: slots) ↔ ∃ left, count = left + 1 ∧ Counts left slots := by
  cases slots with
  | nil => simp [Counts]
  | cons next slots =>
      simp only [Counts, List.length_cons, List.getLast?_cons_cons]
      constructor
      · rintro (h | ⟨h, hlast⟩)
        · exact ⟨slots.length + 1, h, Or.inl rfl⟩
        · exact ⟨slots.length, by omega, Or.inr ⟨rfl, hlast⟩⟩
      · rintro ⟨left, rfl, h | ⟨h, hlast⟩⟩
        · exact Or.inl (by omega)
        · exact Or.inr ⟨by omega, hlast⟩

/-- A slot without a constant may be the last one that is not counted, if none follows. -/
lemma counts_none_cons_iff (hslots : slots.head? ≠ some none) :
    Counts count (none :: slots) ↔ Counts (count - 1) slots := by
  cases slots with
  | nil =>
      simp [Counts]
      omega
  | cons next slots =>
      simp only [Counts, List.length_cons, List.getLast?_cons_cons]
      have hlast : slots.length = 0 → (next :: slots).getLast? ≠ some none := by
        intro hnil
        rw [List.length_eq_zero_iff.mp hnil]
        exact hslots
      constructor
      · rintro (h | ⟨h, hnone⟩)
        · exact Or.inl (by omega)
        · exact Or.inr ⟨by omega, hnone⟩
      · rintro (h | ⟨h, hnone⟩)
        · exact Or.inl (by omega)
        · have hpos : slots.length ≠ 0 := fun hzero => hlast hzero hnone
          exact Or.inr ⟨by omega, hnone⟩

lemma head?_flatMap_slots (constants : List SpelledConstant) :
    (constants.flatMap fun piece => Layout.slots piece.value).head? ≠ some none := by
  cases constants with
  | nil => simp
  | cons piece constants =>
      rw [List.flatMap_cons, Layout.slots]
      split <;> simp

/-- The slots behind a constant are counted by what reading it leaves of the count. -/
lemma counts_slots_append_iff {value : Constant} (hslots : slots.head? ≠ some none) :
    Counts count (Layout.slots value ++ slots) ↔
      ∃ left, count = left + 1 ∧ Counts (if value.isWide then left - 1 else left) slots := by
  rw [Layout.slots]
  split
  · rw [List.cons_append, counts_cons_iff, List.singleton_append]
    simp only [counts_none_cons_iff hslots]
  · exact counts_cons_iff

lemma takes_spelled {value : Constant} {bytes : List UInt8} (h : Spells value bytes) (slot : Nat) :
    Takes (ConstantPool.readConstant slot) value bytes := by
  cases h with
  | text hdecode hlength => exact takes_tag ((takes_readText slot hdecode hlength).bind_pure _)
  | other hother =>
      refine takes_readConstant slot ?_
      cases value with
      | utf8 text => exact absurd rfl (hother text)
      | _ => exact Nat.zero_lt_succ _

lemma takes_slotsOf {constants : List SpelledConstant} {left : Nat} (slot : Nat)
    (h : Counts left (constants.flatMap fun piece => Layout.slots piece.value)) :
    Takes (ConstantPool.readSlots slot left) (constants.flatMap fun piece => Layout.slots piece.value)
      (constants.flatMap SpelledConstant.bytes) := by
  induction constants generalizing slot left with
  | nil =>
      obtain rfl := counts_nil_iff.mp h
      rw [ConstantPool.readSlots]
      exact takes_pure []
  | cons piece constants ih =>
      obtain ⟨left, rfl, hleft⟩ := (counts_slots_append_iff (head?_flatMap_slots constants)).mp h
      rw [ConstantPool.readSlots]
      refine (takes_spelled piece.spelled slot).bind ?_
      rw [List.flatMap_cons, Layout.slots]
      by_cases hwide : piece.value.isWide = true
      · rw [if_pos hwide] at hleft
        rw [if_pos hwide, if_pos hwide]
        exact (ih (slot + 2) hleft).bind_pure fun rest => some piece.value :: none :: rest
      · rw [if_neg hwide] at hleft
        rw [if_neg hwide, if_neg hwide]
        exact (ih (slot + 1) hleft).bind_pure fun rest => some piece.value :: rest

lemma takes_outlinePool {outline : ClassOutline} (h : Counts outline.count.toNat (slotsOf outline.constants)) :
    Takes ConstantPool.read outline.pool
      (u2 outline.count.toNat ++ outline.constants.flatMap SpelledConstant.bytes) := by
  have hleft := (counts_none_cons_iff (head?_flatMap_slots outline.constants)).mp h
  exact (takes_u16 outline.count).bind ((takes_slotsOf 1 hleft).bind_pure fun found =>
    ConstantPool.mk (none :: found).toArray)

end Constants

/-! ## Attributes -/

section Attributes

variable (pool : ConstantPool)

lemma exactly_utf8 (index : Index) : Exactly (utf8 pool) (u2 index.toNat) (pool.TextAt index) :=
  (exactly_lookup index pool.utf8).congr fun _ => ConstantPool.utf8_eq_ok_iff

lemma exactly_className (index : Index) : Exactly (className pool) (u2 index.toNat) (pool.ClassAt index) :=
  (exactly_lookup index pool.className).congr fun _ => ConstantPool.className_eq_ok_iff

lemma exactly_exceptionHandler (handler : HandlerOutline) :
    Exactly (exceptionHandler pool) handler.bytes (handler.Means pool) :=
  (takes_u16 _).exactly_bind ((takes_u16 _).exactly_bind ((takes_u16 _).exactly_bind
    ((exactly_lookup handler.catchType pool.className?).bind_pure _)))

variable {pool}

lemma exactly_attributeWith {attributes : Reader (List Attribute)} {name : Index} {text : String} {body : List UInt8}
    (hname : pool.TextAt name text) (hlength : body.length < 0x100000000) :
    Exactly (attributeWith pool attributes) (AttributeOutline.framed name body)
      (bodyValue pool attributes text body = .ok ·) := by
  refine (takes_utf8 ⟨name, hname, rfl⟩).exactly_bind ((takes_sized hlength).exactly_bind_nil ?_)
  rw [bodyValue]
  cases content? pool attributes text with
  | none => exact exactly_lift (.ok (Attribute.other text))
  | some content => exact exactly_lift (wholeBody text content body)

lemma bodyValue_eq {attributes attributes' : Reader (List Attribute)} {text : String} (h : text ≠ "Code")
    (body : List UInt8) : bodyValue pool attributes text body = bodyValue pool attributes' text body := by
  rw [bodyValue, bodyValue, content?_eq h]

lemma exactly_code (pool : ConstantPool) {front : CodeFront} (hfront : front.Fits) {attributes : Reader (List Attribute)}
    {bytes : List UInt8} {means : List Attribute → Prop} (hattributes : Exactly attributes bytes means) :
    Exactly (code pool attributes) (front.bytesWith bytes) fun body =>
      ∃ handlers, List.Forall₂ (HandlerOutline.Means pool) front.handlers handlers ∧ ∃ inside, means inside ∧
        body = ⟨front.maxStack, front.maxLocals, front.bytecode, handlers, inside⟩ := by
  obtain ⟨hlength, hcount⟩ := hfront
  have hhandlers := exactly_counted (fun handler _ => exactly_exceptionHandler pool handler) hcount
  exact (takes_u16 _).exactly_bind ((takes_u16 _).exactly_bind ((takes_sized hlength).exactly_bind
    (hhandlers.bind fun handlers _ => hattributes.bind_pure _)))

/-- **Attributes are read as what they mean** if more levels are left than they have bytes. -/
lemma exactly_attributes_of_levels {attributes : List AttributeOutline} (h : AttributeOutline.Fit pool attributes)
    {levels : Nat} (hlevels : (AttributeOutline.listBytes attributes).length ≤ levels) :
    Exactly (many (attributeWith pool (attributesUpTo pool levels)) attributes.length)
      (AttributeOutline.listBytes attributes) (AttributeOutline.Means pool attributes) := by
  induction h generalizing levels with
  | nil =>
      refine (takes_pure []).exactly.congr fun values => ?_
      constructor
      · rintro rfl
        exact .nil
      · rintro ⟨⟩
        rfl
  | plain hname hplain hlength hlater ih =>
      rw [AttributeOutline.listBytes, List.length_append] at hlevels
      refine ((exactly_attributeWith hname hlength).cons (ih (by omega))).congr fun values => ?_
      constructor
      · rintro ⟨value, values, hvalue, hmeans, rfl⟩
        rw [bodyValue_eq hplain] at hvalue
        exact .plain hname hvalue hmeans
      · rintro (_ | ⟨hname', hvalue, hmeans⟩)
        rw [hname'.unique hname, bodyValue_eq hplain] at hvalue
        exact ⟨_, _, hvalue, hmeans, rfl⟩
  | @code name front attributes later hname hfront hcount hlength hinside hlater ihinside ihlater =>
      rw [AttributeOutline.listBytes, List.length_append] at hlevels
      -- The attributes inside of code lie within its body, next to other bytes of it.
      have hinner : (AttributeOutline.listBytes attributes).length + 1 ≤ levels := by
        simp only [AttributeOutline.bytes, AttributeOutline.framed, CodeFront.bytesWith, List.length_append, u2,
          List.length_cons, List.length_nil] at hlevels
        omega
      obtain ⟨below, rfl⟩ : ∃ below, levels = below + 1 := ⟨levels - 1, by omega⟩
      have hcounted : Exactly (attributesUpTo pool (below + 1)) (AttributeOutline.countedBytes attributes)
          (AttributeOutline.Means pool attributes) := by
        refine (takes_count hcount).exactly_bind ?_
        rw [UInt16.toNat_ofNat_of_lt' hcount]
        exact ihinside (by omega)
      have hcode := (exactly_code pool hfront hcounted).bind_pure Attribute.code
      have hbody := fun {value} => (@wholeBody_eq_ok_iff "Code" _ _ value).trans hcode.whole_iff
      refine ((exactly_attributeWith hname hlength).cons (ihlater (by omega))).congr fun values => ?_
      constructor
      · rintro ⟨value, values, hvalue, hmeans, rfl⟩
        obtain ⟨body, ⟨handlers, hhandlers, inside, hmeans', rfl⟩, rfl⟩ := hbody.mp hvalue
        exact .code hhandlers hmeans' hmeans
      · rintro (_ | _ | ⟨hhandlers, hmeans', hmeans⟩)
        exact ⟨_, _, hbody.mpr ⟨_, ⟨_, hhandlers, _, hmeans', rfl⟩, rfl⟩, hmeans, rfl⟩

lemma exactly_attributes {attributes : List AttributeOutline} (h : AttributeOutline.Fit pool attributes)
    (hcount : attributes.length < 0x10000) :
    Exactly (Reader.attributes pool) (AttributeOutline.countedBytes attributes)
      (AttributeOutline.Means pool attributes) := by
  intro position rest
  have hle : (AttributeOutline.listBytes attributes).length ≤
      (AttributeOutline.countedBytes attributes ++ rest).length := by
    simp only [AttributeOutline.countedBytes, List.length_append]
    omega
  have hmany := exactly_attributes_of_levels h hle
  rw [← UInt16.toNat_ofNat_of_lt' hcount] at hmany
  exact (takes_count hcount).exactly_bind hmany position rest

end Attributes

/-! ## Classes -/

lemma exactly_member {pool : ConstantPool} {outline : MemberOutline} (h : outline.Fits pool) :
    Exactly (member pool) outline.bytes (outline.Means pool) := by
  refine Exactly.congr ((takes_u16 _).exactly_bind ((exactly_utf8 pool _).bind fun name _ =>
    (exactly_utf8 pool _).bind fun descriptor _ => (exactly_attributes h.attributes h.count).bind_pure _)) fun found => ?_
  constructor
  · rintro ⟨name, hname, descriptor, hdescriptor, attributes, hattributes, rfl⟩
    exact ⟨rfl, hname, hdescriptor, hattributes⟩
  · rintro ⟨haccess, hname, hdescriptor, hattributes⟩
    exact ⟨_, hname, _, hdescriptor, _, hattributes, by rw [← haccess]⟩

/-- **A class is read as what its outline means.** -/
lemma exactly_classFile {outline : ClassOutline} (h : outline.Fits) :
    Exactly classFile outline.bytes outline.Means := by
  have hinterfaces := exactly_counted (fun index _ => exactly_className outline.pool index) h.interfaceCount
  have hfields := exactly_counted (fun field hfield => exactly_member (h.fields field hfield)) h.fieldCount
  have hmethods := exactly_counted (fun method hmethod => exactly_member (h.methods method hmethod)) h.methodCount
  refine Exactly.congr (takes_header.exactly_bind ((takes_u16 _).exactly_bind ((takes_u16 _).exactly_bind
    ((takes_outlinePool h.count).exactly_bind ((takes_u16 _).exactly_bind ((exactly_className _ _).bind fun name _ =>
      (exactly_lookup _ outline.pool.className?).bind fun superclass _ => hinterfaces.bind fun interfaces _ =>
        hfields.bind fun fields _ => hmethods.bind fun methods _ =>
          (exactly_attributes h.attributes h.attributeCount).bind_pure _)))))) fun file => ?_
  constructor
  · rintro ⟨name, hname, superclass, hsuper, interfaces, hinterfaces, fields, hfields, methods, hmethods, attributes,
      hattributes, rfl⟩
    exact ⟨rfl, rfl, rfl, rfl, hname, hsuper, hinterfaces, hfields, hmethods, hattributes⟩
  · rintro ⟨hminor, hmajor, hpool, haccess, hname, hsuper, hinterfaces, hfields, hmethods, hattributes⟩
    refine ⟨_, hname, _, hsuper, _, hinterfaces, _, hfields, _, hmethods, _, hattributes, ?_⟩
    rw [← hminor, ← hmajor, ← hpool, ← haccess]

end JarSurvey.ClassFile.Reader

namespace JarSurvey.ClassFile

lemma parse_outline_iff {outline : ClassOutline} (h : outline.Fits) {file : ClassFile} :
    parse outline.bytes = .ok file ↔ outline.Means file := by
  rw [parse_eq_ok_iff]
  exact (Reader.exactly_classFile h).whole_iff

end JarSurvey.ClassFile
