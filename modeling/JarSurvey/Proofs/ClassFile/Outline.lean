import JarSurvey.Proofs.ClassFile.Layout

/-!
# Class files in outline

An outline tells the parts of a class file apart: the constants, the members, the attributes and, of code, what
stands in front of its own attributes.  It does not look into the body of any other attribute, and it keeps every
index as a number, so that nothing of a class is lost in it (`ClassOutline.bytes`).

With the parts apart, it can be said what it is to add something to a class: constants at the end of the pool, and
attributes with a name that is not known in any list of attributes, those of code included.  `ClassOutline.Grows` says
so, and leaves it to `ClassOutline.bytes` to adjust lengths and counts.
-/

namespace JarSurvey.ClassFile

open Layout

/-! ## Constants -/

/-- The bytes of a constant.  A text may be spelled in any way that is decoded to it. -/
inductive Spells : Constant → List UInt8 → Prop
  | text {text : String} {bytes : List UInt8} (h : Text.ModifiedUtf8.decode bytes = some text)
      (hlength : bytes.length < 0x10000) : Spells (.utf8 text) (1 :: (u2 bytes.length ++ bytes))
  | other {value : Constant} (h : ∀ text, value ≠ .utf8 text) : Spells value (constant value)

/-- A constant as it is spelled in a pool. -/
structure SpelledConstant where
  value : Constant
  bytes : List UInt8
  spelled : Spells value bytes

/-- The slots that constants fill, slot zero included. -/
def slotsOf (constants : List SpelledConstant) : List (Option Constant) :=
  none :: constants.flatMap fun piece => slots piece.value

/-- The count of a pool is the number of its slots.  A last slot that holds no constant need not be counted. -/
def Counts (count : Nat) (slots : List (Option Constant)) : Prop :=
  count = slots.length ∨ count + 1 = slots.length ∧ slots.getLast? = some none

/-! ## Attributes -/

/-- A range of code, the place that handles its exceptions, and the class to catch. -/
structure HandlerOutline where
  startPc : UInt16
  endPc : UInt16
  handlerPc : UInt16
  catchType : Index

def HandlerOutline.bytes (handler : HandlerOutline) : List UInt8 :=
  u2 handler.startPc.toNat ++ (u2 handler.endPc.toNat ++ (u2 handler.handlerPc.toNat ++
    u2 handler.catchType.toNat))

/-- What stands in front of the attributes of code. -/
structure CodeFront where
  maxStack : UInt16
  maxLocals : UInt16
  bytecode : List UInt8
  handlers : List HandlerOutline

namespace CodeFront

/-- The code that the front begins, with the attributes that follow. -/
def bytesWith (front : CodeFront) (attributes : List UInt8) : List UInt8 :=
  u2 front.maxStack.toNat ++ (u2 front.maxLocals.toNat ++ (u4 front.bytecode.length ++ front.bytecode ++
    (u2 front.handlers.length ++ front.handlers.flatMap HandlerOutline.bytes ++ attributes)))

/-- The lengths fit their fields. -/
def Fits (front : CodeFront) : Prop :=
  front.bytecode.length < 0x100000000 ∧ front.handlers.length < 0x10000

end CodeFront

/-- An attribute, by the index of its name.  Only code is told apart any further. -/
inductive AttributeOutline where
  | plain (name : Index) (body : List UInt8)
  | code (name : Index) (front : CodeFront) (attributes : List AttributeOutline)

namespace AttributeOutline

/-- The name of an attribute, the length of its body, and its body. -/
def framed (name : Index) (body : List UInt8) : List UInt8 :=
  u2 name.toNat ++ (u4 body.length ++ body)

mutual

def bytes : AttributeOutline → List UInt8
  | plain name body => framed name body
  | code name front attributes => framed name (front.bytesWith (u2 attributes.length ++ listBytes attributes))

def listBytes : List AttributeOutline → List UInt8
  | [] => []
  | first :: later => bytes first ++ listBytes later

end

/-- The number of attributes, and the attributes. -/
def countedBytes (attributes : List AttributeOutline) : List UInt8 :=
  u2 attributes.length ++ listBytes attributes

/-- The names lead to texts, code is told apart by its name, and lengths and counts fit their fields. -/
inductive Fit (pool : ConstantPool) : List AttributeOutline → Prop
  | nil : Fit pool []
  | plain {name : Index} {text : String} {body : List UInt8} {later : List AttributeOutline}
      (hname : pool.TextAt name text) (hplain : text ≠ "Code") (hlength : body.length < 0x100000000)
      (hlater : Fit pool later) : Fit pool (plain name body :: later)
  | code {name : Index} {front : CodeFront} {attributes later : List AttributeOutline}
      (hname : pool.TextAt name "Code") (hfront : front.Fits) (hcount : attributes.length < 0x10000)
      (hlength : (front.bytesWith (countedBytes attributes)).length < 0x100000000) (hinside : Fit pool attributes)
      (hlater : Fit pool later) : Fit pool (code name front attributes :: later)

/-- The second list has further attributes with names that are not known, here or inside of code. -/
inductive Grows (pool : ConstantPool) : List AttributeOutline → List AttributeOutline → Prop
  | nil : Grows pool [] []
  | plain {name : Index} {body : List UInt8} {later later' : List AttributeOutline} (hlater : Grows pool later later') :
      Grows pool (plain name body :: later) (plain name body :: later')
  | code {name : Index} {front : CodeFront} {attributes attributes' later later' : List AttributeOutline}
      (hinside : Grows pool attributes attributes') (hlater : Grows pool later later') :
      Grows pool (code name front attributes :: later) (code name front attributes' :: later')
  | added {name : Index} {text : String} {body : List UInt8} {later later' : List AttributeOutline}
      (hname : pool.TextAt name text) (hunknown : text ∉ knownNames) (hlater : Grows pool later later') :
      Grows pool later (AttributeOutline.plain name body :: later')

end AttributeOutline

/-! ## Members and classes -/

/-- A field or a method. -/
structure MemberOutline where
  access : UInt16
  name : Index
  descriptor : Index
  attributes : List AttributeOutline

namespace MemberOutline

def bytes (member : MemberOutline) : List UInt8 :=
  u2 member.access.toNat ++ (u2 member.name.toNat ++ (u2 member.descriptor.toNat ++
    AttributeOutline.countedBytes member.attributes))

structure Fits (pool : ConstantPool) (member : MemberOutline) : Prop where
  count : member.attributes.length < 0x10000
  attributes : AttributeOutline.Fit pool member.attributes

structure Grows (pool : ConstantPool) (old new : MemberOutline) : Prop where
  access : new.access = old.access
  name : new.name = old.name
  descriptor : new.descriptor = old.descriptor
  attributes : AttributeOutline.Grows pool old.attributes new.attributes

end MemberOutline

/-- A class file in outline. -/
structure ClassOutline where
  minor : UInt16
  major : UInt16
  count : UInt16
  constants : List SpelledConstant
  access : UInt16
  name : Index
  superclass : Index
  interfaces : List Index
  fields : List MemberOutline
  methods : List MemberOutline
  attributes : List AttributeOutline

namespace ClassOutline

/-- The pool that the constants make up. -/
def pool (outline : ClassOutline) : ConstantPool :=
  ⟨(slotsOf outline.constants).toArray⟩

def bytes (outline : ClassOutline) : List UInt8 :=
  u4 0xCAFEBABE ++ (u2 outline.minor.toNat ++ (u2 outline.major.toNat ++
    (u2 outline.count.toNat ++ outline.constants.flatMap SpelledConstant.bytes ++
      (u2 outline.access.toNat ++ (u2 outline.name.toNat ++ (u2 outline.superclass.toNat ++
        (u2 outline.interfaces.length ++ outline.interfaces.flatMap (fun index => u2 index.toNat) ++
          (u2 outline.fields.length ++ outline.fields.flatMap MemberOutline.bytes ++
            (u2 outline.methods.length ++ outline.methods.flatMap MemberOutline.bytes ++
              AttributeOutline.countedBytes outline.attributes)))))))))

/-- The count is that of the pool, and all numbers of parts fit their fields. -/
structure Fits (outline : ClassOutline) : Prop where
  count : Counts outline.count.toNat (slotsOf outline.constants)
  interfaceCount : outline.interfaces.length < 0x10000
  fieldCount : outline.fields.length < 0x10000
  fields : ∀ field ∈ outline.fields, field.Fits outline.pool
  methodCount : outline.methods.length < 0x10000
  methods : ∀ method ∈ outline.methods, method.Fits outline.pool
  attributeCount : outline.attributes.length < 0x10000
  attributes : AttributeOutline.Fit outline.pool outline.attributes

/-- **The second class is the first one with additions**: with further constants behind those it has, and with further
attributes, whose names are not known, in any of its lists of attributes. -/
structure Grows (old new : ClassOutline) : Prop where
  minor : new.minor = old.minor
  major : new.major = old.major
  constants : ∃ more, new.constants = old.constants ++ more
  access : new.access = old.access
  name : new.name = old.name
  superclass : new.superclass = old.superclass
  interfaces : new.interfaces = old.interfaces
  fields : List.Forall₂ (MemberOutline.Grows new.pool) old.fields new.fields
  methods : List.Forall₂ (MemberOutline.Grows new.pool) old.methods new.methods
  attributes : AttributeOutline.Grows new.pool old.attributes new.attributes

end ClassOutline

end JarSurvey.ClassFile
