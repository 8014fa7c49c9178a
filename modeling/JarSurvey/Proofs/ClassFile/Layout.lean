import JarSurvey.ClassFile.Basic
import JarSurvey.Proofs.ClassFile.Lookup
import JarSurvey.Proofs.Text.ModifiedUtf8

/-!
# The layout of a class file

What bytes spell what value, stated without a reader.  Each relation takes a value and the bytes that spell
it, and leaves open whatever the format leaves open:

* an index may be **any** index that leads to the right text or class (`TextIndex`, `ClassIndex`);
* what the values do not keep may hold **anything**: what tells the target of a type annotation
  (`TargetInfo`), the distance of a stack-map frame from the one before (`StackFrame`), and the body of an
  attribute with no known name (`Body.other`).

Counts and lengths are exact and fit their fields.  `File` puts the parts together.  The values of
annotations nest, and `ElementValue.Within` bounds how deep.
-/

namespace JarSurvey.ClassFile.Layout

/-! ## Numbers and sequences -/

/-- Two bytes, the high one first. -/
def u2 (n : Nat) : List UInt8 :=
  [UInt8.ofNat (n / 0x100), UInt8.ofNat n]

def u4 (n : Nat) : List UInt8 :=
  u2 (n / 0x10000) ++ u2 n

def u8 (n : Nat) : List UInt8 :=
  u4 (n / 0x100000000) ++ u4 n

section Sequences

variable {α : Type} (item : α → List UInt8 → Prop)

/-- Each value has bytes of its own, and these stand one after the other. -/
def Many (values : List α) (bytes : List UInt8) : Prop :=
  ∃ pieces : List (α × List UInt8), (∀ piece ∈ pieces, item piece.1 piece.2) ∧
    values = pieces.map Prod.fst ∧ bytes = pieces.flatMap Prod.snd

/-- The number of values in two bytes, and the values. -/
def Counted (values : List α) (bytes : List UInt8) : Prop :=
  ∃ content, Many item values content ∧ values.length < 0x10000 ∧ bytes = u2 values.length ++ content

/-- The number of values in one byte, and the values. -/
def ShortCounted (values : List α) (bytes : List UInt8) : Prop :=
  ∃ content, Many item values content ∧ values.length < 0x100 ∧
    bytes = UInt8.ofNat values.length :: content

end Sequences

/-! ## The constant pool -/

/-- The tag and the operands of a constant. -/
def constant : Constant → List UInt8
  | .utf8 text =>
    1 :: (u2 (Text.ModifiedUtf8.encode text).length ++ Text.ModifiedUtf8.encode text)
  | .integer value => 3 :: u4 value.toUInt32.toNat
  | .float bits => 4 :: u4 bits.toNat
  | .long value => 5 :: u8 value.toUInt64.toNat
  | .double bits => 6 :: u8 bits.toNat
  | .classRef name => 7 :: u2 name.toNat
  | .string text => 8 :: u2 text.toNat
  | .fieldRef owner nameAndType => 9 :: (u2 owner.toNat ++ u2 nameAndType.toNat)
  | .methodRef owner nameAndType => 10 :: (u2 owner.toNat ++ u2 nameAndType.toNat)
  | .interfaceMethodRef owner nameAndType => 11 :: (u2 owner.toNat ++ u2 nameAndType.toNat)
  | .nameAndType name descriptor => 12 :: (u2 name.toNat ++ u2 descriptor.toNat)
  | .methodHandle kind member => 15 :: kind :: u2 member.toNat
  | .methodType descriptor => 16 :: u2 descriptor.toNat
  | .dynamic bootstrap nameAndType => 17 :: (u2 bootstrap.toNat ++ u2 nameAndType.toNat)
  | .invokeDynamic bootstrap nameAndType => 18 :: (u2 bootstrap.toNat ++ u2 nameAndType.toNat)
  | .moduleRef name => 19 :: u2 name.toNat
  | .packageRef name => 20 :: u2 name.toNat

/-- The number of bytes of a text, which has to fit its field. -/
def textLength : Constant → Nat
  | .utf8 text => (Text.ModifiedUtf8.encode text).length
  | _ => 0

/-- The slots of a constant. -/
def slots (constant : Constant) : List (Option Constant) :=
  if constant.isWide then [some constant, none] else [some constant]

/-- The number of slots, slot zero included, and the constants. -/
def Pool (pool : ConstantPool) (bytes : List UInt8) : Prop :=
  ∃ constants : List Constant, (∀ c ∈ constants, textLength c < 0x10000) ∧
    pool.slots = (none :: constants.flatMap slots).toArray ∧ pool.size < 0x10000 ∧
      bytes = u2 pool.size ++ constants.flatMap constant

section Indices

variable (pool : ConstantPool)

/-- An index that leads to the text. -/
def TextIndex (text : String) (bytes : List UInt8) : Prop :=
  ∃ index, pool.TextAt index text ∧ bytes = u2 index.toNat

/-- An index that leads to the class. -/
def ClassIndex (name : String) (bytes : List UInt8) : Prop :=
  ∃ index, pool.ClassAt index name ∧ bytes = u2 index.toNat

/-- An index that leads to the class, or zero for no class. -/
def OptionalClassIndex : Option String → List UInt8 → Prop
  | none, bytes => bytes = u2 0
  | some name, bytes => ∃ index, index ≠ 0 ∧ pool.ClassAt index name ∧ bytes = u2 index.toNat

end Indices

/-! ## Annotations -/

/-- A member of an annotation with the bytes of its name and of its value. -/
structure MemberPiece where
  name : String
  nameBytes : List UInt8
  value : ElementValue
  valueBytes : List UInt8

def MemberPiece.element (piece : MemberPiece) : AnnotationElement :=
  .mk piece.name piece.value

def MemberPiece.bytes (piece : MemberPiece) : List UInt8 :=
  piece.nameBytes ++ piece.valueBytes

/-- The value of an annotation element. -/
inductive Value (pool : ConstantPool) : ElementValue → List UInt8 → Prop
  | constant {tag : UInt8} {index : Index} (h : ∃ c ∈ "BCDFIJSZs".toList, tag.toNat = c.toNat) :
      Value pool (.constant tag index) (tag :: u2 index.toNat)
  | enumConstant {type name : String} {typeBytes nameBytes : List UInt8}
      (htype : TextIndex pool type typeBytes) (hname : TextIndex pool name nameBytes) :
      Value pool (.enumConstant type name) (UInt8.ofNat 'e'.toNat :: (typeBytes ++ nameBytes))
  | classLiteral {descriptor : String} {bytes : List UInt8} (h : TextIndex pool descriptor bytes) :
      Value pool (.classLiteral descriptor) (UInt8.ofNat 'c'.toNat :: bytes)
  | nested {type : String} {typeBytes : List UInt8} {members : List MemberPiece}
      (htype : TextIndex pool type typeBytes)
      (hnames : ∀ m ∈ members, TextIndex pool m.name m.nameBytes)
      (hvalues : ∀ m ∈ members, Value pool m.value m.valueBytes) (hcount : members.length < 0x10000) :
      Value pool (.nested (.mk type (members.map MemberPiece.element)))
        (UInt8.ofNat '@'.toNat ::
          (typeBytes ++ (u2 members.length ++ members.flatMap MemberPiece.bytes)))
  | array {pieces : List (ElementValue × List UInt8)} (h : ∀ piece ∈ pieces, Value pool piece.1 piece.2)
      (hcount : pieces.length < 0x10000) :
      Value pool (.array (pieces.map Prod.fst))
        (UInt8.ofNat '['.toNat :: (u2 pieces.length ++ pieces.flatMap Prod.snd))

/-- The type of an annotation, and its members. -/
def Use (pool : ConstantPool) (use : AnnotationUse) (bytes : List UInt8) : Prop :=
  ∃ typeBytes, ∃ members : List MemberPiece, TextIndex pool use.type typeBytes ∧
    (∀ m ∈ members, TextIndex pool m.name m.nameBytes ∧ Value pool m.value m.valueBytes) ∧
    members.length < 0x10000 ∧ use.elements = members.map MemberPiece.element ∧
    bytes = typeBytes ++ (u2 members.length ++ members.flatMap MemberPiece.bytes)

/-- What tells the target of a type annotation: its length depends on the target alone, but for a table of
ranges that counts its entries. -/
inductive TargetInfo (target : UInt8) : List UInt8 → Prop
  | typeParameter {a : UInt8} (h : target.toNat = 0x00 ∨ target.toNat = 0x01) : TargetInfo target [a]
  | supertype {a b : UInt8} (h : target.toNat = 0x10) : TargetInfo target [a, b]
  | typeParameterBound {a b : UInt8} (h : target.toNat = 0x11 ∨ target.toNat = 0x12) :
      TargetInfo target [a, b]
  | empty (h : 0x13 ≤ target.toNat ∧ target.toNat ≤ 0x15) : TargetInfo target []
  | formalParameter {a : UInt8} (h : target.toNat = 0x16) : TargetInfo target [a]
  | throws {a b : UInt8} (h : target.toNat = 0x17) : TargetInfo target [a, b]
  | localVariables {count : UInt16} {ranges : List UInt8}
      (h : target.toNat = 0x40 ∨ target.toNat = 0x41) (hranges : ranges.length = count.toNat * 6) :
      TargetInfo target (u2 count.toNat ++ ranges)
  | handler {a b : UInt8} (h : target.toNat = 0x42) : TargetInfo target [a, b]
  | offset {a b : UInt8} (h : 0x43 ≤ target.toNat ∧ target.toNat ≤ 0x46) : TargetInfo target [a, b]
  | typeArgument {a b c : UInt8} (h : 0x47 ≤ target.toNat ∧ target.toNat ≤ 0x4B) :
      TargetInfo target [a, b, c]

/-- The target, the path into the type, and the annotation. -/
def TypeUse (pool : ConstantPool) (use : TypeAnnotationUse) (bytes : List UInt8) : Prop :=
  ∃ info path useBytes, TargetInfo use.target info ∧
    ShortCounted (fun step bytes => bytes = [step.1, step.2]) use.path path ∧
    Use pool use.use useBytes ∧ bytes = use.target :: (info ++ (path ++ useBytes))

/-! ## Stack maps and code -/

/-- What a stack map says about a value. -/
def Verification (pool : ConstantPool) : VerificationType → List UInt8 → Prop
  | .top, bytes => bytes = [0]
  | .integer, bytes => bytes = [1]
  | .float, bytes => bytes = [2]
  | .double, bytes => bytes = [3]
  | .long, bytes => bytes = [4]
  | .null, bytes => bytes = [5]
  | .uninitializedThis, bytes => bytes = [6]
  | .object name, bytes => ∃ index, ClassIndex pool name index ∧ bytes = 7 :: index
  | .uninitialized offset, bytes => bytes = 8 :: u2 offset.toNat

/-- A frame: its type tells which of locals and stack are given.  Two bytes `a` and `b` hold the distance
from the frame before, where the type does not. -/
inductive StackFrame (pool : ConstantPool) : Frame → List UInt8 → Prop
  | same {type : UInt8} (h : type.toNat ≤ 63) : StackFrame pool ⟨type, [], []⟩ [type]
  | sameOneItem {type : UInt8} {item : VerificationType} {bytes : List UInt8}
      (h : 64 ≤ type.toNat ∧ type.toNat ≤ 127) (hitem : Verification pool item bytes) :
      StackFrame pool ⟨type, [], [item]⟩ (type :: bytes)
  | sameOneItemExtended {a b : UInt8} {item : VerificationType} {bytes : List UInt8}
      (hitem : Verification pool item bytes) : StackFrame pool ⟨247, [], [item]⟩ (247 :: a :: b :: bytes)
  | chop {type a b : UInt8} (h : 248 ≤ type.toNat ∧ type.toNat ≤ 250) :
      StackFrame pool ⟨type, [], []⟩ [type, a, b]
  | sameExtended {a b : UInt8} : StackFrame pool ⟨251, [], []⟩ [251, a, b]
  | append {type a b : UInt8} {locals : List VerificationType} {bytes : List UInt8}
      (h : 252 ≤ type.toNat ∧ type.toNat ≤ 254) (hcount : locals.length = type.toNat - 251)
      (hlocals : Many (Verification pool) locals bytes) :
      StackFrame pool ⟨type, locals, []⟩ (type :: a :: b :: bytes)
  | full {a b : UInt8} {locals stack : List VerificationType} {localBytes stackBytes : List UInt8}
      (hlocals : Counted (Verification pool) locals localBytes)
      (hstack : Counted (Verification pool) stack stackBytes) :
      StackFrame pool ⟨255, locals, stack⟩ (255 :: a :: b :: (localBytes ++ stackBytes))

/-- A range of code, the place that handles its exceptions, and the class to catch. -/
def Handler (pool : ConstantPool) (handler : ExceptionHandler) (bytes : List UInt8) : Prop :=
  ∃ catchBytes, OptionalClassIndex pool handler.catchType catchBytes ∧
    bytes = u2 handler.startPc.toNat ++ (u2 handler.endPc.toNat ++ (u2 handler.handlerPc.toNat ++
      catchBytes))

/-- The handle of a bootstrap method, and its arguments. -/
def Bootstrap (method : BootstrapMethod) (bytes : List UInt8) : Prop :=
  ∃ arguments, Counted (fun index bytes => bytes = u2 index.toNat) method.arguments arguments ∧
    bytes = u2 method.handle.toNat ++ arguments

end JarSurvey.ClassFile.Layout

namespace JarSurvey.ClassFile

/-! ## How deep annotation values nest

A value of its own stands at level zero, and a member of an annotation one level below the annotation.
-/

/-- The value and all values inside of it stand at levels that are read, if it stands at `level`. -/
inductive ElementValue.Within : Nat → ElementValue → Prop
  | constant {level : Nat} {tag : UInt8} {index : Index} (h : level ≤ Reader.maxElementDepth) :
      Within level (.constant tag index)
  | enumConstant {level : Nat} {type name : String} (h : level ≤ Reader.maxElementDepth) :
      Within level (.enumConstant type name)
  | classLiteral {level : Nat} {descriptor : String} (h : level ≤ Reader.maxElementDepth) :
      Within level (.classLiteral descriptor)
  | nested {level : Nat} {type : String} {elements : List AnnotationElement}
      (h : level ≤ Reader.maxElementDepth)
      (hmembers : ∀ name value, .mk name value ∈ elements → Within (level + 2) value) :
      Within level (.nested (.mk type elements))
  | array {level : Nat} {values : List ElementValue} (h : level ≤ Reader.maxElementDepth)
      (hvalues : ∀ value ∈ values, Within (level + 1) value) : Within level (.array values)

/-- The values of an annotation stand at levels that are read. -/
def AnnotationUse.Within (use : AnnotationUse) : Prop :=
  ∀ name value, .mk name value ∈ use.elements → value.Within 1

lemma ElementValue.Within.level_le {level : Nat} {value : ElementValue} (h : value.Within level) :
    level ≤ Reader.maxElementDepth := by
  cases h <;> assumption

end JarSurvey.ClassFile

namespace JarSurvey.ClassFile.Layout

/-! ## Attributes -/

/-- The name of an attribute. -/
def attributeName : Attribute → String
  | .signature _ => "Signature"
  | .constantValue _ => "ConstantValue"
  | .exceptions _ => "Exceptions"
  | .code _ => "Code"
  | .annotations true _ => "RuntimeVisibleAnnotations"
  | .annotations false _ => "RuntimeInvisibleAnnotations"
  | .parameterAnnotations true _ => "RuntimeVisibleParameterAnnotations"
  | .parameterAnnotations false _ => "RuntimeInvisibleParameterAnnotations"
  | .typeAnnotations true _ => "RuntimeVisibleTypeAnnotations"
  | .typeAnnotations false _ => "RuntimeInvisibleTypeAnnotations"
  | .annotationDefault _ => "AnnotationDefault"
  | .bootstrapMethods _ => "BootstrapMethods"
  | .stackMapTable _ => "StackMapTable"
  | .other name => name

/-- The names of attributes whose content is kept. -/
def knownNames : List String :=
  ["Signature", "ConstantValue", "Exceptions", "Code", "RuntimeVisibleAnnotations",
    "RuntimeInvisibleAnnotations", "RuntimeVisibleParameterAnnotations",
    "RuntimeInvisibleParameterAnnotations", "RuntimeVisibleTypeAnnotations",
    "RuntimeInvisibleTypeAnnotations", "AnnotationDefault", "BootstrapMethods", "StackMapTable"]

/-- An attribute with the bytes of its name and of its body. -/
structure Entry where
  content : Attribute
  nameBytes : List UInt8
  body : List UInt8

def Entry.bytes (entry : Entry) : List UInt8 :=
  entry.nameBytes ++ (u4 entry.body.length ++ entry.body)

/-- The name of an attribute leads to its text, and the length of its body fits its field. -/
def Entry.Fits (pool : ConstantPool) (entry : Entry) : Prop :=
  TextIndex pool (attributeName entry.content) entry.nameBytes ∧ entry.body.length < 0x100000000

/-- The body of an attribute. -/
inductive Body (pool : ConstantPool) : Attribute → List UInt8 → Prop
  | signature {text : String} {bytes : List UInt8} (h : TextIndex pool text bytes) :
      Body pool (.signature text) bytes
  | constantValue {index : Index} : Body pool (.constantValue index) (u2 index.toNat)
  | exceptions {names : List String} {bytes : List UInt8} (h : Counted (ClassIndex pool) names bytes) :
      Body pool (.exceptions names) bytes
  | code {maxStack maxLocals : UInt16} {bytecode : List UInt8} {handlers : List ExceptionHandler}
      {handlerBytes : List UInt8} {entries : List Entry} (hlength : bytecode.length < 0x100000000)
      (hhandlers : Counted (Handler pool) handlers handlerBytes) (hcount : entries.length < 0x10000)
      (hentries : ∀ entry ∈ entries, entry.Fits pool)
      (hbodies : ∀ entry ∈ entries, Body pool entry.content entry.body) :
      Body pool (.code ⟨maxStack, maxLocals, bytecode, handlers, entries.map Entry.content⟩)
        (u2 maxStack.toNat ++ (u2 maxLocals.toNat ++ (u4 bytecode.length ++ bytecode ++
          (handlerBytes ++ (u2 entries.length ++ entries.flatMap Entry.bytes)))))
  | annotations {visible : Bool} {uses : List AnnotationUse} {bytes : List UInt8}
      (h : Counted (Use pool) uses bytes) (hlevels : ∀ use ∈ uses, use.Within) :
      Body pool (.annotations visible uses) bytes
  | parameterAnnotations {visible : Bool} {parameters : List (List AnnotationUse)} {bytes : List UInt8}
      (h : ShortCounted (Counted (Use pool)) parameters bytes)
      (hlevels : ∀ uses ∈ parameters, ∀ use ∈ uses, use.Within) :
      Body pool (.parameterAnnotations visible parameters) bytes
  | typeAnnotations {visible : Bool} {uses : List TypeAnnotationUse} {bytes : List UInt8}
      (h : Counted (TypeUse pool) uses bytes) (hlevels : ∀ use ∈ uses, use.use.Within) :
      Body pool (.typeAnnotations visible uses) bytes
  | annotationDefault {value : ElementValue} {bytes : List UInt8} (h : Value pool value bytes)
      (hlevels : value.Within 0) : Body pool (.annotationDefault value) bytes
  | bootstrapMethods {methods : List BootstrapMethod} {bytes : List UInt8}
      (h : Counted Bootstrap methods bytes) : Body pool (.bootstrapMethods methods) bytes
  | stackMapTable {frames : List Frame} {bytes : List UInt8} (h : Counted (StackFrame pool) frames bytes) :
      Body pool (.stackMapTable frames) bytes
  | other {name : String} {bytes : List UInt8} (h : name ∉ knownNames) : Body pool (.other name) bytes

/-- The number of attributes and the attributes, each with its name, its length and its body. -/
def Attributes (pool : ConstantPool) (attributes : List Attribute) (bytes : List UInt8) : Prop :=
  ∃ entries : List Entry, (∀ entry ∈ entries, entry.Fits pool) ∧
    (∀ entry ∈ entries, Body pool entry.content entry.body) ∧ entries.length < 0x10000 ∧
    attributes = entries.map Entry.content ∧
    bytes = u2 entries.length ++ entries.flatMap Entry.bytes

/-! ## Classes -/

/-- A field or a method. -/
def Member (pool : ConstantPool) (member : ClassFile.Member) (bytes : List UInt8) : Prop :=
  ∃ nameBytes descriptorBytes attributes, TextIndex pool member.name nameBytes ∧
    TextIndex pool member.descriptor descriptorBytes ∧ Attributes pool member.attributes attributes ∧
    bytes = u2 member.access.toNat ++ (nameBytes ++ (descriptorBytes ++ attributes))

/-- **The bytes of a class file.** -/
def File (file : ClassFile) (bytes : List UInt8) : Prop :=
  ∃ poolBytes nameBytes superBytes interfaces fields methods attributes, Pool file.pool poolBytes ∧
    ClassIndex file.pool file.name nameBytes ∧
    OptionalClassIndex file.pool file.superclass superBytes ∧
    Counted (ClassIndex file.pool) file.interfaces interfaces ∧
    Counted (Member file.pool) file.fields fields ∧ Counted (Member file.pool) file.methods methods ∧
    Attributes file.pool file.attributes attributes ∧
    bytes = u4 0xCAFEBABE ++ (u2 file.minor.toNat ++ (u2 file.major.toNat ++ (poolBytes ++
      (u2 file.access.toNat ++ (nameBytes ++ (superBytes ++ (interfaces ++ (fields ++ (methods ++
        attributes)))))))))

end JarSurvey.ClassFile.Layout
