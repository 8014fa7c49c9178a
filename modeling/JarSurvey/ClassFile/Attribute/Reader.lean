import JarSurvey.ClassFile.Attribute

/-!
# Reading attributes

An attribute is a name, a length and a body of that length.  A body with a known name has to be used
up by its content (`attributeLength` otherwise); the body of any other attribute is not looked at.
Offsets in the errors of a body count from the start of the body.

Annotation values nest, and at most `maxElementDepth` levels of them are read.  A member of an
annotation is one level below the annotation, an element of an array one level below the array, and a
nested annotation one level below the value that holds it.
-/

namespace JarSurvey.ClassFile

namespace Reader

variable (pool : ConstantPool)

/-- Takes an index and yields the text there. -/
def utf8 : Reader String := do
  pool.utf8 (← u16)

/-- Takes an index and yields the name of the class there. -/
def className : Reader String := do
  pool.className (← u16)

/-- Takes an index and yields the name of the class there, or none for index zero. -/
def className? : Reader (Option String) := do
  pool.className? (← u16)

/-! ## Annotations -/

/-- The deepest level at which an annotation value may stand; a value of its own stands at level
zero. -/
def maxElementDepth : Nat := 64

/-- Takes an element of an annotation. -/
def annotationElement (value : Reader ElementValue) : Reader AnnotationElement := do
  let name ← utf8 pool
  let value ← value
  return .mk name value

/-- Takes an annotation whose members are read by `value`. -/
def annotationWith (value : Reader ElementValue) : Reader AnnotationUse := do
  let type ← utf8 pool
  let elements ← counted (annotationElement pool value)
  return .mk type elements

/-- The tags of numbers and texts. -/
def isConstantTag (tag : UInt8) : Bool :=
  "BCDFIJSZs".toList.any (·.toNat == tag.toNat)

/-- Takes an annotation value below which `levels - 1` more levels may follow. -/
def elementValue : Nat → Reader ElementValue
  | 0 => throw .nestingTooDeep
  | levels + 1 => do
    let tag ← u8
    if isConstantTag tag then
      return .constant tag (← u16)
    else if tag.toNat = 'e'.toNat then
      let type ← utf8 pool
      let name ← utf8 pool
      return .enumConstant type name
    else if tag.toNat = 'c'.toNat then
      return .classLiteral (← utf8 pool)
    else if tag.toNat = '@'.toNat then
      -- The nested annotation takes a level of its own, so its members stand two levels down.
      return .nested (← annotationWith pool
        (match levels with
          | 0 => throw .nestingTooDeep
          | below + 1 => elementValue below))
    else if tag.toNat = '['.toNat then
      return .array (← counted (elementValue levels))
    else throw (.badElementTag tag)

/-- Takes an annotation at level zero. -/
def annotationUse : Reader AnnotationUse :=
  annotationWith pool (elementValue pool maxElementDepth)

/-- Takes the default value of an annotation element, which stands at level zero. -/
def defaultValue : Reader ElementValue :=
  elementValue pool (maxElementDepth + 1)

/-- Passes over what tells the target of a type annotation. -/
def targetInfo (target : UInt8) : Reader Unit :=
  let t := target.toNat
  if t = 0x00 ∨ t = 0x01 ∨ t = 0x16 then skip 1
  else if t = 0x10 ∨ t = 0x11 ∨ t = 0x12 ∨ t = 0x17 ∨ 0x42 ≤ t ∧ t ≤ 0x46 then skip 2
  else if 0x13 ≤ t ∧ t ≤ 0x15 then pure ()
  else if t = 0x40 ∨ t = 0x41 then do
    let count ← u16
    skip (count.toNat * 6)
  else if 0x47 ≤ t ∧ t ≤ 0x4B then skip 3
  else throw (.badTargetType target)

/-- Takes a step of the path into a type. -/
def pathStep : Reader (UInt8 × UInt8) := do
  let kind ← u8
  let argument ← u8
  return (kind, argument)

/-- Takes an annotation on a type. -/
def typeAnnotationUse : Reader TypeAnnotationUse := do
  let target ← u8
  targetInfo target
  let path ← shortCounted pathStep
  let use ← annotationUse pool
  return ⟨target, path, use⟩

/-! ## Stack maps -/

/-- Takes what a stack map says about a value. -/
def verificationType : Reader VerificationType := do
  let tag ← u8
  match tag.toNat with
  | 0 => return .top
  | 1 => return .integer
  | 2 => return .float
  | 3 => return .double
  | 4 => return .long
  | 5 => return .null
  | 6 => return .uninitializedThis
  | 7 => return .object (← className pool)
  | 8 => return .uninitialized (← u16)
  | _ => throw (.badVerificationType tag)

/-- Takes a frame of a stack map. -/
def frame : Reader Frame := do
  let type ← u8
  let t := type.toNat
  if t ≤ 63 then return ⟨type, [], []⟩
  else if t ≤ 127 then
    return ⟨type, [], ← many (verificationType pool) 1⟩
  else if t < 247 then throw (.badFrameType type)
  else
    skip 2
    if t = 247 then
      return ⟨type, [], ← many (verificationType pool) 1⟩
    else if t ≤ 251 then return ⟨type, [], []⟩
    else if t ≤ 254 then
      return ⟨type, ← many (verificationType pool) (t - 251), []⟩
    else
      let locals ← counted (verificationType pool)
      let stack ← counted (verificationType pool)
      return ⟨type, locals, stack⟩

/-! ## Code -/

/-- Takes an exception handler. -/
def exceptionHandler : Reader ExceptionHandler := do
  let startPc ← u16
  let endPc ← u16
  let handlerPc ← u16
  let catchType ← className? pool
  return ⟨startPc, endPc, handlerPc, catchType⟩

/-- Takes the code of a method, whose own attributes are read by `attributes`. -/
def code (attributes : Reader (List Attribute)) : Reader (Code Attribute) := do
  let maxStack ← u16
  let maxLocals ← u16
  let bytecode ← sized
  let handlers ← counted (exceptionHandler pool)
  let attributes ← attributes
  return ⟨maxStack, maxLocals, bytecode, handlers, attributes⟩

/-- Takes a bootstrap method. -/
def bootstrapMethod : Reader BootstrapMethod := do
  let handle ← u16
  let arguments ← counted u16
  return ⟨handle, arguments⟩

/-! ## Attributes -/

/-- The reader of the content of an attribute with a known name. -/
def content? (attributes : Reader (List Attribute)) (name : String) :
    Option (Reader Attribute) :=
  match name with
  | "Signature" => some (Attribute.signature <$> utf8 pool)
  | "ConstantValue" => some (Attribute.constantValue <$> u16)
  | "Exceptions" => some (Attribute.exceptions <$> counted (className pool))
  | "Code" => some (Attribute.code <$> code pool attributes)
  | "RuntimeVisibleAnnotations" =>
    some (Attribute.annotations true <$> counted (annotationUse pool))
  | "RuntimeInvisibleAnnotations" =>
    some (Attribute.annotations false <$> counted (annotationUse pool))
  | "RuntimeVisibleParameterAnnotations" =>
    some (Attribute.parameterAnnotations true <$> shortCounted (counted (annotationUse pool)))
  | "RuntimeInvisibleParameterAnnotations" =>
    some (Attribute.parameterAnnotations false <$> shortCounted (counted (annotationUse pool)))
  | "RuntimeVisibleTypeAnnotations" =>
    some (Attribute.typeAnnotations true <$> counted (typeAnnotationUse pool))
  | "RuntimeInvisibleTypeAnnotations" =>
    some (Attribute.typeAnnotations false <$> counted (typeAnnotationUse pool))
  | "AnnotationDefault" => some (Attribute.annotationDefault <$> defaultValue pool)
  | "BootstrapMethods" => some (Attribute.bootstrapMethods <$> counted bootstrapMethod)
  | "StackMapTable" => some (Attribute.stackMapTable <$> counted (frame pool))
  | _ => none

/-- Reads the whole of `body` as the content of the attribute `name`. -/
def wholeBody (name : String) (content : Reader Attribute) (body : List UInt8) :
    Except FormatError Attribute := do
  let (value, cursor) ← content (Cursor.start body)
  if cursor.atEnd then return value else throw (.attributeLength name)

/-- Takes an attribute; the attributes inside of code are read by `attributes`. -/
def attributeWith (attributes : Reader (List Attribute)) : Reader Attribute := do
  let name ← utf8 pool
  let body ← sized
  match content? pool attributes name with
  | some content => wholeBody name content body
  | none => return .other name

/-- Takes a list of attributes in which code nests less than `levels` deep. -/
def attributesUpTo : Nat → Reader (List Attribute)
  | 0 => outOfData
  | levels + 1 => counted (attributeWith pool (attributesUpTo levels))

/-- Takes a list of attributes.  Each level of code takes bytes of its own, so code cannot nest deeper
than there are bytes. -/
def attributes : Reader (List Attribute) := fun cursor =>
  attributesUpTo pool (cursor.rest.length + 1) cursor

end Reader

end JarSurvey.ClassFile
