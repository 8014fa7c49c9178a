import JarSurvey.ClassFile.ConstantPool

/-!
# Attributes

Classes, fields, methods and the code of methods carry attributes.  An `Attribute` keeps what the
survey looks at: signatures, constants, exceptions, code, annotations, bootstrap methods and stack
maps.  Of any other attribute only the name is kept.

Names of classes and descriptors are resolved to text; an index into the pool is kept where what it
means depends on its use.
-/

namespace JarSurvey.ClassFile

mutual

/-- A use of an annotation type, with values for some of its elements. -/
inductive AnnotationUse where
  | mk (type : String) (elements : List AnnotationElement)

/-- A named element of an annotation with its value. -/
inductive AnnotationElement where
  | mk (name : String) (value : ElementValue)

/-- The value of an annotation element. -/
inductive ElementValue where
  /-- A number or a text, by the tag that tells which. -/
  | constant (tag : UInt8) (index : Index)
  /-- A constant of the enumeration with the descriptor `type`. -/
  | enumConstant (type name : String)
  /-- A class literal, by the descriptor of a result. -/
  | classLiteral (descriptor : String)
  | nested (use : AnnotationUse)
  | array (values : List ElementValue)

end

/-- The descriptor of the annotation type. -/
def AnnotationUse.type : AnnotationUse → String
  | mk type _ => type

/-- The elements that are given a value. -/
def AnnotationUse.elements : AnnotationUse → List AnnotationElement
  | mk _ elements => elements

/-- An annotation on a use of a type. -/
structure TypeAnnotationUse where
  target : UInt8
  path : List (UInt8 × UInt8)
  use : AnnotationUse

/-- A bootstrap method: its handle and its constant arguments. -/
structure BootstrapMethod where
  handle : Index
  arguments : List Index
  deriving DecidableEq, Repr

/-- What a stack map says about a value. -/
inductive VerificationType where
  | top
  | integer
  | float
  | double
  | long
  | null
  | uninitializedThis
  /-- An object of the class, or an array by its descriptor. -/
  | object (name : String)
  | uninitialized (offset : UInt16)
  deriving DecidableEq, Repr

/-- A frame of a stack map. -/
structure Frame where
  type : UInt8
  locals : List VerificationType
  stack : List VerificationType
  deriving DecidableEq, Repr

/-- A range of code with the place that handles its exceptions; no class to catch means all. -/
structure ExceptionHandler where
  startPc : UInt16
  endPc : UInt16
  handlerPc : UInt16
  catchType : Option String
  deriving DecidableEq, Repr

/-- The code of a method, with attributes of its own of the type `α`. -/
structure Code (α : Type) where
  maxStack : UInt16
  maxLocals : UInt16
  bytecode : List UInt8
  handlers : List ExceptionHandler
  attributes : List α

/-- An attribute of a class, a field, a method or of code. -/
inductive Attribute where
  | signature (text : String)
  | constantValue (index : Index)
  | exceptions (names : List String)
  | code (body : Code Attribute)
  | annotations (visible : Bool) (uses : List AnnotationUse)
  | parameterAnnotations (visible : Bool) (parameters : List (List AnnotationUse))
  | typeAnnotations (visible : Bool) (uses : List TypeAnnotationUse)
  | annotationDefault (value : ElementValue)
  | bootstrapMethods (methods : List BootstrapMethod)
  | stackMapTable (frames : List Frame)
  | other (name : String)

/-- The text of the first signature among attributes. -/
def Attribute.firstSignature (attributes : List Attribute) : Option String :=
  attributes.findSome? fun
    | .signature text => some text
    | _ => none

/-- The first table of bootstrap methods among attributes, or an empty one. -/
def Attribute.firstBootstrapMethods (attributes : List Attribute) : List BootstrapMethod :=
  (attributes.findSome? fun
    | .bootstrapMethods methods => some methods
    | _ => none).getD []

end JarSurvey.ClassFile
