import JarSurvey.ClassFile.Basic
import JarSurvey.ClassFile.Instruction
import JarSurvey.Descriptor.Names

/-!
# References of a class

A class refers to other classes at certain *sites*: its header, the types of its members, its
annotations, the operands of its code, and so on.  The walk has two steps.

* `ClassFile.sites` lists the sites of a class in reading order.  Where a generic signature is present
  it is the only site for the types it describes, so that no type counts twice.
* `ClassFile.namesAt` resolves a site to the dotted names of the classes it mentions.

`ClassFile.references` puts both together.  Names are repeated as often as they occur.

A dynamic constant names a bootstrap method, whose arguments may be dynamic constants in turn; chains
of more than `maxDynamicDepth` of them are refused.
-/

namespace JarSurvey.ClassFile

/-- A place of a class where other classes are mentioned. -/
inductive Site where
  /-- A class by its internal name, or an array by its descriptor. -/
  | className (name : String)
  | fieldDescriptor (text : String)
  | methodDescriptor (text : String)
  | classSignature (text : String)
  | fieldSignature (text : String)
  /-- A method signature, of which the `throws` clause is left out. -/
  | methodSignature (text : String)
  /-- A class literal, by the descriptor of a result. -/
  | classLiteral (descriptor : String)
  /-- A constant that is loaded. -/
  | constant (index : Index)
  /-- A class that is instantiated or tested for. -/
  | classOperand (index : Index)
  /-- A field that is read or written. -/
  | fieldOperand (index : Index)
  /-- A method that is called. -/
  | methodOperand (index : Index)
  /-- A call site that is linked when it is first run. -/
  | callSite (index : Index)
  /-- Code that cannot be decoded. -/
  | undecodable (error : FormatError)
  deriving DecidableEq, Repr

/-! ## Sites -/

mutual

/-- The sites of an annotation: its type, then those of its values. -/
def AnnotationUse.sites : AnnotationUse → List Site
  | .mk type elements => .fieldDescriptor type :: AnnotationElement.listSites elements

/-- The sites of the values of elements. -/
def AnnotationElement.listSites : List AnnotationElement → List Site
  | [] => []
  | .mk _ value :: rest => value.sites ++ AnnotationElement.listSites rest

/-- The sites of an annotation value. -/
def ElementValue.sites : ElementValue → List Site
  | .constant _ _ => []
  | .enumConstant type _ => [.fieldDescriptor type]
  | .classLiteral descriptor => [.classLiteral descriptor]
  | .nested use => use.sites
  | .array values => ElementValue.listSites values

/-- The sites of a list of annotation values. -/
def ElementValue.listSites : List ElementValue → List Site
  | [] => []
  | value :: rest => value.sites ++ ElementValue.listSites rest

end

namespace Attribute

/-- The sites of an attribute that holds annotations. -/
def annotationSites : Attribute → List Site
  | .annotations _ uses => uses.flatMap AnnotationUse.sites
  | .parameterAnnotations _ parameters => parameters.flatten.flatMap AnnotationUse.sites
  | .typeAnnotations _ uses => uses.flatMap fun annotated => annotated.use.sites
  | .annotationDefault value => value.sites
  | _ => []

/-- The site of a constant value. -/
def constantValueSites : Attribute → List Site
  | .constantValue index => [.constant index]
  | _ => []

/-- The sites of a list of checked exceptions. -/
def exceptionSites : Attribute → List Site
  | .exceptions names => names.map .className
  | _ => []

/-- The sites of the frames of a stack map: the objects among locals and stack. -/
def frameSites : Attribute → List Site
  | .stackMapTable frames =>
    (frames.flatMap fun frame => frame.locals ++ frame.stack).filterMap fun
      | .object name => some (.className name)
      | _ => none
  | _ => []

end Attribute

/-- The site of the operand of an instruction. -/
def Operand.sites : Operand → List Site
  | .none => []
  | .constant index => [.constant index]
  | .classRef index => [.classOperand index]
  | .field index => [.fieldOperand index]
  | .method index => [.methodOperand index]
  | .callSite index => [.callSite index]
  | .multiArray index _ => [.classOperand index]

/-- The sites of bytecode; code that cannot be decoded to its end is a site too. -/
def bytecodeSites (bytecode : List UInt8) : List Site :=
  let (instructions, failure) := Instruction.decode bytecode
  (instructions.flatMap fun instruction => instruction.operand.sites) ++
    failure.toList.map .undecodable

/-- The sites of the code of a method: instructions, caught exceptions, stack maps, annotations. -/
def Code.sites (code : Code Attribute) : List Site :=
  bytecodeSites code.bytecode ++
    (code.handlers.filterMap fun handler => handler.catchType.map .className) ++
    code.attributes.flatMap Attribute.frameSites ++
    code.attributes.flatMap Attribute.annotationSites

/-- The sites of an attribute that holds code. -/
def Attribute.codeSites : Attribute → List Site
  | .code body => body.sites
  | _ => []

/-- The sites of a field: its type, its constant value, its annotations. -/
def Member.fieldSites (field : Member) : List Site :=
  (match field.signature with
    | some text => Site.fieldSignature text
    | none => Site.fieldDescriptor field.descriptor) ::
    (field.attributes.flatMap Attribute.constantValueSites ++
      field.attributes.flatMap Attribute.annotationSites)

/-- The sites of a method: its type, its checked exceptions, its annotations, its code. -/
def Member.methodSites (method : Member) : List Site :=
  (match method.signature with
    | some text => Site.methodSignature text
    | none => Site.methodDescriptor method.descriptor) ::
    (method.attributes.flatMap Attribute.exceptionSites ++
      method.attributes.flatMap Attribute.annotationSites ++
      method.attributes.flatMap Attribute.codeSites)

/-- The sites of the header: the signature of the class or, without one, the names of its
superclass and its interfaces. -/
def headerSites (file : ClassFile) : List Site :=
  match file.signature with
  | some text => [.classSignature text]
  | none => (file.superclass.toList ++ file.interfaces).map .className

/-- The sites of a class in reading order. -/
def sites (file : ClassFile) : List Site :=
  file.headerSites ++ file.attributes.flatMap Attribute.annotationSites ++
    file.fields.flatMap Member.fieldSites ++ file.methods.flatMap Member.methodSites

/-! ## Names -/

/-- A result of the descriptor readers as one of the class reader. -/
def ofDescriptor {α : Type} : Except Descriptor.Malformed α → Except FormatError α
  | .ok value => .ok value
  | .error malformed => .error (.badSignature malformed)

/-- The names of a class constant. -/
def classNames (name : String) : Except FormatError (List String) :=
  ofDescriptor (Descriptor.classConstantNames name)

/-- The names of a field descriptor. -/
def fieldNames (text : String) : Except FormatError (List String) :=
  ofDescriptor ((Descriptor.fieldDescriptor text).map (·.names))

/-- The names of a method descriptor. -/
def methodNames (text : String) : Except FormatError (List String) :=
  ofDescriptor ((Descriptor.methodDescriptor text).map (·.names))

/-- The names of a method handle: the owner of the member, then its type. -/
def handleNames (handle : Handle) : Except FormatError (List String) := do
  let owner ← classNames handle.member.owner
  let types ←
    if handle.isField then fieldNames handle.member.descriptor
    else methodNames handle.member.descriptor
  return owner ++ types

/-- The names that `names` gives for the items of a list, one after the other. -/
def concatNames {α : Type} (names : α → Except FormatError (List String)) :
    List α → Except FormatError (List String)
  | [] => .ok []
  | x :: xs => do
    let first ← names x
    let later ← concatNames names xs
    return first ++ later

/-- The names of bootstrap method `index`: those of its handle, then those of its arguments. -/
def bootstrapNames (file : ClassFile) (argument : Index → Except FormatError (List String))
    (index : Index) : Except FormatError (List String) := do
  match file.bootstrapMethods[index.toNat]? with
  | none => throw (.missingBootstrapMethod index)
  | some method =>
    let handle ← file.pool.handle method.handle
    let first ← handleNames handle
    let later ← concatNames argument method.arguments
    return first ++ later

/-- How many dynamic constants may follow one another through bootstrap arguments. -/
def maxDynamicDepth : Nat := 32

/-- The names of a constant that is loaded; `link` gives those of the bootstrap method of a dynamic
constant. -/
def loadedNames (file : ClassFile) (link : Index → Except FormatError (List String))
    (index : Index) : Except FormatError (List String) := do
  match ← file.pool.get index with
  | .classRef name => classNames (← file.pool.utf8 name)
  | .methodType descriptor => methodNames (← file.pool.utf8 descriptor)
  | .methodHandle _ _ => handleNames (← file.pool.handle index)
  | .dynamic bootstrap nameAndType =>
    let (_, descriptor) ← file.pool.nameAndType nameAndType
    let type ← fieldNames descriptor
    let linked ← link bootstrap
    return type ++ linked
  | _ => return []

/-- The names of a constant that is loaded, through at most `depth` dynamic constants. -/
def constantNames (file : ClassFile) : Nat → Index → Except FormatError (List String)
  | 0 => loadedNames file fun _ => throw .nestingTooDeep
  | below + 1 => loadedNames file (bootstrapNames file (constantNames file below))

/-- The names of a call site: its type, then its bootstrap method. -/
def callSiteNames (file : ClassFile) (index : Index) : Except FormatError (List String) := do
  match ← file.pool.get index with
  | .invokeDynamic bootstrap nameAndType =>
    let (_, descriptor) ← file.pool.nameAndType nameAndType
    let type ← methodNames descriptor
    let linked ← bootstrapNames file (constantNames file maxDynamicDepth) bootstrap
    return type ++ linked
  | _ => throw (.unexpectedConstant index .invokeDynamic)

/-- The names of a method that is called: its owner, then its type. -/
def methodOperandNames (file : ClassFile) (index : Index) :
    Except FormatError (List String) := do
  let member ← file.pool.member index
  let owner ← classNames member.owner
  let types ← methodNames member.descriptor
  return owner ++ types

/-- The dotted names of the classes that a site mentions.  Of a field that is used only the type
counts, not the owner. -/
def namesAt (file : ClassFile) : Site → Except FormatError (List String)
  | .className name => classNames name
  | .fieldDescriptor text => fieldNames text
  | .methodDescriptor text => methodNames text
  | .classSignature text => ofDescriptor ((Descriptor.classSignature text).map (·.names))
  | .fieldSignature text => ofDescriptor ((Descriptor.fieldSignature text).map (·.names))
  | .methodSignature text =>
    ofDescriptor ((Descriptor.methodSignature text).map (·.namesWithoutThrows))
  | .classLiteral descriptor =>
    ofDescriptor ((Descriptor.returnDescriptor descriptor).map fun type =>
      type.toList.flatMap (·.names))
  | .constant index => constantNames file maxDynamicDepth index
  | .classOperand index => do classNames (← file.pool.className index)
  | .fieldOperand index => do fieldNames (← file.pool.member index).descriptor
  | .methodOperand index => methodOperandNames file index
  | .callSite index => callSiteNames file index
  | .undecodable error => .error error

/-- The dotted names of all classes that a class mentions, in reading order. -/
def references (file : ClassFile) : Except FormatError (List String) :=
  concatNames file.namesAt file.sites

/-! ## Scanning -/

/-- What the survey keeps of a class. -/
structure Scan where
  name : String
  major : UInt16
  references : List String
  deriving DecidableEq, Repr

/-- Reads the bytes of a class file and lists the classes it mentions. -/
def scan (bytes : List UInt8) : Except FormatError Scan := do
  let file ← parse bytes
  let names ← file.references
  return ⟨Descriptor.dotted file.name, file.major, names⟩

end JarSurvey.ClassFile
