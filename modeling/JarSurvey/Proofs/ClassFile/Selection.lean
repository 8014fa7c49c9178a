import JarSurvey.ClassFile.References
import JarSurvey.Proofs.ClassFile.Lookup

/-!
# Which parts of a class count

`ClassFile.sites` walks a class in reading order.  This file says **which** parts of a class count, kind
by kind and without an order:

* `headerSelection` — the signature of the class, or else its superclass and its interfaces;
* `annotationSelection` — the types of all annotations and the enumerations, class literals and nested
  annotations among their values;
* `fieldSelection`, `methodSelection` — the types of members, constant values, checked exceptions;
* `codeSelection` — operands of instructions, caught exceptions, objects in stack maps.

**`sites_perm`** says that the walk meets the selected sites, each as often as it is selected, and stumbles
only where code cannot be decoded.
-/

namespace JarSurvey.ClassFile

/-! ## The sites of annotations -/

mutual

/-- The values inside of an annotation, however deep. -/
def AnnotationUse.inside : AnnotationUse → List ElementValue
  | .mk _ elements => AnnotationElement.inside elements

/-- The values of elements, and the values inside of them. -/
def AnnotationElement.inside : List AnnotationElement → List ElementValue
  | [] => []
  | .mk _ value :: rest => value.parts ++ AnnotationElement.inside rest

/-- A value and the values inside of it. -/
def ElementValue.parts : ElementValue → List ElementValue
  | .nested use => .nested use :: use.inside
  | .array values => .array values :: ElementValue.listParts values
  | .constant tag index => [.constant tag index]
  | .enumConstant type name => [.enumConstant type name]
  | .classLiteral descriptor => [.classLiteral descriptor]

/-- Values and the values inside of them. -/
def ElementValue.listParts : List ElementValue → List ElementValue
  | [] => []
  | value :: rest => value.parts ++ ElementValue.listParts rest

end

/-- The site of a value itself, without the values inside of it: numbers, texts and arrays have none. -/
def ElementValue.ownSites : ElementValue → List Site
  | .constant _ _ => []
  | .enumConstant type _ => [.fieldDescriptor type]
  | .classLiteral descriptor => [.classLiteral descriptor]
  | .nested use => [.fieldDescriptor use.type]
  | .array _ => []

namespace Attribute

/-- The annotations of an attribute. -/
def uses : Attribute → List AnnotationUse
  | .annotations _ uses => uses
  | .parameterAnnotations _ parameters => parameters.flatten
  | .typeAnnotations _ uses => uses.map (·.use)
  | _ => []

/-- The values that an attribute holds outside of annotations: the default of an element. -/
def defaults : Attribute → List ElementValue
  | .annotationDefault value => [value]
  | _ => []

/-- The signature in an attribute. -/
def signatureText? : Attribute → Option String
  | .signature text => some text
  | _ => none

/-- The index in a constant value. -/
def constantIndex? : Attribute → Option Index
  | .constantValue index => some index
  | _ => none

/-- The names of checked exceptions. -/
def exceptionNames : Attribute → List String
  | .exceptions names => names
  | _ => []

/-- The code in an attribute. -/
def code? : Attribute → Option (Code Attribute)
  | .code body => some body
  | _ => none

/-- The frames of a stack map. -/
def frames : Attribute → List Frame
  | .stackMapTable frames => frames
  | _ => []

end Attribute

/-- The class of an object that a stack map speaks of. -/
def VerificationType.objectName? : VerificationType → Option String
  | .object name => some name
  | _ => none

/-- The site of an operand, if it has one. -/
def Operand.site? : Operand → Option Site
  | .none => .none
  | .constant index => some (.constant index)
  | .classRef index => some (.classOperand index)
  | .multiArray index _ => some (.classOperand index)
  | .field index => some (.fieldOperand index)
  | .method index => some (.methodOperand index)
  | .callSite index => some (.callSite index)

/-! ## The sites of a class -/

/-- The type of a member: its first signature, or else its descriptor. -/
def Member.typeSite (ofSignature ofDescriptor : String → Site) (member : Member) : Site :=
  ((member.attributes.filterMap Attribute.signatureText?).head?.map ofSignature).getD
    (ofDescriptor member.descriptor)

/-- The code of the methods. -/
def bodies (file : ClassFile) : List (Code Attribute) :=
  (file.methods.flatMap (·.attributes)).filterMap Attribute.code?

/-- The attributes that can carry annotations: those of the class, of its fields, of its methods and of
their code. -/
def annotated (file : ClassFile) : List Attribute :=
  file.attributes ++ file.fields.flatMap (·.attributes) ++ file.methods.flatMap (·.attributes) ++
    file.bodies.flatMap (·.attributes)

/-- The header: the first signature of the class or, only if there is none, its superclass and its
interfaces. -/
def headerSelection (file : ClassFile) : List Site :=
  match (file.attributes.filterMap Attribute.signatureText?).head? with
  | some text => [.classSignature text]
  | none => (file.superclass.toList ++ file.interfaces).map .className

/-- The annotations: the type of each, and the enumerations, class literals and nested annotations among
the values inside of them and among default values. -/
def annotationSelection (file : ClassFile) : List Site :=
  (file.annotated.flatMap Attribute.uses).map (fun use => .fieldDescriptor use.type) ++
    ((file.annotated.flatMap Attribute.uses).flatMap AnnotationUse.inside).flatMap
      ElementValue.ownSites ++
    ((file.annotated.flatMap Attribute.defaults).flatMap ElementValue.parts).flatMap
      ElementValue.ownSites

/-- The fields: the type of each, and constant values. -/
def fieldSelection (file : ClassFile) : List Site :=
  file.fields.map (Member.typeSite .fieldSignature .fieldDescriptor) ++
    ((file.fields.flatMap (·.attributes)).filterMap Attribute.constantIndex?).map .constant

/-- The methods: the type of each, and checked exceptions. -/
def methodSelection (file : ClassFile) : List Site :=
  file.methods.map (Member.typeSite .methodSignature .methodDescriptor) ++
    ((file.methods.flatMap (·.attributes)).flatMap Attribute.exceptionNames).map .className

/-- The code: operands of the instructions that can be decoded, caught exceptions, objects in stack
maps. -/
def codeSelection (file : ClassFile) : List Site :=
  ((file.bodies.flatMap fun body => (Instruction.decode body.bytecode).1).filterMap
      fun instruction => instruction.operand.site?) ++
    ((file.bodies.flatMap (·.handlers)).filterMap (·.catchType)).map .className ++
    ((((file.bodies.flatMap (·.attributes)).flatMap Attribute.frames).flatMap
      fun frame => frame.locals ++ frame.stack).filterMap VerificationType.objectName?).map .className

/-- **The selected sites of a class**, by kind. -/
def selected (file : ClassFile) : List Site :=
  file.headerSelection ++ file.annotationSelection ++ file.fieldSelection ++ file.methodSelection ++
    file.codeSelection

/-- Whether the code of every method can be decoded to its end. -/
def Decodes (file : ClassFile) : Prop :=
  ∀ body ∈ file.bodies, (Instruction.decode body.bytecode).2 = none

/-- The sites at which the walk stumbles over code that cannot be decoded. -/
def undecodables (file : ClassFile) : List Site :=
  file.bodies.flatMap fun body => (Instruction.decode body.bytecode).2.toList.map .undecodable

/-! ## The walk meets the selected sites

Sums of multisets forget the order, so that the parts of the walk can be sorted by kind one after the
other.
-/

section Multiset

variable {α β : Type}

lemma coe_flatMap_append (l : List α) (f g : α → List β) :
    ((l.flatMap fun a => f a ++ g a : List β) : Multiset β) = ↑(l.flatMap f) + ↑(l.flatMap g) := by
  rw [Multiset.coe_add, Multiset.coe_eq_coe]
  exact (List.flatMap_append_perm l f g).symm

lemma coe_flatMap_cons (l : List α) (f : α → β) (g : α → List β) :
    ((l.flatMap fun a => f a :: g a : List β) : Multiset β) = ↑(l.map f) + ↑(l.flatMap g) := by
  rw [Multiset.coe_add, Multiset.coe_eq_coe]
  exact (List.map_append_flatMap_perm l f g).symm

end Multiset

mutual

lemma AnnotationUse.sites_eq : ∀ use : AnnotationUse,
    use.sites = .fieldDescriptor use.type :: use.inside.flatMap ElementValue.ownSites
  | .mk type elements => by
      rw [AnnotationUse.sites, AnnotationUse.inside, AnnotationElement.listSites_eq elements]
      rfl

lemma AnnotationElement.listSites_eq : ∀ elements : List AnnotationElement,
    AnnotationElement.listSites elements =
      (AnnotationElement.inside elements).flatMap ElementValue.ownSites
  | [] => by simp [AnnotationElement.listSites, AnnotationElement.inside]
  | .mk _ value :: rest => by
      rw [AnnotationElement.listSites, AnnotationElement.inside, List.flatMap_append,
        ElementValue.sites_eq value, AnnotationElement.listSites_eq rest]

lemma ElementValue.sites_eq : ∀ value : ElementValue,
    value.sites = value.parts.flatMap ElementValue.ownSites
  | .constant _ _ => rfl
  | .enumConstant _ _ => rfl
  | .classLiteral _ => rfl
  | .nested use => by
      rw [ElementValue.sites, ElementValue.parts, AnnotationUse.sites_eq use]
      rfl
  | .array values => by
      rw [ElementValue.sites, ElementValue.parts, ElementValue.listSites_eq values]
      rfl

lemma ElementValue.listSites_eq : ∀ values : List ElementValue,
    ElementValue.listSites values =
      (ElementValue.listParts values).flatMap ElementValue.ownSites
  | [] => by simp [ElementValue.listSites, ElementValue.listParts]
  | value :: rest => by
      rw [ElementValue.listSites, ElementValue.listParts, List.flatMap_append,
        ElementValue.sites_eq value, ElementValue.listSites_eq rest]

end

/-- An attribute contributes the sites of its annotations and of its default values. -/
lemma Attribute.annotationSites_eq (item : Attribute) :
    item.annotationSites =
      item.uses.flatMap AnnotationUse.sites ++ item.defaults.flatMap ElementValue.sites := by
  cases item <;> simp [Attribute.annotationSites, Attribute.uses, Attribute.defaults,
    List.flatMap_map]

lemma Attribute.firstSignature_eq (attributes : List Attribute) :
    Attribute.firstSignature attributes = (attributes.filterMap Attribute.signatureText?).head? := by
  rw [List.head?_filterMap]
  rfl

/-- The annotations, sorted by kind. -/
lemma coe_annotationSelection (file : ClassFile) :
    (file.annotationSelection : Multiset Site) =
      ↑(file.annotated.flatMap Attribute.annotationSites) := by
  rw [funext Attribute.annotationSites_eq, coe_flatMap_append]
  simp only [← List.flatMap_assoc]
  rw [funext AnnotationUse.sites_eq, funext ElementValue.sites_eq, coe_flatMap_cons]
  simp only [← List.flatMap_assoc, annotationSelection, Multiset.coe_add]

lemma headerSites_eq (file : ClassFile) : file.headerSites = file.headerSelection := by
  rewrite [headerSites, headerSelection, signature, Attribute.firstSignature_eq]
  cases (file.attributes.filterMap Attribute.signatureText?).head? <;> rfl

/-- The sites of the fields, sorted by kind. -/
lemma coe_fieldSites (file : ClassFile) :
    (file.fields.flatMap Member.fieldSites : Multiset Site) =
      file.fieldSelection +
        ↑((file.fields.flatMap (·.attributes)).flatMap Attribute.annotationSites) := by
  have htype : Member.fieldSites = fun field =>
      field.typeSite .fieldSignature .fieldDescriptor ::
        (field.attributes.flatMap Attribute.constantValueSites ++
          field.attributes.flatMap Attribute.annotationSites) := by
    funext field
    rw [Member.fieldSites, Member.typeSite, Member.signature, Attribute.firstSignature_eq]
    cases (field.attributes.filterMap Attribute.signatureText?).head? <;> rfl
  have hvalue : ∀ attributes : List Attribute, attributes.flatMap Attribute.constantValueSites =
      (attributes.filterMap Attribute.constantIndex?).map .constant := by
    intro attributes
    rw [List.map_filterMap, List.filterMap_eq_flatMap_toList]
    congr 1
    funext item
    cases item <;> rfl
  rw [htype, coe_flatMap_cons, coe_flatMap_append]
  simp only [← List.flatMap_assoc]
  rw [hvalue, fieldSelection, ← Multiset.coe_add]
  abel

/-- The sites of code, sorted by kind. -/
lemma coe_codeSites (file : ClassFile) :
    (file.bodies.flatMap Code.sites : Multiset Site) =
      file.codeSelection + file.undecodables +
        ↑((file.bodies.flatMap (·.attributes)).flatMap Attribute.annotationSites) := by
  have hoperand : Operand.sites = fun operand => operand.site?.toList := by
    funext operand
    cases operand <;> rfl
  have hframe : Attribute.frameSites = fun item =>
      ((item.frames.flatMap fun frame => frame.locals ++ frame.stack).filterMap
        VerificationType.objectName?).map .className := by
    funext item
    cases item with
    | stackMapTable frames =>
        rw [Attribute.frameSites, Attribute.frames, List.map_filterMap]
        congr 1
        funext type
        cases type <;> rfl
    | _ => rfl
  have hbytecode : (fun body : Code Attribute => bytecodeSites body.bytecode) = fun body =>
      ((Instruction.decode body.bytecode).1.filterMap fun instruction => instruction.operand.site?) ++
        (Instruction.decode body.bytecode).2.toList.map .undecodable := by
    funext body
    rw [bytecodeSites, hoperand, List.filterMap_eq_flatMap_toList]
  have hcode : Code.sites = fun body => bytecodeSites body.bytecode ++
      (body.handlers.filterMap fun handler => handler.catchType.map .className) ++
      body.attributes.flatMap Attribute.frameSites ++
      body.attributes.flatMap Attribute.annotationSites := rfl
  rw [hcode]
  simp only [coe_flatMap_append]
  rw [hbytecode, hframe]
  simp only [coe_flatMap_append, ← List.flatMap_assoc]
  simp only [codeSelection, undecodables, ← Multiset.coe_add, List.filterMap_flatMap, List.map_flatMap,
    List.flatMap_assoc, List.map_filterMap]
  abel

/-- The sites of the methods, sorted by kind. -/
lemma coe_methodSites (file : ClassFile) :
    (file.methods.flatMap Member.methodSites : Multiset Site) =
      file.methodSelection + file.codeSelection + file.undecodables +
        ↑((file.methods.flatMap (·.attributes)).flatMap Attribute.annotationSites) +
        ↑((file.bodies.flatMap (·.attributes)).flatMap Attribute.annotationSites) := by
  have htype : Member.methodSites = fun method =>
      method.typeSite .methodSignature .methodDescriptor ::
        (method.attributes.flatMap Attribute.exceptionSites ++
          method.attributes.flatMap Attribute.annotationSites ++
          method.attributes.flatMap Attribute.codeSites) := by
    funext method
    rw [Member.methodSites, Member.typeSite, Member.signature, Attribute.firstSignature_eq]
    cases (method.attributes.filterMap Attribute.signatureText?).head? <;> rfl
  have hexception : Attribute.exceptionSites = fun item => item.exceptionNames.map .className := by
    funext item
    cases item <;> rfl
  have hbodies : ∀ attributes : List Attribute, attributes.flatMap Attribute.codeSites =
      (attributes.filterMap Attribute.code?).flatMap Code.sites := by
    intro attributes
    rw [List.filterMap_eq_flatMap_toList, List.flatMap_assoc]
    congr 1
    funext item
    cases item with
    | code body => simp [Attribute.codeSites, Attribute.code?]
    | _ => rfl
  rw [htype, coe_flatMap_cons]
  simp only [coe_flatMap_append, ← List.flatMap_assoc]
  rw [hbodies, ← bodies, coe_codeSites, hexception]
  simp only [methodSelection, ← Multiset.coe_add, List.map_flatMap]
  abel

/-- **The walk meets the selected sites**, each as often as it is selected, and code that cannot be
decoded. -/
lemma sites_perm (file : ClassFile) : file.sites.Perm (file.selected ++ file.undecodables) := by
  rw [← Multiset.coe_eq_coe]
  simp only [sites, selected, ← Multiset.coe_add]
  rw [headerSites_eq, coe_fieldSites, coe_methodSites, coe_annotationSelection, annotated]
  simp only [List.flatMap_append, ← Multiset.coe_add]
  abel

end JarSurvey.ClassFile
