import JarSurvey.Proofs.ClassFile.PoolGrowth
import JarSurvey.Proofs.Descriptor.Erased
import JarSurvey.Proofs.Usage

/-!
# Redundant signatures

A compiler may give a member a signature that says no more than its descriptor.  The sites of the member then change,
and for a method even the order of the names, but not the usage of the class:

* a usage does not see the order of references (`Usage.ofReferences_eq_of_perm`), so it is enough that the names at each
  site stay the same up to order (`Alike`);
* only the site of the type of a member is replaced (`Member.Signed.fieldSites_alike`,
  `Member.Signed.methodSites_alike`), and the new one is like the old one;
* what a site mentions does not depend on the members of the class (`namesAt_withMembers`).

The signature may need a constant that the class does not have yet, the name of the attribute; a larger pool does not
change what is mentioned either.
-/

namespace JarSurvey

namespace ClassFile

open Descriptor (ArePlain FieldType MethodDescriptor)

/-! ## Names without their order -/

/-- The names without their order. -/
def gathered (names : Except FormatError (List String)) : Except FormatError (Multiset String) :=
  names.map fun found => (found : Multiset String)

lemma gathered_append (first later : Except FormatError (List String)) :
    gathered (do return (← first) ++ (← later)) = (do return (← gathered first) + (← gathered later)) := by
  cases first with
  | error _ => rfl
  | ok names => cases later <;> rfl

lemma gathered_concatNames {α : Type} {names : α → Except FormatError (List String)} {xs ys : List α}
    (h : List.Forall₂ (fun x y => gathered (names x) = gathered (names y)) xs ys) :
    gathered (concatNames names xs) = gathered (concatNames names ys) := by
  induction h with
  | nil => rfl
  | cons hfirst _ ih => rw [concatNames, concatNames, gathered_append, gathered_append, hfirst, ih]

/-- **A usage is counted from the names without their order.** -/
lemma map_ofReferences_eq {names others : Except FormatError (List String)} (h : gathered names = gathered others) :
    names.map Usage.ofReferences = others.map Usage.ofReferences := by
  rcases names with error | found <;> rcases others with error' | found'
  · exact congrArg Except.error (Except.error.inj h)
  · cases h
  · cases h
  · exact congrArg Except.ok (Usage.ofReferences_eq_of_perm (Multiset.coe_eq_coe.mp (Except.ok.inj h)))

/-! ## Sites -/

variable {file : ClassFile}

/-- Two sites mention the same names up to order, or fail alike. -/
def Alike (file : ClassFile) (site other : Site) : Prop :=
  gathered (file.namesAt site) = gathered (file.namesAt other)

lemma forall₂_alike_refl (sites : List Site) : List.Forall₂ (Alike file) sites sites :=
  List.forall₂_same.mpr fun _ _ => rfl

/-- The descriptor of a field that is a signature, too. -/
def RedundantField (text : String) : Prop :=
  ∃ type, Descriptor.fieldDescriptor text = .ok type ∧ ¬ type.IsBase ∧ ArePlain type.objectNames

/-- The descriptor of a method that is a signature, too. -/
def RedundantMethod (text : String) : Prop :=
  ∃ method, Descriptor.methodDescriptor text = .ok method ∧ ArePlain method.objectNames

lemma RedundantField.alike {text : String} (h : RedundantField text) :
    Alike file (.fieldDescriptor text) (.fieldSignature text) := by
  obtain ⟨type, htype, hbase, hplain⟩ := h
  rw [Alike, namesAt, namesAt, fieldNames, htype, Descriptor.fieldSignature_of_fieldDescriptor htype hbase hplain]
  simp only [Except.map, type.names_generic]

lemma RedundantMethod.alike {text : String} (h : RedundantMethod text) :
    Alike file (.methodDescriptor text) (.methodSignature text) := by
  obtain ⟨method, hmethod, hplain⟩ := h
  rw [Alike, namesAt, namesAt, methodNames, hmethod, Descriptor.methodSignature_of_methodDescriptor hmethod hplain]
  have hperm : method.names.Perm method.generic.namesWithoutThrows := by
    rw [method.namesWithoutThrows_generic]
    exact List.perm_append_comm
  exact congrArg Except.ok (Multiset.coe_eq_coe.mpr hperm)

/-! ## Members -/

/-- The new member is the old one or, if this has no signature, has got its descriptor as one, at any place among its
attributes. -/
inductive Member.Signed (redundant : String → Prop) : Member → Member → Prop
  | kept (member : Member) : Signed redundant member member
  | gains {access : UInt16} {name descriptor : String} {front back : List Attribute}
      (hunsigned : Attribute.firstSignature (front ++ back) = none) (hredundant : redundant descriptor) :
      Signed redundant ⟨access, name, descriptor, front ++ back⟩
        ⟨access, name, descriptor, front ++ .signature descriptor :: back⟩

lemma firstSignature_insert {front back : List Attribute} (text : String)
    (h : Attribute.firstSignature (front ++ back) = none) :
    Attribute.firstSignature (front ++ .signature text :: back) = some text := by
  rw [Attribute.firstSignature, List.findSome?_append, Option.or_eq_none_iff] at h
  rw [Attribute.firstSignature, List.findSome?_append, h.1]
  rfl

/-- What finds nothing in a signature does not see that there is one more. -/
lemma flatMap_insert {α : Type} {f : Attribute → List α} (hf : ∀ text, f (.signature text) = [])
    (front back : List Attribute) (text : String) :
    (front ++ .signature text :: back).flatMap f = (front ++ back).flatMap f := by
  rw [List.flatMap_append, List.flatMap_cons, hf, List.nil_append, ← List.flatMap_append]

namespace Member.Signed

variable {old new : Member}

lemma fieldSites_alike (h : Signed RedundantField old new) :
    List.Forall₂ (Alike file) old.fieldSites new.fieldSites := by
  cases h with
  | kept => exact forall₂_alike_refl _
  | gains hunsigned hredundant =>
      rw [Member.fieldSites, Member.fieldSites, Member.signature, Member.signature, hunsigned,
        firstSignature_insert _ hunsigned, flatMap_insert fun _ => rfl, flatMap_insert fun _ => rfl]
      exact .cons hredundant.alike (forall₂_alike_refl _)

lemma methodSites_alike (h : Signed RedundantMethod old new) :
    List.Forall₂ (Alike file) old.methodSites new.methodSites := by
  cases h with
  | kept => exact forall₂_alike_refl _
  | gains hunsigned hredundant =>
      rw [Member.methodSites, Member.methodSites, Member.signature, Member.signature, hunsigned,
        firstSignature_insert _ hunsigned, flatMap_insert fun _ => rfl, flatMap_insert fun _ => rfl,
        flatMap_insert fun _ => rfl]
      exact .cons hredundant.alike (forall₂_alike_refl _)

/-- Members with alike sites, one after the other. -/
lemma flatMap_alike {redundant : String → Prop} {f : Member → List Site}
    (hf : ∀ old new, Signed redundant old new → List.Forall₂ (Alike file) (f old) (f new))
    {olds news : List Member} (h : List.Forall₂ (Signed redundant) olds news) :
    List.Forall₂ (Alike file) (olds.flatMap f) (news.flatMap f) := by
  induction h with
  | nil => exact .nil
  | cons hfirst _ ih =>
      rw [List.flatMap_cons, List.flatMap_cons]
      exact List.rel_append (hf _ _ hfirst) ih

end Member.Signed

/-! ## Classes -/

/-- The class with other members. -/
def withMembers (file : ClassFile) (fields methods : List Member) : ClassFile :=
  { file with fields := fields, methods := methods }

lemma constantNames_withMembers (file : ClassFile) (fields methods : List Member) (depth : Nat) :
    constantNames (file.withMembers fields methods) depth = constantNames file depth := by
  induction depth with
  | zero => rfl
  | succ below ih =>
      rw [constantNames, constantNames, ih]
      rfl

/-- What a site mentions does not depend on the members of the class. -/
lemma namesAt_withMembers (file : ClassFile) (fields methods : List Member) :
    (file.withMembers fields methods).namesAt = file.namesAt := by
  funext site
  cases site with
  | constant index => rw [namesAt, namesAt, constantNames_withMembers]
  | callSite index =>
      rw [namesAt, namesAt, callSiteNames, callSiteNames, constantNames_withMembers]
      rfl
  | _ => rfl

/-- The class with another pool. -/
def withPool (file : ClassFile) (pool : ConstantPool) : ClassFile :=
  { file with pool := pool }

lemma references_withPool (file : ClassFile) {larger : ConstantPool} (hpool : file.pool.ExtendedBy larger)
    {names : List String} (h : file.references = .ok names) : (file.withPool larger).references = .ok names := by
  have hkeeps : Keeps file.references (file.withPool larger).references := keeps_references hpool rfl rfl
  exact hkeeps names h

lemma gathered_references_withMembers {fields methods : List Member}
    (hfields : List.Forall₂ (Member.Signed RedundantField) file.fields fields)
    (hmethods : List.Forall₂ (Member.Signed RedundantMethod) file.methods methods) :
    gathered (file.withMembers fields methods).references = gathered file.references := by
  have hsites : List.Forall₂ (Alike file) file.sites (file.withMembers fields methods).sites := by
    refine List.rel_append (List.rel_append (forall₂_alike_refl _) ?_) ?_
    · exact Member.Signed.flatMap_alike (fun _ _ => Member.Signed.fieldSites_alike) hfields
    · exact Member.Signed.flatMap_alike (fun _ _ => Member.Signed.methodSites_alike) hmethods
  rw [references, references, namesAt_withMembers]
  exact (gathered_concatNames hsites).symm

/-- **Signatures that repeat descriptors do not count.**  As long as the names in it have neither of the characters `<`
and `.`,

* a field descriptor that is no base type is accepted as a field signature, and names the same classes in the same
  order;
* a method descriptor is accepted as a method signature, without type parameters and without a `throws` clause.  Each
  parameter, and the result, names the same classes, where the signature has the result last and the descriptor has
  it first;
* any number of fields and methods without a signature get such a descriptor of theirs as a signature, and the usage of
  the class stays the same, as does its error if it has one.  A class without an error may get further constants,
  too. -/
theorem redundant_signatures_uncounted :
    (∀ (text : String) (type : FieldType), Descriptor.fieldDescriptor text = .ok type → ¬ type.IsBase →
      ArePlain type.objectNames →
        ∃ signature, Descriptor.fieldSignature text = .ok signature ∧ signature.names = type.names) ∧
    (∀ (text : String) (method : MethodDescriptor), Descriptor.methodDescriptor text = .ok method →
      ArePlain method.objectNames →
        ∃ signature, Descriptor.methodSignature text = .ok signature ∧ signature.typeParameters = [] ∧
          signature.throws = [] ∧
          signature.parameters.map (·.names) = method.parameters.map (·.names) ∧
          signature.result.map (·.names) = method.result.map (·.names) ∧
          signature.names = method.parameters.flatMap (·.names) ++ method.result.toList.flatMap (·.names) ∧
          method.names = method.result.toList.flatMap (·.names) ++ method.parameters.flatMap (·.names)) ∧
    (∀ (file : ClassFile) (fields methods : List Member),
      List.Forall₂ (Member.Signed RedundantField) file.fields fields →
      List.Forall₂ (Member.Signed RedundantMethod) file.methods methods →
        (file.withMembers fields methods).references.map Usage.ofReferences =
          file.references.map Usage.ofReferences ∧
        ∀ names larger, file.references = .ok names → file.pool.ExtendedBy larger →
          ((file.withMembers fields methods).withPool larger).references.map Usage.ofReferences =
            .ok (Usage.ofReferences names)) := by
  refine ⟨?_, ?_, ?_⟩
  · intro text type htype hbase hplain
    exact ⟨type.generic, Descriptor.fieldSignature_of_fieldDescriptor htype hbase hplain, type.names_generic⟩
  · intro text method hmethod hplain
    refine ⟨method.generic, Descriptor.methodSignature_of_methodDescriptor hmethod hplain, rfl, rfl, ?_, ?_, ?_, rfl⟩
    · simp [MethodDescriptor.generic, FieldType.names_generic]
    · simp [MethodDescriptor.generic, Function.comp_def, FieldType.names_generic]
    · rw [Descriptor.MethodSignature.names, method.namesWithoutThrows_generic]
      simp [MethodDescriptor.generic]
  · intro file fields methods hfields hmethods
    have husage := map_ofReferences_eq (gathered_references_withMembers hfields hmethods)
    refine ⟨husage, fun names larger hnames hpool => ?_⟩
    rw [hnames] at husage
    obtain ⟨found, hfound, hcounts⟩ := map_eq_ok_iff.mp husage
    rw [(file.withMembers fields methods).references_withPool hpool hfound]
    exact congrArg Except.ok hcounts

/-! A field is an array, and a method has its parameters and its result in different families, so that the order of
their names is seen. -/

def unsignedBean : ClassFile where
  minor := 0
  major := 52
  pool := ⟨#[none]⟩
  access := 0x21
  name := "Bean"
  superclass := some "java/lang/Object"
  interfaces := []
  fields := [⟨2, "queues", "[Ljavax/jms/Queue;", []⟩]
  methods := [⟨1, "find", "(ILjavax/jms/Queue;)Ljakarta/ejb/EJB;", [.exceptions ["javax/ejb/EJBException"]]⟩]
  attributes := []

def signedField : Member :=
  ⟨2, "queues", "[Ljavax/jms/Queue;", [.signature "[Ljavax/jms/Queue;"]⟩

def signedMethod : Member :=
  ⟨1, "find", "(ILjavax/jms/Queue;)Ljakarta/ejb/EJB;",
    [.exceptions ["javax/ejb/EJBException"], .signature "(ILjavax/jms/Queue;)Ljakarta/ejb/EJB;"]⟩

lemma fieldDescriptor_queues :
    Descriptor.fieldDescriptor "[Ljavax/jms/Queue;" = .ok (.array (.object "javax/jms/Queue")) := by
  decide +kernel

lemma methodDescriptor_find :
    Descriptor.methodDescriptor "(ILjavax/jms/Queue;)Ljakarta/ejb/EJB;" =
      .ok ⟨[.base 'I', .object "javax/jms/Queue"], some (.object "jakarta/ejb/EJB")⟩ := by
  decide +kernel

lemma signed_queues : List.Forall₂ (Member.Signed RedundantField) unsignedBean.fields [signedField] :=
  .cons (@Member.Signed.gains _ _ _ _ [] [] rfl ⟨_, fieldDescriptor_queues, by decide, by decide⟩) .nil

lemma signed_find : List.Forall₂ (Member.Signed RedundantMethod) unsignedBean.methods [signedMethod] :=
  .cons (@Member.Signed.gains _ _ _ _ [_] [] rfl ⟨_, methodDescriptor_find, by decide⟩) .nil

/-- The name of the attribute is the only constant. -/
def namingPool : ConstantPool :=
  ⟨#[none, some (.utf8 "Signature")]⟩

lemma extendedBy_namingPool : unsignedBean.pool.ExtendedBy namingPool := by
  intro index constant hholds
  obtain ⟨_, hconstant⟩ := Array.getElem?_eq_some_iff.mp hholds
  simp [unsignedBean] at hconstant

lemma references_unsignedBean :
    unsignedBean.references = .ok ["java.lang.Object", "javax.jms.Queue", "jakarta.ejb.EJB", "javax.jms.Queue",
      "javax.ejb.EJBException"] := by
  decide +kernel

theorem redundant_signatures_uncounted_bean :
    (∃ signature, Descriptor.fieldSignature "[Ljavax/jms/Queue;" = .ok signature ∧
      signature.names = ["javax.jms.Queue"]) ∧
    (∃ signature, Descriptor.methodSignature "(ILjavax/jms/Queue;)Ljakarta/ejb/EJB;" = .ok signature ∧
      signature.names = ["javax.jms.Queue", "jakarta.ejb.EJB"]) ∧
    unsignedBean.references = .ok ["java.lang.Object", "javax.jms.Queue", "jakarta.ejb.EJB", "javax.jms.Queue",
      "javax.ejb.EJBException"] ∧
    (unsignedBean.withMembers [signedField] [signedMethod]).references = .ok ["java.lang.Object", "javax.jms.Queue",
      "javax.jms.Queue", "jakarta.ejb.EJB", "javax.ejb.EJBException"] ∧
    (unsignedBean.withMembers [signedField] [signedMethod]).references.map Usage.ofReferences =
      unsignedBean.references.map Usage.ofReferences ∧
    ((unsignedBean.withMembers [signedField] [signedMethod]).withPool namingPool).references.map Usage.ofReferences =
      .ok (Usage.ofReferences ["java.lang.Object", "javax.jms.Queue", "jakarta.ejb.EJB", "javax.jms.Queue",
        "javax.ejb.EJBException"]) := by
  have husage := redundant_signatures_uncounted.2.2 _ _ _ signed_queues signed_find
  refine ⟨?_, ?_, references_unsignedBean, by decide +kernel, husage.1,
    husage.2 _ _ references_unsignedBean extendedBy_namingPool⟩
  · exact redundant_signatures_uncounted.1 _ _ fieldDescriptor_queues (by decide) (by decide)
  · obtain ⟨signature, hread, -, -, -, -, hnames, -⟩ :=
      redundant_signatures_uncounted.2.1 _ _ methodDescriptor_find (by decide)
    exact ⟨signature, hread, hnames⟩

end ClassFile

end JarSurvey
