import JarSurvey.Proofs.ClassFile.Outline.Existence
import JarSurvey.Proofs.ClassFile.PoolGrowth

/-!
# Inert additions

Constants that nothing leads to and attributes that nobody knows add nothing to a scan.  The argument goes through what
an outline means.

* The pool of a class with additions extends its old pool (`ClassOutline.Grows.extendedBy`), so that all that was read
  with the old pool is read with the new one.
* What is read then is what was read before, but for attributes of no known name (`Padded`).
* No site lies in such an attribute (`Padded.flatMap_eq`), so the sites of the class stay what they are, and each of them
  mentions what it mentioned.
-/

namespace JarSurvey.ClassFile

open Layout

/-! ## Padding -/

/-- The second list has further attributes of no known name, here or inside of code. -/
inductive Padded : List Attribute → List Attribute → Prop
  | nil : Padded [] []
  | kept {first : Attribute} {later later' : List Attribute} (hlater : Padded later later') :
      Padded (first :: later) (first :: later')
  | code {maxStack maxLocals : UInt16} {bytecode : List UInt8} {handlers : List ExceptionHandler}
      {inside inside' later later' : List Attribute} (hinside : Padded inside inside') (hlater : Padded later later') :
      Padded (.code ⟨maxStack, maxLocals, bytecode, handlers, inside⟩ :: later)
        (.code ⟨maxStack, maxLocals, bytecode, handlers, inside'⟩ :: later')
  | added {name : String} {later later' : List Attribute} (hlater : Padded later later') :
      Padded later (.other name :: later')

namespace Padded

variable {old new : List Attribute}

/-- What looks neither at code nor at attributes of no known name does not see the padding. -/
lemma flatMap_eq {α : Type} {f : Attribute → List α} (hcode : ∀ body, f (.code body) = [])
    (hother : ∀ name, f (.other name) = []) (h : Padded old new) : new.flatMap f = old.flatMap f := by
  induction h with
  | nil => rfl
  | kept hlater ih => rw [List.flatMap_cons, List.flatMap_cons, ih]
  | code hinside hlater _ ih => rw [List.flatMap_cons, List.flatMap_cons, hcode, hcode, ih]
  | added hlater ih => rw [List.flatMap_cons, hother, ih, List.nil_append]

lemma findSome?_eq {α : Type} {f : Attribute → Option α} (hcode : ∀ body, f (.code body) = none)
    (hother : ∀ name, f (.other name) = none) (h : Padded old new) : new.findSome? f = old.findSome? f := by
  induction h with
  | nil => rfl
  | kept hlater ih => rw [List.findSome?_cons, List.findSome?_cons, ih]
  | code hinside hlater _ ih => rw [List.findSome?_cons, List.findSome?_cons, hcode, hcode, ih]
  | added hlater ih => rw [List.findSome?_cons, hother, ih]

lemma annotationSites_eq (h : Padded old new) :
    new.flatMap Attribute.annotationSites = old.flatMap Attribute.annotationSites :=
  h.flatMap_eq (fun _ => rfl) fun _ => rfl

/-- Code has the sites it had: padding inside of it is not seen either. -/
lemma codeSites_eq (h : Padded old new) : new.flatMap Attribute.codeSites = old.flatMap Attribute.codeSites := by
  induction h with
  | nil => rfl
  | kept hlater ih => rw [List.flatMap_cons, List.flatMap_cons, ih]
  | code hinside hlater _ ih =>
      rw [List.flatMap_cons, List.flatMap_cons, ih, Attribute.codeSites, Attribute.codeSites, Code.sites, Code.sites,
        hinside.annotationSites_eq, hinside.flatMap_eq (f := Attribute.frameSites) (fun _ => rfl) fun _ => rfl]
  | added hlater ih =>
      rw [List.flatMap_cons, ih]
      rfl

lemma firstSignature_eq (h : Padded old new) : Attribute.firstSignature new = Attribute.firstSignature old :=
  h.findSome?_eq (fun _ => rfl) fun _ => rfl

lemma firstBootstrapMethods_eq (h : Padded old new) :
    Attribute.firstBootstrapMethods new = Attribute.firstBootstrapMethods old := by
  rw [Attribute.firstBootstrapMethods, h.findSome?_eq (fun _ => rfl) fun _ => rfl]
  rfl

end Padded

/-- Of what sites are looked for in, a member has got nothing but padding. -/
structure Member.Padded (old new : Member) : Prop where
  descriptor : new.descriptor = old.descriptor
  attributes : ClassFile.Padded old.attributes new.attributes

namespace Member.Padded

variable {old new : Member}

lemma fieldSites_eq (h : Padded old new) : new.fieldSites = old.fieldSites := by
  rw [Member.fieldSites, Member.fieldSites, Member.signature, Member.signature, h.attributes.firstSignature_eq,
    h.descriptor, h.attributes.annotationSites_eq,
    h.attributes.flatMap_eq (f := Attribute.constantValueSites) (fun _ => rfl) fun _ => rfl]

lemma methodSites_eq (h : Padded old new) : new.methodSites = old.methodSites := by
  rw [Member.methodSites, Member.methodSites, Member.signature, Member.signature, h.attributes.firstSignature_eq,
    h.descriptor, h.attributes.annotationSites_eq, h.attributes.codeSites_eq,
    h.attributes.flatMap_eq (f := Attribute.exceptionSites) (fun _ => rfl) fun _ => rfl]

/-- What is the same for a member with padding is the same for all members. -/
lemma flatMap_eq {α : Type} {f : Member → List α} (hf : ∀ old new, Padded old new → f new = f old)
    {olds news : List Member} (h : List.Forall₂ Padded olds news) : news.flatMap f = olds.flatMap f := by
  induction h with
  | nil => rfl
  | cons hfirst _ ih => rw [List.flatMap_cons, List.flatMap_cons, hf _ _ hfirst, ih]

end Member.Padded

/-- A class that has got nothing but padding, and a larger pool. -/
structure PaddedClass (old new : ClassFile) : Prop where
  major : new.major = old.major
  pool : old.pool.ExtendedBy new.pool
  name : new.name = old.name
  superclass : new.superclass = old.superclass
  interfaces : new.interfaces = old.interfaces
  fields : List.Forall₂ Member.Padded old.fields new.fields
  methods : List.Forall₂ Member.Padded old.methods new.methods
  attributes : Padded old.attributes new.attributes

namespace PaddedClass

variable {old new : ClassFile}

lemma sites_eq (h : PaddedClass old new) : new.sites = old.sites := by
  rw [sites, sites, headerSites, headerSites, signature, signature, h.attributes.firstSignature_eq, h.superclass,
    h.interfaces, h.attributes.annotationSites_eq, Member.Padded.flatMap_eq (fun _ _ => Member.Padded.fieldSites_eq) h.fields,
    Member.Padded.flatMap_eq (fun _ _ => Member.Padded.methodSites_eq) h.methods]

/-- **Padding does not change what a class mentions.** -/
lemma keeps_references (h : PaddedClass old new) : Keeps old.references new.references :=
  ClassFile.keeps_references h.pool h.attributes.firstBootstrapMethods_eq h.sites_eq

end PaddedClass

/-! ## From outlines to what they mean -/

section Means

variable {pool larger : ConstantPool}

lemma content?_eq_none_iff {attributes : Reader (List Attribute)} {name : String} :
    Reader.content? pool attributes name = none ↔ name ∉ knownNames := by
  refine ⟨fun h => ?_, Reader.content?_eq_none⟩
  unfold Reader.content? at h
  split at h
  case h_14 => simp_all [knownNames]
  all_goals cases h

lemma keeps_bodyValue (h : pool.ExtendedBy larger) (attributes : Reader (List Attribute)) (name : String)
    (body : List UInt8) : Keeps (bodyValue pool attributes name body) (bodyValue larger attributes name body) := by
  rw [bodyValue, bodyValue]
  cases hcontent : Reader.content? pool attributes name with
  | some content =>
      obtain ⟨content', hcontent', hkept⟩ := Reader.kept_content h hcontent
      rw [hcontent']
      exact (hkept _).bind fun _ => .refl _
  | none =>
      rw [content?_eq_none_iff] at hcontent
      rw [Reader.content?_eq_none hcontent]
      exact .refl _

lemma HandlerOutline.Means.extend {outline : HandlerOutline} {handler : ExceptionHandler} (h : outline.Means pool handler)
    (hpool : pool.ExtendedBy larger) : outline.Means larger handler := by
  obtain ⟨catchType, hcatch, rfl⟩ := h
  exact ⟨catchType, ConstantPool.keeps_optionalClassName hpool _ _ hcatch, rfl⟩

/-- **Attributes with additions mean what they meant, with padding.** -/
lemma AttributeOutline.Grows.means (hpool : pool.ExtendedBy larger) {old new : List AttributeOutline}
    (h : Grows larger old new) {values : List Attribute} (hmeans : Means pool old values) :
    ∃ values', Means larger new values' ∧ Padded values values' := by
  induction h generalizing values with
  | nil =>
      cases hmeans
      exact ⟨[], .nil, .nil⟩
  | plain hlater ih =>
      cases hmeans with
      | plain hname hvalue hmeans =>
          obtain ⟨values', hmeans', hpadded⟩ := ih hmeans
          exact ⟨_, .plain (hname.extend hpool) (keeps_bodyValue hpool _ _ _ _ hvalue) hmeans', .kept hpadded⟩
  | code hinside hlater ihinside ihlater =>
      cases hmeans with
      | code hhandlers hmeans hmeansLater =>
          obtain ⟨inside', hmeans', hpadded⟩ := ihinside hmeans
          obtain ⟨values', hmeansLater', hpaddedLater⟩ := ihlater hmeansLater
          have hhandlers' := hhandlers.imp fun _ _ hhandler => hhandler.extend hpool
          exact ⟨_, .code hhandlers' hmeans' hmeansLater', .code hpadded hpaddedLater⟩
  | @added _ text body _ _ hname hunknown hlater ih =>
      obtain ⟨values', hmeans', hpadded⟩ := ih hmeans
      have hvalue : bodyValue larger Reader.outOfData text body = .ok (.other text) := by
        rw [bodyValue, Reader.content?_eq_none hunknown]
      exact ⟨_, .plain hname hvalue hmeans', .added hpadded⟩

lemma MemberOutline.Grows.means (hpool : pool.ExtendedBy larger) {old new : MemberOutline} (h : Grows larger old new)
    {member : Member} (hmeans : old.Means pool member) : ∃ member', new.Means larger member' ∧ member.Padded member' := by
  obtain ⟨values', hvalues, hpadded⟩ := h.attributes.means hpool hmeans.attributes
  refine ⟨⟨member.access, member.name, member.descriptor, values'⟩, ⟨?_, ?_, ?_, hvalues⟩, ⟨rfl, hpadded⟩⟩
  · rw [h.access, hmeans.access]
  · rw [h.name]
    exact hmeans.name.extend hpool
  · rw [h.descriptor]
    exact hmeans.descriptor.extend hpool

lemma MemberOutline.Grows.means_all (hpool : pool.ExtendedBy larger) {olds news : List MemberOutline}
    (h : List.Forall₂ (Grows larger) olds news) {members : List Member}
    (hmeans : List.Forall₂ (Means pool) olds members) :
    ∃ members', List.Forall₂ (Means larger) news members' ∧ List.Forall₂ Member.Padded members members' := by
  induction h generalizing members with
  | nil =>
      cases hmeans
      exact ⟨[], .nil, .nil⟩
  | cons hfirst _ ih =>
      cases hmeans with
      | cons hmeansFirst hmeansLater =>
          obtain ⟨member', hmember, hpadded⟩ := hfirst.means hpool hmeansFirst
          obtain ⟨members', hmembers, hpaddedLater⟩ := ih hmeansLater
          exact ⟨member' :: members', .cons hmember hmembers, .cons hpadded hpaddedLater⟩

end Means

namespace ClassOutline

variable {old new : ClassOutline}

/-- Constants at the end of a pool leave those before them where they are. -/
lemma Grows.extendedBy (h : old.Grows new) : old.pool.ExtendedBy new.pool := by
  obtain ⟨more, hmore⟩ := h.constants
  intro index constant hholds
  have hslots : slotsOf new.constants = slotsOf old.constants ++ more.flatMap fun piece => slots piece.value := by
    rw [slotsOf, slotsOf, hmore, List.flatMap_append, List.cons_append]
  simp only [ConstantPool.Holds, pool, List.getElem?_toArray] at hholds ⊢
  rw [hslots, List.getElem?_append_left (List.getElem?_eq_some_iff.mp hholds).1, hholds]

/-- **A class with additions means what it meant, with padding.** -/
lemma Grows.means (h : old.Grows new) {file : ClassFile} (hmeans : old.Means file) :
    ∃ file', new.Means file' ∧ PaddedClass file file' := by
  have hpool := h.extendedBy
  obtain ⟨fields', hfields, hpaddedFields⟩ := MemberOutline.Grows.means_all hpool h.fields hmeans.fields
  obtain ⟨methods', hmethods, hpaddedMethods⟩ := MemberOutline.Grows.means_all hpool h.methods hmeans.methods
  obtain ⟨attributes', hattributes, hpadded⟩ := h.attributes.means hpool hmeans.attributes
  have hname : new.pool.ClassAt new.name file.name := by
    rw [h.name]
    exact hmeans.name.extend hpool
  have hsuperclass : new.pool.className? new.superclass = .ok file.superclass := by
    rw [h.superclass]
    exact ConstantPool.keeps_optionalClassName hpool _ _ hmeans.superclass
  have hinterfaces : List.Forall₂ new.pool.ClassAt new.interfaces file.interfaces := by
    rw [h.interfaces]
    exact hmeans.interfaces.imp fun _ _ hclass => hclass.extend hpool
  refine ⟨⟨new.minor, new.major, new.pool, new.access, file.name, file.superclass, file.interfaces, fields', methods',
    attributes'⟩, ⟨rfl, rfl, rfl, rfl, hname, hsuperclass, hinterfaces, hfields, hmethods, hattributes⟩, ?_⟩
  refine ⟨?_, ?_, rfl, rfl, rfl, hpaddedFields, hpaddedMethods, hpadded⟩
  · rw [hmeans.major, ← h.major]
  · rw [hmeans.pool]
    exact hpool

end ClassOutline

/-- **Inert additions do not change a scan.**  Every class that is scanned has an outline, and whichever it is: with any
further constants behind its own, and with any further attributes of no known name in its lists of attributes, the class
is scanned with the same result. -/
theorem scan_unchanged_by_additions {bytes : List UInt8} {found : Scan} (h : scan bytes = .ok found) :
    (∃ outline : ClassOutline, outline.Fits ∧ outline.bytes = bytes) ∧
    ∀ outline grown : ClassOutline, outline.Fits → outline.bytes = bytes → outline.Grows grown → grown.Fits →
      scan grown.bytes = .ok found := by
  obtain ⟨file, hparse, hscan⟩ := bind_eq_ok_iff.mp h
  refine ⟨exists_outline hparse, ?_⟩
  rintro outline grown hfits rfl hgrows hgrownFits
  obtain ⟨file', hmeans', hpadded⟩ := hgrows.means ((parse_outline_iff hfits).mp hparse)
  have hparse' := (parse_outline_iff hgrownFits).mpr hmeans'
  obtain ⟨names, hnames, hfound⟩ := bind_eq_ok_iff.mp hscan
  refine bind_eq_ok_iff.mpr ⟨file', hparse', bind_eq_ok_iff.mpr ⟨names, hpadded.keeps_references names hnames, ?_⟩⟩
  rw [hpadded.name, hpadded.major]
  exact hfound

/-! A class whose pool ends with a constant of two slots, the second of which is not counted, gets a name at the end of
the pool, and attributes of this name in each of its lists. -/

lemma spells_constant {value : Constant} (h : textLength value < 0x10000) : Spells value (constant value) := by
  cases value with
  | utf8 text => exact .text (Text.ModifiedUtf8.decode_encode text) h
  | _ => exact .other fun _ => Constant.noConfusion

def spelled (values : List Constant) (h : ∀ value ∈ values, textLength value < 0x10000) : List SpelledConstant :=
  values.pmap (fun value hvalue => ⟨value, constant value, spells_constant hvalue⟩) h

def scarceConstants : List SpelledConstant :=
  spelled [.utf8 "A", .classRef 1, .utf8 "Code", .utf8 "m", .utf8 "()V", .utf8 "javax/jms/Q", .classRef 6, .long (-2)]
    (by decide)

/-- The method `m` creates an object. -/
def scarceCode : CodeFront :=
  ⟨1, 1, [0xBB, 0, 7, 0x57, 0xB1], []⟩

def scarceClass : ClassOutline :=
  ⟨0, 52, 9, scarceConstants, 0x21, 2, 7, [], [], [⟨9, 4, 5, [.code 3 scarceCode []]⟩], []⟩

def paddedClass : ClassOutline :=
  ⟨0, 52, 11, scarceConstants ++ spelled [.utf8 "Junk"] (by decide), 0x21, 2, 7, [], [],
    [⟨9, 4, 5, [.plain 10 [], .code 3 scarceCode [.plain 10 [0xCA, 0xFE]]]⟩], [.plain 10 [1]]⟩

lemma scarceClass_fits : scarceClass.Fits := by
  have hcode : AttributeOutline.Fit scarceClass.pool [.code 3 scarceCode []] :=
    .code rfl ⟨by decide, by decide⟩ (by decide) (by decide) .nil .nil
  exact ⟨Or.inr ⟨rfl, rfl⟩, by decide, by decide, by simp [scarceClass], by decide,
    List.forall_mem_singleton.mpr ⟨by decide, hcode⟩, by decide, .nil⟩

lemma paddedClass_fits : paddedClass.Fits := by
  have hjunk : ∀ body later, body.length < 0x100000000 → AttributeOutline.Fit paddedClass.pool later →
      AttributeOutline.Fit paddedClass.pool (.plain 10 body :: later) := by
    intro body later hlength hlater
    exact @AttributeOutline.Fit.plain _ _ "Junk" _ _ rfl (by decide) hlength hlater
  have hcode : AttributeOutline.Fit paddedClass.pool [.code 3 scarceCode [.plain 10 [0xCA, 0xFE]]] :=
    .code rfl ⟨by decide, by decide⟩ (by decide) (by decide) (hjunk _ _ (by decide) .nil) .nil
  exact ⟨Or.inl rfl, by decide, by decide, by simp [paddedClass], by decide,
    List.forall_mem_singleton.mpr ⟨by decide, hjunk _ _ (by decide) hcode⟩, by decide, hjunk _ _ (by decide) .nil⟩

lemma scarceClass_grows : scarceClass.Grows paddedClass := by
  have hjunk : ∀ body later later', AttributeOutline.Grows paddedClass.pool later later' →
      AttributeOutline.Grows paddedClass.pool later (.plain 10 body :: later') := by
    intro body later later' hlater
    exact @AttributeOutline.Grows.added _ _ "Junk" _ _ _ rfl (by decide) hlater
  have hmethod : MemberOutline.Grows paddedClass.pool ⟨9, 4, 5, [.code 3 scarceCode []]⟩
      ⟨9, 4, 5, [.plain 10 [], .code 3 scarceCode [.plain 10 [0xCA, 0xFE]]]⟩ :=
    ⟨rfl, rfl, rfl, hjunk _ _ _ (.code (hjunk _ _ _ .nil) .nil)⟩
  exact ⟨rfl, rfl, ⟨_, rfl⟩, rfl, rfl, rfl, rfl, .nil, .cons hmethod .nil, hjunk _ _ _ .nil⟩

lemma scan_scarceClass : scan scarceClass.bytes = .ok ⟨"A", 52, ["javax.jms.Q", "javax.jms.Q"]⟩ := by
  decide +kernel

theorem scan_unchanged_by_additions_padded :
    scan scarceClass.bytes = .ok ⟨"A", 52, ["javax.jms.Q", "javax.jms.Q"]⟩ ∧ scarceClass.Fits ∧ paddedClass.Fits ∧
      scarceClass.Grows paddedClass ∧ scan paddedClass.bytes = .ok ⟨"A", 52, ["javax.jms.Q", "javax.jms.Q"]⟩ :=
  ⟨scan_scarceClass, scarceClass_fits, paddedClass_fits, scarceClass_grows,
    (scan_unchanged_by_additions scan_scarceClass).2 _ _ scarceClass_fits rfl scarceClass_grows paddedClass_fits⟩

end JarSurvey.ClassFile
