import JarSurvey.Descriptor.Names
import JarSurvey.Proofs.Descriptor.Exactness

/-!
# Descriptors read as signatures

An erased type is a generic one without arguments (`FieldType.generic`), and the two are spelled alike
(`spelling_generic`).  But the readers are not the same: a name in a signature ends at `<` and at a dot, which the name
in a descriptor goes on over, and a field signature is no base type.  Within these limits

* `fieldSignature_of_fieldDescriptor`, `methodSignature_of_methodDescriptor` — **the reader of signatures accepts the
  descriptor**, and reads the same type;
* `names_generic`, `MethodDescriptor.namesWithoutThrows_generic` — and the type names the same classes, the result of a
  method last instead of first.
-/

namespace JarSurvey.Descriptor

/-! ## Types -/

namespace FieldType

/-- The erased type as a generic one. -/
def generic : FieldType → TypeSignature
  | .base letter => .base letter
  | .object name => .classType (.mk name [] [])
  | .array element => .array element.generic

/-- The internal name of the class in a type, if there is one. -/
def objectNames : FieldType → List String
  | .base _ => []
  | .object name => [name]
  | .array element => element.objectNames

/-- A single letter. -/
def IsBase : FieldType → Prop
  | .base _ => True
  | _ => False

instance : DecidablePred IsBase
  | .base _ => inferInstanceAs (Decidable True)
  | .object _ => inferInstanceAs (Decidable False)
  | .array _ => inferInstanceAs (Decidable False)

end FieldType

/-- Names without the characters that end a name in a signature but not in a descriptor. -/
def ArePlain (names : List String) : Prop :=
  ∀ name ∈ names, '<' ∉ name.toList ∧ '.' ∉ name.toList

instance (names : List String) : Decidable (ArePlain names) :=
  inferInstanceAs (Decidable (∀ name ∈ names, _))

namespace FieldType

lemma spelling_generic (type : FieldType) : type.generic.spelling = type.spelling := by
  induction type with
  | base letter => simp [generic, TypeSignature.spelling, spelling]
  | object name =>
      simp [generic, TypeSignature.spelling, ClassType.spelling, InnerClass.listSpelling, angled, spelling]
  | array element ih => simp [generic, TypeSignature.spelling, spelling, ih]

lemma wellFormed_generic {type : FieldType} (h : type.WellFormed) (hplain : ArePlain type.objectNames) :
    type.generic.WellFormed := by
  induction type with
  | base letter => simpa [generic, TypeSignature.WellFormed, WellFormed] using h
  | object name =>
      obtain ⟨hangle, hdot⟩ := hplain name (by simp [objectNames])
      have hname : IsName ['<', '.', ';'] name := by
        refine ⟨h.1, fun c hc hstop => ?_⟩
        simp only [List.mem_cons, List.not_mem_nil, or_false] at hstop
        rcases hstop with rfl | rfl | rfl
        · exact hangle hc
        · exact hdot hc
        · exact h.2 ';' hc (by simp)
      simpa [generic, TypeSignature.WellFormed, ClassType.WellFormed, TypeArgument.ListWellFormed,
        InnerClass.ListWellFormed] using hname
  | array element ih => simpa [generic, TypeSignature.WellFormed] using ih h hplain

lemma isReference_generic {type : FieldType} (h : ¬ type.IsBase) : type.generic.IsReference := by
  cases type with
  | base letter => exact absurd trivial h
  | object name => trivial
  | array element => trivial

/-- **The generic type names the classes that the erased type names.** -/
lemma names_generic (type : FieldType) : type.generic.names = type.names := by
  induction type with
  | base letter => simp [generic, TypeSignature.names, names]
  | object name =>
      simp [generic, TypeSignature.names, ClassType.names, TypeArgument.listNames, InnerClass.listNames, names]
  | array element ih => simp [generic, TypeSignature.names, names, ih]

end FieldType

/-- **A field descriptor is read as a field signature**, unless it is a base type. -/
lemma fieldSignature_of_fieldDescriptor {text : String} {type : FieldType}
    (h : fieldDescriptor text = .ok type) (hbase : ¬ type.IsBase) (hplain : ArePlain type.objectNames) :
    fieldSignature text = .ok type.generic := by
  obtain ⟨hwell, rfl⟩ := fieldDescriptor_eq_ok_iff.mp h
  refine (readWhole_eq_ok_iff Scan.reads_reference).mpr
    ⟨⟨FieldType.isReference_generic hbase, FieldType.wellFormed_generic hwell hplain⟩, ?_⟩
  rw [FieldType.spelling_generic]
  rfl

/-! ## Methods -/

namespace MethodDescriptor

/-- The erased type of a method as a generic one. -/
def generic (method : MethodDescriptor) : MethodSignature where
  typeParameters := []
  parameters := method.parameters.map FieldType.generic
  result := method.result.map FieldType.generic
  throws := []

/-- The internal names of the classes in the type of a method. -/
def objectNames (method : MethodDescriptor) : List String :=
  method.parameters.flatMap FieldType.objectNames ++ method.result.toList.flatMap FieldType.objectNames

lemma spelling_generic (method : MethodDescriptor) : method.generic.spelling = method.spelling := by
  obtain ⟨parameters, result⟩ := method
  have hresult : resultSpelling TypeSignature.spelling (result.map FieldType.generic) =
      resultSpelling FieldType.spelling result := by
    cases result with
    | none => rfl
    | some type => exact type.spelling_generic
  simp [generic, MethodSignature.spelling, spelling, TypeParameter.listSpelling, angled, hresult,
    List.flatMap_map, FieldType.spelling_generic]

lemma wellFormed_generic {method : MethodDescriptor} (h : method.WellFormed)
    (hplain : ArePlain method.objectNames) : method.generic.WellFormed := by
  obtain ⟨hparameters, hresult⟩ := h
  refine ⟨⟨by simp [generic], List.isChain_nil⟩, ?_, ?_, by simp [generic]⟩
  · intro type htype
    obtain ⟨erased, herased, rfl⟩ := List.mem_map.mp htype
    refine FieldType.wellFormed_generic (hparameters erased herased) fun name hname => hplain name ?_
    exact List.mem_append_left _ (List.mem_flatMap.mpr ⟨erased, herased, hname⟩)
  · intro type htype
    obtain ⟨erased, herased, rfl⟩ := Option.map_eq_some_iff.mp htype
    refine FieldType.wellFormed_generic (hresult erased herased) fun name hname => hplain name ?_
    exact List.mem_append_right _ (List.mem_flatMap.mpr ⟨erased, by simp [herased], hname⟩)

/-- **The signature names the classes that the descriptor names**, those of the result last. -/
lemma namesWithoutThrows_generic (method : MethodDescriptor) :
    method.generic.namesWithoutThrows =
      method.parameters.flatMap FieldType.names ++ method.result.toList.flatMap FieldType.names := by
  obtain ⟨parameters, _ | result⟩ := method <;>
    simp [generic, MethodSignature.namesWithoutThrows, List.flatMap_map, FieldType.names_generic]

end MethodDescriptor

/-- **A method descriptor is read as a method signature.** -/
lemma methodSignature_of_methodDescriptor {text : String} {method : MethodDescriptor}
    (h : methodDescriptor text = .ok method) (hplain : ArePlain method.objectNames) :
    methodSignature text = .ok method.generic := by
  obtain ⟨hwell, rfl⟩ := (readWhole_eq_ok_iff Scan.reads_methodDescriptor).mp h
  refine (readWhole_eq_ok_iff Scan.reads_methodSignature).mpr
    ⟨⟨MethodDescriptor.wellFormed_generic hwell hplain, by simp⟩, ?_⟩
  rw [MethodDescriptor.spelling_generic]

end JarSurvey.Descriptor
