import JarSurvey.Descriptor.Parser
import Mathlib.Tactic

/-!
# The grammar of descriptors and signatures

Which trees are types, and which text stands for each of them, stated without a reader.

* `WellFormed` says what a tree may hold: names are not empty and stay clear of the characters that end them,
  base letters are among `BCDFIJSZ`, and only a reference may stand where a reference is asked for
  (`IsReference`, `IsThrowable`).
* `spelling` gives the characters of a tree, and `text` the text they make.  Lists in angle brackets are written
  only if they are not empty.

Trees are looked at one by one but for the parameters of a declaration: a parameter without any bound ends in
`:`, and what follows it must not look like a bound (`TypeParameter.ListWellFormed`).
-/

namespace JarSurvey.Descriptor

/-! ## Names and brackets -/

/-- A name in front of one of the characters `stops`. -/
def IsName (stops : List Char) (name : String) : Prop :=
  name ≠ "" ∧ ∀ c ∈ name.toList, c ∉ stops

/-- The letter of a base type. -/
def IsBaseLetter (letter : Char) : Prop :=
  letter ∈ "BCDFIJSZ".toList

/-- The content of a list in angle brackets; an empty list has no brackets. -/
def angled {α : Type} (items : List α) (content : List Char) : List Char :=
  if items.isEmpty then [] else '<' :: (content ++ ['>'])

/-- The result of a method: `V` where there is none. -/
def resultSpelling {α : Type} (spelling : α → List Char) : Option α → List Char
  | none => ['V']
  | some type => spelling type

/-! ## Descriptors -/

namespace FieldType

def spelling : FieldType → List Char
  | .base letter => [letter]
  | .object name => 'L' :: (name.toList ++ [';'])
  | .array element => '[' :: element.spelling

def WellFormed : FieldType → Prop
  | .base letter => IsBaseLetter letter
  | .object name => IsName [';'] name
  | .array element => element.WellFormed

def text (type : FieldType) : String :=
  String.ofList type.spelling

end FieldType

namespace MethodDescriptor

def spelling (method : MethodDescriptor) : List Char :=
  '(' :: (method.parameters.flatMap FieldType.spelling ++ ')' ::
    resultSpelling FieldType.spelling method.result)

def WellFormed (method : MethodDescriptor) : Prop :=
  (∀ type ∈ method.parameters, type.WellFormed) ∧ ∀ type ∈ method.result, type.WellFormed

def text (method : MethodDescriptor) : String :=
  String.ofList method.spelling

end MethodDescriptor

/-! ## Types of signatures -/

mutual

def TypeSignature.spelling : TypeSignature → List Char
  | .base letter => [letter]
  | .classType type => 'L' :: type.spelling
  | .typeVariable name => 'T' :: (name.toList ++ [';'])
  | .array element => '[' :: element.spelling

/-- The spelling of a class type after its `L`. -/
def ClassType.spelling : ClassType → List Char
  | .mk name arguments inner =>
    name.toList ++ (angled arguments (TypeArgument.listSpelling arguments) ++
      (InnerClass.listSpelling inner ++ [';']))

def InnerClass.listSpelling : List InnerClass → List Char
  | [] => []
  | .mk name arguments :: rest =>
    '.' :: (name.toList ++ angled arguments (TypeArgument.listSpelling arguments)) ++
      InnerClass.listSpelling rest

def TypeArgument.spelling : TypeArgument → List Char
  | .wildcard => ['*']
  | .upperBound bound => '+' :: bound.spelling
  | .lowerBound bound => '-' :: bound.spelling
  | .exactly type => type.spelling

def TypeArgument.listSpelling : List TypeArgument → List Char
  | [] => []
  | argument :: rest => argument.spelling ++ TypeArgument.listSpelling rest

end

/-- A type that is no base type. -/
def TypeSignature.IsReference : TypeSignature → Prop
  | .base _ => False
  | _ => True

/-- A type that a method may throw: a class or a type variable. -/
def TypeSignature.IsThrowable : TypeSignature → Prop
  | .classType _ => True
  | .typeVariable _ => True
  | _ => False

mutual

def TypeSignature.WellFormed : TypeSignature → Prop
  | .base letter => IsBaseLetter letter
  | .classType type => type.WellFormed
  | .typeVariable name => IsName [';'] name
  | .array element => element.WellFormed

def ClassType.WellFormed : ClassType → Prop
  | .mk name arguments inner =>
    IsName ['<', '.', ';'] name ∧ TypeArgument.ListWellFormed arguments ∧ InnerClass.ListWellFormed inner

def InnerClass.ListWellFormed : List InnerClass → Prop
  | [] => True
  | .mk name arguments :: rest =>
    (IsName ['<', '.', ';'] name ∧ TypeArgument.ListWellFormed arguments) ∧ InnerClass.ListWellFormed rest

/-- The bound of a wildcard and an argument without a wildcard are references. -/
def TypeArgument.WellFormed : TypeArgument → Prop
  | .wildcard => True
  | .upperBound bound => bound.IsReference ∧ bound.WellFormed
  | .lowerBound bound => bound.IsReference ∧ bound.WellFormed
  | .exactly type => type.IsReference ∧ type.WellFormed

def TypeArgument.ListWellFormed : List TypeArgument → Prop
  | [] => True
  | argument :: rest => argument.WellFormed ∧ TypeArgument.ListWellFormed rest

end

def TypeSignature.text (type : TypeSignature) : String :=
  String.ofList type.spelling

/-! ### One item of a list after the other -/

def InnerClass.spelling : InnerClass → List Char
  | .mk name arguments => name.toList ++ angled arguments (arguments.flatMap TypeArgument.spelling)

def InnerClass.WellFormed : InnerClass → Prop
  | .mk name arguments =>
    IsName ['<', '.', ';'] name ∧ ∀ argument ∈ arguments, argument.WellFormed

lemma TypeArgument.listSpelling_eq (arguments : List TypeArgument) :
    TypeArgument.listSpelling arguments = arguments.flatMap TypeArgument.spelling := by
  induction arguments with
  | nil => simp [TypeArgument.listSpelling]
  | cons argument rest ih => simp [TypeArgument.listSpelling, ih]

lemma InnerClass.listSpelling_eq (inner : List InnerClass) :
    InnerClass.listSpelling inner = inner.flatMap fun nested => '.' :: nested.spelling := by
  induction inner with
  | nil => simp [InnerClass.listSpelling]
  | cons nested rest ih =>
      obtain ⟨name, arguments⟩ := nested
      simp [InnerClass.listSpelling, InnerClass.spelling, TypeArgument.listSpelling_eq, ih]

lemma TypeArgument.listWellFormed_iff (arguments : List TypeArgument) :
    TypeArgument.ListWellFormed arguments ↔ ∀ argument ∈ arguments, argument.WellFormed := by
  induction arguments with
  | nil => simp [TypeArgument.ListWellFormed]
  | cons argument rest ih => simp [TypeArgument.ListWellFormed, ih]

lemma InnerClass.listWellFormed_iff (inner : List InnerClass) :
    InnerClass.ListWellFormed inner ↔ ∀ nested ∈ inner, nested.WellFormed := by
  induction inner with
  | nil => simp [InnerClass.ListWellFormed]
  | cons nested rest ih =>
      obtain ⟨name, arguments⟩ := nested
      simp [InnerClass.ListWellFormed, InnerClass.WellFormed, TypeArgument.listWellFormed_iff, ih]

/-! ## Declarations -/

namespace TypeParameter

/-- A colon stands before each bound, and one stands for the class bound if that is missing. -/
def spelling (parameter : TypeParameter) : List Char :=
  parameter.name.toList ++ ':' :: ((parameter.classBound.elim [] TypeSignature.spelling) ++
    parameter.interfaceBounds.flatMap fun bound => ':' :: bound.spelling)

def WellFormed (parameter : TypeParameter) : Prop :=
  IsName [':'] parameter.name ∧ parameter.name.toList.head? ≠ some '>' ∧
    (∀ bound ∈ parameter.classBound, bound.IsReference ∧ bound.WellFormed) ∧
    ∀ bound ∈ parameter.interfaceBounds, bound.IsReference ∧ bound.WellFormed

/-- A parameter without a bound. -/
def IsUnbounded (parameter : TypeParameter) : Prop :=
  parameter.classBound = none ∧ parameter.interfaceBounds = []

/-- The first character tells a bound. -/
def LooksBound (text : List Char) : Prop :=
  text.head? = some 'L' ∨ text.head? = some 'T' ∨ text.head? = some '['

/-- After a parameter without a bound the name of the next one must not look like a bound. -/
def ListWellFormed (parameters : List TypeParameter) : Prop :=
  (∀ parameter ∈ parameters, parameter.WellFormed) ∧
    parameters.IsChain fun parameter next => parameter.IsUnbounded → ¬ LooksBound next.name.toList

def listSpelling (parameters : List TypeParameter) : List Char :=
  angled parameters (parameters.flatMap spelling)

end TypeParameter

namespace ClassSignature

def spelling (signature : ClassSignature) : List Char :=
  TypeParameter.listSpelling signature.typeParameters ++ 'L' :: (signature.superclass.spelling ++
    signature.interfaces.flatMap fun type => 'L' :: type.spelling)

def WellFormed (signature : ClassSignature) : Prop :=
  TypeParameter.ListWellFormed signature.typeParameters ∧ signature.superclass.WellFormed ∧
    ∀ type ∈ signature.interfaces, type.WellFormed

def text (signature : ClassSignature) : String :=
  String.ofList signature.spelling

end ClassSignature

namespace MethodSignature

def spelling (signature : MethodSignature) : List Char :=
  TypeParameter.listSpelling signature.typeParameters ++ '(' ::
    (signature.parameters.flatMap TypeSignature.spelling ++ ')' ::
      (resultSpelling TypeSignature.spelling signature.result ++
        signature.throws.flatMap fun type => '^' :: type.spelling))

def WellFormed (signature : MethodSignature) : Prop :=
  TypeParameter.ListWellFormed signature.typeParameters ∧
    (∀ type ∈ signature.parameters, type.WellFormed) ∧ (∀ type ∈ signature.result, type.WellFormed) ∧
    ∀ type ∈ signature.throws, type.IsThrowable ∧ type.WellFormed

def text (signature : MethodSignature) : String :=
  String.ofList signature.spelling

end MethodSignature

end JarSurvey.Descriptor
