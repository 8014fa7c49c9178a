/-!
# Descriptors and generic signatures

The types that class files write as text.  *Descriptors* give the erased type of a field or a
method; *signatures* give the generic type, with type variables and type arguments.  Both are kept
as syntax trees:

* `FieldType`, `MethodDescriptor` : descriptors;
* `TypeSignature`, `ClassType`, `TypeArgument` : the types of signatures;
* `TypeParameter`, `ClassSignature`, `MethodSignature` : the signatures of declarations.

Names inside the trees are *internal* names, whose parts are divided by `/`.
-/

namespace JarSurvey.Descriptor

/-- An erased type: a base type by its letter, a class by its internal name, or an array. -/
inductive FieldType where
  | base (letter : Char)
  | object (name : String)
  | array (element : FieldType)
  deriving DecidableEq, Repr

/-- The erased type of a method; the result is `none` for `void`. -/
structure MethodDescriptor where
  parameters : List FieldType
  result : Option FieldType
  deriving DecidableEq, Repr

mutual

/-- A generic type. -/
inductive TypeSignature where
  | base (letter : Char)
  | classType (type : ClassType)
  | typeVariable (name : String)
  | array (element : TypeSignature)

/-- A class type: the outermost class with its arguments, then the classes nested in it. -/
inductive ClassType where
  | mk (name : String) (arguments : List TypeArgument) (inner : List InnerClass)

/-- A nested class with its own arguments. -/
inductive InnerClass where
  | mk (name : String) (arguments : List TypeArgument)

/-- A type argument. -/
inductive TypeArgument where
  | wildcard
  | upperBound (bound : TypeSignature)
  | lowerBound (bound : TypeSignature)
  | exactly (type : TypeSignature)

end

/-- A type parameter with its bounds. -/
structure TypeParameter where
  name : String
  classBound : Option TypeSignature
  interfaceBounds : List TypeSignature

/-- The generic declaration of a class. -/
structure ClassSignature where
  typeParameters : List TypeParameter
  superclass : ClassType
  interfaces : List ClassType

/-- The generic declaration of a method; the result is `none` for `void`. -/
structure MethodSignature where
  typeParameters : List TypeParameter
  parameters : List TypeSignature
  result : Option TypeSignature
  throws : List TypeSignature

/-- The letters of the base types. -/
def isBase (c : Char) : Bool :=
  "BCDFIJSZ".toList.contains c

/-- An internal name with dots in place of slashes. -/
def dotted (internal : String) : String :=
  String.ofList (internal.toList.map fun c => if c = '/' then '.' else c)

end JarSurvey.Descriptor
