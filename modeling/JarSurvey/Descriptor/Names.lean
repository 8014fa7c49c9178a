import JarSurvey.Descriptor.Parser

/-!
# Classes named by a type

`names` lists the dotted names of the classes that a syntax tree mentions, in a fixed order: outer
before inner, a class before its arguments, the result of a descriptor before its parameters.  Base
types and type variables name no class, and an array names what its element names.
-/

namespace JarSurvey.Descriptor

/-- The class named by an erased type, if there is one. -/
def FieldType.names : FieldType → List String
  | .base _ => []
  | .object name => [dotted name]
  | .array element => element.names

/-- The classes named by a method descriptor: the result first, then the parameters. -/
def MethodDescriptor.names (method : MethodDescriptor) : List String :=
  method.result.toList.flatMap FieldType.names ++ method.parameters.flatMap FieldType.names

mutual

/-- The classes named by a generic type. -/
def TypeSignature.names : TypeSignature → List String
  | .base _ => []
  | .classType type => type.names
  | .typeVariable _ => []
  | .array element => element.names

/-- The outer class, its arguments, then each nested class under the name `Outer$Inner` with its
own arguments. -/
def ClassType.names : ClassType → List String
  | .mk name arguments inner =>
    dotted name :: (TypeArgument.listNames arguments ++ InnerClass.listNames name inner)

/-- The nested classes below `outer`, each followed by its arguments. -/
def InnerClass.listNames (outer : String) : List InnerClass → List String
  | [] => []
  | .mk name arguments :: rest =>
    dotted (outer ++ "$" ++ name) ::
      (TypeArgument.listNames arguments ++ InnerClass.listNames (outer ++ "$" ++ name) rest)

/-- The classes named by a type argument. -/
def TypeArgument.names : TypeArgument → List String
  | .wildcard => []
  | .upperBound bound => bound.names
  | .lowerBound bound => bound.names
  | .exactly type => type.names

/-- The classes named by a list of type arguments. -/
def TypeArgument.listNames : List TypeArgument → List String
  | [] => []
  | argument :: rest => argument.names ++ TypeArgument.listNames rest

end

/-- The classes named by the bounds of a type parameter. -/
def TypeParameter.names (parameter : TypeParameter) : List String :=
  parameter.classBound.toList.flatMap TypeSignature.names ++
    parameter.interfaceBounds.flatMap TypeSignature.names

/-- The classes named by a class signature. -/
def ClassSignature.names (signature : ClassSignature) : List String :=
  signature.typeParameters.flatMap TypeParameter.names ++ signature.superclass.names ++
    signature.interfaces.flatMap ClassType.names

/-- The classes named by a method signature without its `throws` clause, which class files also
keep as a list of exceptions. -/
def MethodSignature.namesWithoutThrows (signature : MethodSignature) : List String :=
  signature.typeParameters.flatMap TypeParameter.names ++
    signature.parameters.flatMap TypeSignature.names ++
    signature.result.toList.flatMap TypeSignature.names

/-- The classes named by a method signature. -/
def MethodSignature.names (signature : MethodSignature) : List String :=
  signature.namesWithoutThrows ++ signature.throws.flatMap TypeSignature.names

/-- The classes named by a class constant: the constant of an array class holds the descriptor of
the array, any other holds an internal name. -/
def classConstantNames (constant : String) : Except Malformed (List String) :=
  match constant.toList with
  | [] => .error ⟨.className, "", 0⟩
  | '[' :: _ => (fieldDescriptor constant).map FieldType.names
  | _ => .ok [dotted constant]

end JarSurvey.Descriptor
