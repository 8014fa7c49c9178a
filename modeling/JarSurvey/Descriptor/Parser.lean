import JarSurvey.Descriptor.Syntax

/-!
# Reading descriptors and signatures

A reader takes a piece from the front of a text and hands back the rest; when it fails it reports
the text it had not read yet, from which the offset of the failure follows.  The public readers
accept a text only as a whole:

* `fieldDescriptor`, `methodDescriptor`, `returnDescriptor`;
* `classSignature`, `methodSignature`, `fieldSignature`;
* `classConstant`, for the class constants of a pool, which hold a class name or the descriptor of
  an array.

Types nest, so the readers of types take a bound on the nesting.  Each level of a type takes a
character, so a text cannot nest deeper than it is long, and the bound never shows.
-/

namespace JarSurvey.Descriptor

/-- The grammars a text can be read by. -/
inductive Grammar where
  | fieldDescriptor
  | methodDescriptor
  | classSignature
  | methodSignature
  | fieldSignature
  | className
  deriving DecidableEq, Repr

/-- What messages call a text of the grammar. -/
def Grammar.label : Grammar → String
  | fieldDescriptor => "field descriptor"
  | methodDescriptor => "method descriptor"
  | classSignature => "class signature"
  | methodSignature => "method signature"
  | fieldSignature => "field signature"
  | className => "class name"

/-- A text that its grammar does not accept, with the offset in bytes of its UTF-8 form at which
reading stopped. -/
structure Malformed where
  grammar : Grammar
  text : String
  offset : Nat
  deriving DecidableEq, Repr

/-- A reader of pieces: it yields a value and the rest, or fails with the text not read yet. -/
abbrev Scan (α : Type) := List Char → Except (List Char) (α × List Char)

namespace Scan

/-- Takes the character `c`. -/
def expect (c : Char) : Scan Unit
  | d :: rest => if d = c then .ok ((), rest) else .error (d :: rest)
  | [] => .error []

/-- Takes a name: a run of characters outside `stops`, not empty and followed by a stop. -/
def name (stops : List Char) : Scan String := fun text =>
  let run := text.takeWhile fun c => !stops.contains c
  let rest := text.dropWhile fun c => !stops.contains c
  if run.isEmpty || rest.isEmpty then .error rest else .ok (String.ofList run, rest)

/-- Takes items until the character `stop`, which is taken too; `bound` limits their number. -/
def itemsUpTo {α : Type} (stop : Char) (item : Scan α) : Nat → Scan (List α)
  | 0, text => .error text
  | _ + 1, [] => .error []
  | bound + 1, c :: rest =>
    if c = stop then .ok ([], rest)
    else do
      let (x, rest) ← item (c :: rest)
      let (xs, rest) ← itemsUpTo stop item bound rest
      return (x :: xs, rest)

/-- Takes items until the character `stop`, which is taken too.  Every item takes a character, so
the text is long enough a bound. -/
def items {α : Type} (stop : Char) (item : Scan α) : Scan (List α) := fun text =>
  itemsUpTo stop item (text.length + 1) text

/-- Takes items as long as each is introduced by the character `mark`; `bound` limits their
number. -/
def markedUpTo {α : Type} (mark : Char) (item : Scan α) : Nat → Scan (List α)
  | 0, text => .error text
  | _ + 1, [] => .ok ([], [])
  | bound + 1, c :: rest =>
    if c = mark then do
      let (x, rest) ← item rest
      let (xs, rest) ← markedUpTo mark item bound rest
      return (x :: xs, rest)
    else .ok ([], c :: rest)

/-- Takes items as long as each is introduced by the character `mark`. -/
def marked {α : Type} (mark : Char) (item : Scan α) : Scan (List α) := fun text =>
  markedUpTo mark item (text.length + 1) text

/-- A list in angle brackets that is not empty, or no list at all. -/
def bracketed {α : Type} (item : Scan α) : Scan (List α)
  | '<' :: rest => do
    let (xs, rest) ← items '>' item rest
    if xs.isEmpty then .error rest else .ok (xs, rest)
  | text => .ok ([], text)

/-- The result of a method: nothing for `V`, otherwise a type. -/
def result {α : Type} (type : Scan α) : Scan (Option α)
  | 'V' :: rest => .ok (none, rest)
  | text => do
    let (t, rest) ← type text
    return (some t, rest)

/-! ## Descriptors -/

/-- Takes an erased type that nests at most `depth` deep. -/
def fieldType : Nat → Scan FieldType
  | 0, text => .error text
  | _ + 1, 'L' :: rest => do
    let (n, rest) ← name [';'] rest
    let ((), rest) ← expect ';' rest
    return (.object n, rest)
  | depth + 1, '[' :: rest => do
    let (element, rest) ← fieldType depth rest
    return (.array element, rest)
  | _ + 1, c :: rest => if isBase c then .ok (.base c, rest) else .error (c :: rest)
  | _ + 1, [] => .error []

/-- Takes a method descriptor. -/
def methodDescriptor (depth : Nat) : Scan MethodDescriptor := fun text => do
  let ((), rest) ← expect '(' text
  let (parameters, rest) ← items ')' (fieldType depth) rest
  let (result, rest) ← result (fieldType depth) rest
  return (⟨parameters, result⟩, rest)

/-! ## Signatures -/

/-- Takes a base type or a reference type. -/
def javaType (reference : Scan TypeSignature) : Scan TypeSignature
  | c :: rest => if isBase c then .ok (.base c, rest) else reference (c :: rest)
  | [] => .error []

/-- Takes a type argument. -/
def typeArgument (reference : Scan TypeSignature) : Scan TypeArgument
  | '*' :: rest => .ok (.wildcard, rest)
  | '+' :: rest => do
    let (bound, rest) ← reference rest
    return (.upperBound bound, rest)
  | '-' :: rest => do
    let (bound, rest) ← reference rest
    return (.lowerBound bound, rest)
  | text => do
    let (type, rest) ← reference text
    return (.exactly type, rest)

/-- Takes the name of a class with its type arguments. -/
def classSegment (reference : Scan TypeSignature) : Scan (String × List TypeArgument) :=
  fun text => do
    let (n, rest) ← name ['<', '.', ';'] text
    let (arguments, rest) ← bracketed (typeArgument reference) rest
    return ((n, arguments), rest)

/-- Takes a nested class, after its dot. -/
def innerClass (reference : Scan TypeSignature) : Scan InnerClass := fun text => do
  let ((n, arguments), rest) ← classSegment reference text
  return (.mk n arguments, rest)

/-- Takes a class type, after its `L`. -/
def classBody (reference : Scan TypeSignature) : Scan ClassType := fun text => do
  let ((n, arguments), rest) ← classSegment reference text
  let (inner, rest) ← marked '.' (innerClass reference) rest
  let ((), rest) ← expect ';' rest
  return (.mk n arguments inner, rest)

/-- Takes a reference type that nests at most `depth` deep. -/
def reference : Nat → Scan TypeSignature
  | 0, text => .error text
  | depth + 1, 'L' :: rest => do
    let (type, rest) ← classBody (reference depth) rest
    return (.classType type, rest)
  | _ + 1, 'T' :: rest => do
    let (n, rest) ← name [';'] rest
    let ((), rest) ← expect ';' rest
    return (.typeVariable n, rest)
  | depth + 1, '[' :: rest => do
    let (element, rest) ← javaType (reference depth) rest
    return (.array element, rest)
  | _ + 1, text => .error text

/-- Takes the class bound of a type parameter, which may be missing. -/
def classBound (reference : Scan TypeSignature) : Scan (Option TypeSignature)
  | c :: rest =>
    if c = 'L' ∨ c = 'T' ∨ c = '[' then do
      let (bound, rest) ← reference (c :: rest)
      return (some bound, rest)
    else .ok (none, c :: rest)
  | [] => .ok (none, [])

/-- Takes a type parameter. -/
def typeParameter (reference : Scan TypeSignature) : Scan TypeParameter := fun text => do
  let (n, rest) ← name [':'] text
  let ((), rest) ← expect ':' rest
  let (bound, rest) ← classBound reference rest
  let (interfaces, rest) ← marked ':' reference rest
  return (⟨n, bound, interfaces⟩, rest)

/-- Takes a type that a method may throw: a class or a type variable. -/
def thrown (reference : Scan TypeSignature) : Scan TypeSignature
  | c :: rest => if c = 'L' ∨ c = 'T' then reference (c :: rest) else .error (c :: rest)
  | [] => .error []

/-- Takes a method signature. -/
def methodSignature (depth : Nat) : Scan MethodSignature := fun text => do
  let (typeParameters, rest) ← bracketed (typeParameter (reference depth)) text
  let ((), rest) ← expect '(' rest
  let (parameters, rest) ← items ')' (javaType (reference depth)) rest
  let (result, rest) ← result (javaType (reference depth)) rest
  let (throws, rest) ← marked '^' (thrown (reference depth)) rest
  return (⟨typeParameters, parameters, result, throws⟩, rest)

/-- Takes a class signature: the superclass and the interfaces are all introduced by `L`. -/
def classSignature (depth : Nat) : Scan ClassSignature := fun text => do
  let (typeParameters, rest) ← bracketed (typeParameter (reference depth)) text
  let ((), rest) ← expect 'L' rest
  let (superclass, rest) ← classBody (reference depth) rest
  let (interfaces, rest) ← marked 'L' (classBody (reference depth)) rest
  return (⟨typeParameters, superclass, interfaces⟩, rest)

end Scan

/-! ## Whole texts -/

/-- The number of bytes of the UTF-8 form of `text`. -/
def byteLength (text : List Char) : Nat :=
  text.foldr (fun c sum => c.utf8Size + sum) 0

/-- Reads the whole of `text` by `scan`, which is given the length of the text as its bound. -/
def readWhole {α : Type} (grammar : Grammar) (scan : Nat → Scan α) (text : String) :
    Except Malformed α :=
  let chars := text.toList
  let failAt (rest : List Char) : Except Malformed α :=
    .error ⟨grammar, text, byteLength chars - byteLength rest⟩
  match scan (chars.length + 1) chars with
  | .ok (value, []) => .ok value
  | .ok (_, rest) => failAt rest
  | .error rest => failAt rest

/-- Reads the descriptor of a field. -/
def fieldDescriptor (text : String) : Except Malformed FieldType :=
  readWhole .fieldDescriptor Scan.fieldType text

/-- Reads the descriptor of a method. -/
def methodDescriptor (text : String) : Except Malformed MethodDescriptor :=
  readWhole .methodDescriptor Scan.methodDescriptor text

/-- Reads the descriptor of a result: `V` for none, otherwise that of a field. -/
def returnDescriptor (text : String) : Except Malformed (Option FieldType) :=
  if text = "V" then .ok none else (fieldDescriptor text).map some

/-- Reads the signature of a class. -/
def classSignature (text : String) : Except Malformed ClassSignature :=
  readWhole .classSignature Scan.classSignature text

/-- Reads the signature of a method. -/
def methodSignature (text : String) : Except Malformed MethodSignature :=
  readWhole .methodSignature Scan.methodSignature text

/-- Reads the signature of a field, which is a reference type. -/
def fieldSignature (text : String) : Except Malformed TypeSignature :=
  readWhole .fieldSignature Scan.reference text

end JarSurvey.Descriptor
