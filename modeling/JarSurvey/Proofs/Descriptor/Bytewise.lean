import JarSurvey.Descriptor.Names
import JarSurvey.Proofs.Text.Utf8

/-!
# Reading descriptors byte by byte

The readers of descriptors and signatures take characters off the front of a text, so they never stand inside of a
character.  Here the same grammars are read from the bytes of the text, by a cursor that is nothing but an offset:

* it looks at single bytes and moves on by single bytes, also in the middle of a character;
* after a byte that begins nothing it steps back before it reports the failure (`stepBack`);
* a name is cut out of the text by the offsets of its two ends (`cut?`).

Two things can go wrong in this way that cannot go wrong with characters: a step back from the start of the text, and a
cut with an end that is not a boundary between characters.  Both end the reading with `Halt.crash`, which is no answer
about the text.  Recursion and loops are bounded as well, and a bound that was reached is told apart from everything
else (`Halt.exhausted`).

That neither of these ever happens, and that the answers are those of the readers of characters, is shown in
`Boundaries`.
-/

namespace JarSurvey.Descriptor

open Text.Utf8 (encode)

/-- The offset is that of a boundary between characters, or of an end of the text. -/
def IsBoundary (text : String) (offset : Nat) : Prop :=
  String.Pos.Raw.IsValid text ⟨offset⟩

instance (text : String) (offset : Nat) : Decidable (IsBoundary text offset) :=
  inferInstanceAs (Decidable (String.Pos.Raw.IsValid text ⟨offset⟩))

/-- The byte of a character below `0x80`. -/
def ascii (c : Char) : UInt8 := UInt8.ofNat c.toNat

/-- Why a reading ends without a value. -/
inductive Halt where
  /-- The text does not follow its grammar at this offset. -/
  | malformed (offset : Nat)
  /-- A cut inside of a character, or a step back from the start. -/
  | crash
  /-- There were more steps than the bound allows. -/
  | exhausted
  deriving DecidableEq, Repr

/-- A reader with an offset into the bytes of a text. -/
abbrev Bytewise := StateT Nat (Except Halt)

namespace Bytewise

variable {α : Type} (text : String)

/-! ## The cursor -/

/-- Reports that the text is malformed where the cursor stands. -/
def fail : Bytewise α := fun offset => .error (.malformed offset)

def exhausted : Bytewise α := fun _ => .error .exhausted

/-- The byte at the cursor, if there is one. -/
def peek : Bytewise (Option UInt8) := fun offset => .ok ((encode text)[offset]?, offset)

def advance : Bytewise Unit := fun offset => .ok ((), offset + 1)

def stepBack : Bytewise Unit := fun offset =>
  if offset = 0 then .error .crash else .ok ((), offset - 1)

/-- Takes any byte. -/
def bump : Bytewise UInt8 := do
  match ← peek text with
  | some byte => advance; return byte
  | none => fail

/-- Takes the character `c`, if it stands at the cursor, and tells whether it did. -/
def eat (c : Char) : Bytewise Bool := do
  if (← peek text) = some (ascii c) then
    advance
    return true
  else return false

def expect (c : Char) : Bytewise Unit := do
  if ← eat text c then return () else fail

/-- Succeeds at the end of the text. -/
def finish : Bytewise Unit := do
  match ← peek text with
  | some _ => fail
  | none => return ()

/-! ## Names -/

/-- The part of the text between two offsets. -/
def cut? (start stop : Nat) : Option String :=
  if h : start ≤ stop ∧ IsBoundary text start ∧ IsBoundary text stop then
    some (text.extract ⟨⟨start⟩, h.2.1⟩ ⟨⟨stop⟩, h.2.2⟩)
  else none

/-- The offset of the first of the bytes `stops`, from `offset` on, where the bytes are these. -/
def pass (stops : List UInt8) : List UInt8 → Nat → Nat
  | [], offset => offset
  | byte :: rest, offset => if stops.contains byte then offset else pass stops rest (offset + 1)

/-- Takes a name: a run of bytes outside `stops`, not empty and followed by a stop. -/
def name (stops : List Char) : Bytewise String := fun start =>
  let stop := pass (stops.map ascii) ((encode text).drop start) start
  if stop = start ∨ (encode text).length ≤ stop then .error (.malformed stop)
  else
    match cut? text start stop with
    | some found => .ok (found, stop)
    | none => .error .crash

/-- Takes a name and the semicolon behind it. -/
def enclosedName : Bytewise String := do
  let found ← name text [';']
  expect text ';'
  return found

/-! ## Lists -/

/-- Every turn of a loop takes a byte, and every level of a type does. -/
def bound : Nat := (encode text).length + 1

/-- Takes items until the character `stop`, which is taken too. -/
def itemsUpTo (stop : Char) (item : Bytewise α) : Nat → Bytewise (List α)
  | 0 => exhausted
  | turns + 1 => do
    if ← eat text stop then return []
    else
      let x ← item
      let xs ← itemsUpTo stop item turns
      return x :: xs

/-- Takes items as long as each is introduced by the character `mark`. -/
def markedUpTo (mark : Char) (item : Bytewise α) : Nat → Bytewise (List α)
  | 0 => exhausted
  | turns + 1 => do
    if ← eat text mark then
      let x ← item
      let xs ← markedUpTo mark item turns
      return x :: xs
    else return []

/-- Takes items until the end of the text, each with the character `mark` before it. -/
def markedToEnd (mark : Char) (item : Bytewise α) : Nat → Bytewise (List α)
  | 0 => exhausted
  | turns + 1 => do
    match ← peek text with
    | none => return []
    | some _ =>
      expect text mark
      let x ← item
      let xs ← markedToEnd mark item turns
      return x :: xs

def items (stop : Char) (item : Bytewise α) : Bytewise (List α) :=
  itemsUpTo text stop item (bound text)

def marked (mark : Char) (item : Bytewise α) : Bytewise (List α) :=
  markedUpTo text mark item (bound text)

/-- A list in angle brackets that is not empty, or no list at all. -/
def bracketed (item : Bytewise α) : Bytewise (List α) := do
  if ← eat text '<' then
    let xs ← items text '>' item
    if xs.isEmpty then fail else return xs
  else return []

/-- Nothing for `V`, otherwise a type. -/
def result (type : Bytewise α) : Bytewise (Option α) := do
  if ← eat text 'V' then return none
  else
    let t ← type
    return some t

/-! ## Descriptors -/

/-- The bytes of the letters of base types. -/
def isBaseByte (byte : UInt8) : Bool :=
  ("BCDFIJSZ".toList.map ascii).contains byte

def letter (byte : UInt8) : Char := Char.ofNat byte.toNat

def fieldType : Nat → Bytewise FieldType
  | 0 => exhausted
  | depth + 1 => do
    let byte ← bump text
    if isBaseByte byte then return .base (letter byte)
    else if byte = ascii 'L' then
      let n ← enclosedName text
      return .object n
    else if byte = ascii '[' then
      let element ← fieldType depth
      return .array element
    else
      stepBack
      fail

def methodDescriptor : Bytewise MethodDescriptor := do
  expect text '('
  let parameters ← items text ')' (fieldType text (bound text))
  let result ← result text (fieldType text (bound text))
  return ⟨parameters, result⟩

/-! ## Signatures -/

def javaType (reference : Bytewise TypeSignature) : Bytewise TypeSignature := do
  match ← peek text with
  | some byte =>
    if isBaseByte byte then
      advance
      return .base (letter byte)
    else reference
  | none => reference

def typeArgument (reference : Bytewise TypeSignature) : Bytewise TypeArgument := do
  match ← peek text with
  | some byte =>
    if byte = ascii '*' then
      advance
      return .wildcard
    else if byte = ascii '+' then
      advance
      return .upperBound (← reference)
    else if byte = ascii '-' then
      advance
      return .lowerBound (← reference)
    else return .exactly (← reference)
  | none => fail

def classSegment (reference : Bytewise TypeSignature) : Bytewise (String × List TypeArgument) := do
  let n ← name text ['<', '.', ';']
  let arguments ← bracketed text (typeArgument text reference)
  return (n, arguments)

def innerClass (reference : Bytewise TypeSignature) : Bytewise InnerClass := do
  let segment ← classSegment text reference
  return .mk segment.1 segment.2

def classBody (reference : Bytewise TypeSignature) : Bytewise ClassType := do
  let segment ← classSegment text reference
  let inner ← marked text '.' (innerClass text reference)
  expect text ';'
  return .mk segment.1 segment.2 inner

def reference : Nat → Bytewise TypeSignature
  | 0 => exhausted
  | depth + 1 => do
    let byte ← bump text
    if byte = ascii 'L' then
      let type ← classBody text (reference depth)
      return .classType type
    else if byte = ascii 'T' then
      let n ← enclosedName text
      return .typeVariable n
    else if byte = ascii '[' then
      let element ← javaType text (reference depth)
      return .array element
    else
      stepBack
      fail

def classBound (reference : Bytewise TypeSignature) : Bytewise (Option TypeSignature) := do
  match ← peek text with
  | some byte =>
    if byte = ascii 'L' ∨ byte = ascii 'T' ∨ byte = ascii '[' then
      let type ← reference
      return some type
    else return none
  | none => return none

def typeParameter (reference : Bytewise TypeSignature) : Bytewise TypeParameter := do
  let n ← name text [':']
  expect text ':'
  let bound ← classBound text reference
  let interfaces ← marked text ':' reference
  return ⟨n, bound, interfaces⟩

def thrown (reference : Bytewise TypeSignature) : Bytewise TypeSignature := do
  match ← peek text with
  | some byte => if byte = ascii 'L' ∨ byte = ascii 'T' then reference else fail
  | none => fail

def typeParameters : Bytewise (List TypeParameter) :=
  bracketed text (typeParameter text (reference text (bound text)))

def methodSignature : Bytewise MethodSignature := do
  let typeParameters ← typeParameters text
  expect text '('
  let parameters ← items text ')' (javaType text (reference text (bound text)))
  let result ← result text (javaType text (reference text (bound text)))
  let throws ← marked text '^' (thrown text (reference text (bound text)))
  return ⟨typeParameters, parameters, result, throws⟩

/-- Takes a class signature with all that follows it: there is nothing that may stand behind the interfaces. -/
def classSignature : Bytewise ClassSignature := do
  let typeParameters ← typeParameters text
  expect text 'L'
  let superclass ← classBody text (reference text (bound text))
  let interfaces ← markedToEnd text 'L' (classBody text (reference text (bound text))) (bound text)
  return ⟨typeParameters, superclass, interfaces⟩

/-! ## Whole texts -/

/-- What the reader makes of the text from its start on. -/
def fromStart (reader : Bytewise α) : Except Halt α := (reader 0).map Prod.fst

/-- The same, where nothing may follow. -/
def whole (reader : Bytewise α) : Except Halt α :=
  fromStart do
    let value ← reader
    finish text
    return value

/-- The classes named by a class constant: the first byte tells whether it holds the descriptor of an array. -/
def classConstantNames : Except Halt (List String) :=
  if (encode text)[0]? = some (ascii '[') then (whole text (fieldType text (bound text))).map FieldType.names
  else if (encode text).isEmpty then .error (.malformed 0)
  else .ok [dotted text]

end Bytewise

end JarSurvey.Descriptor
