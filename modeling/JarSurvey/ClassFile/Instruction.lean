import JarSurvey.ClassFile.ConstantPool

/-!
# Instructions

The code of a method is a row of instructions.  Each has an operation code, and the code fixes its
`Shape`: how long it is and which of its operands is an index into the constant pool.  The length of a
switch depends on its operands too, which are aligned to four bytes from the start of the code.

`decode` cuts code into instructions.  It stops at the first one that cannot be decoded and keeps those
before it.
-/

namespace JarSurvey.ClassFile

/-- The operand of an instruction that points into the constant pool. -/
inductive Operand where
  | none
  /-- A constant that is loaded. -/
  | constant (index : Index)
  /-- A class that is instantiated or tested for. -/
  | classRef (index : Index)
  /-- A field that is read or written. -/
  | field (index : Index)
  /-- A method that is called. -/
  | method (index : Index)
  /-- A call site that is linked when it is first run. -/
  | callSite (index : Index)
  /-- The class of an array with several dimensions. -/
  | multiArray (index : Index) (dimensions : UInt8)
  deriving DecidableEq, Repr

/-- An instruction with its place in the code. -/
structure Instruction where
  offset : Nat
  opcode : UInt8
  operand : Operand
  deriving DecidableEq, Repr

/-- How the bytes of an instruction are laid out after its operation code. -/
inductive Shape where
  /-- `length` bytes in all, none of them an index. -/
  | plain (length : Nat)
  /-- An index of one byte. -/
  | shortConstant
  /-- An index of two bytes with the meaning `operand`, in `length` bytes in all. -/
  | indexed (operand : Index → Operand) (length : Nat)
  /-- An index of two bytes and a number of dimensions. -/
  | multiArray
  /-- A jump table for a range of values. -/
  | tableSwitch
  /-- A jump table for a list of values. -/
  | lookupSwitch
  /-- Another instruction with wider operands. -/
  | wide

/-- The shape that an operation code fixes; unknown codes have none. -/
def Shape.of? (opcode : UInt8) : Option Shape :=
  let n := opcode.toNat
  if n ≤ 0x0f then some (.plain 1)
  else if n = 0x10 then some (.plain 2)
  else if n = 0x11 then some (.plain 3)
  else if n = 0x12 then some .shortConstant
  else if n ≤ 0x14 then some (.indexed .constant 3)
  else if n ≤ 0x19 then some (.plain 2)
  else if n ≤ 0x35 then some (.plain 1)
  else if n ≤ 0x3a then some (.plain 2)
  else if n ≤ 0x83 then some (.plain 1)
  else if n = 0x84 then some (.plain 3)
  else if n ≤ 0x98 then some (.plain 1)
  else if n ≤ 0xa8 then some (.plain 3)
  else if n = 0xa9 then some (.plain 2)
  else if n = 0xaa then some .tableSwitch
  else if n = 0xab then some .lookupSwitch
  else if n ≤ 0xb1 then some (.plain 1)
  else if n ≤ 0xb5 then some (.indexed .field 3)
  else if n ≤ 0xb8 then some (.indexed .method 3)
  else if n = 0xb9 then some (.indexed .method 5)
  else if n = 0xba then some (.indexed .callSite 5)
  else if n = 0xbb then some (.indexed .classRef 3)
  else if n = 0xbc then some (.plain 2)
  else if n = 0xbd then some (.indexed .classRef 3)
  else if n ≤ 0xbf then some (.plain 1)
  else if n ≤ 0xc1 then some (.indexed .classRef 3)
  else if n ≤ 0xc3 then some (.plain 1)
  else if n = 0xc4 then some .wide
  else if n = 0xc5 then some .multiArray
  else if n ≤ 0xc7 then some (.plain 3)
  else if n ≤ 0xc9 then some (.plain 5)
  else none

namespace Instruction

/-- The number of bytes between the operation code of a switch at `offset` and its operands, which
stand at a multiple of four. -/
def padding (offset : Nat) : Nat :=
  (4 - (offset + 1) % 4) % 4

/-- The signed number of four bytes that stands `start` bytes into `bytes`, which begin at
`offset`. -/
def wordAt (offset : Nat) (bytes : List UInt8) (start : Nat) : Except FormatError Int :=
  match bytes.drop start with
  | a :: b :: c :: d :: _ => .ok (Reader.word32 a b c d).toInt32.toInt
  | _ => .error (.truncated (offset + start))

/-- Decodes the operand and the length of the instruction at `offset`, whose operation code is
`opcode` and which `rest` follows.  The length is not checked against the code. -/
def operands (offset : Nat) (opcode : UInt8) (rest : List UInt8) :
    Except FormatError (Operand × Nat) :=
  match Shape.of? opcode with
  | none => .error (.unknownOpcode opcode offset)
  | some (.plain length) => .ok (.none, length)
  | some .shortConstant =>
    match rest with
    | a :: _ => .ok (.constant (UInt16.ofNat a.toNat), 2)
    | [] => .error (.truncated (offset + 1))
  | some (.indexed operand length) =>
    match rest with
    | a :: b :: _ => .ok (operand (Reader.word16 a b), length)
    | _ => .error (.truncated (offset + 1))
  | some .multiArray =>
    match rest with
    | a :: b :: c :: _ => .ok (.multiArray (Reader.word16 a b) c, 4)
    | [_, _] => .error (.truncated (offset + 3))
    | _ => .error (.truncated (offset + 1))
  | some .wide =>
    match rest with
    | a :: _ => .ok (.none, if a.toNat = 0x84 then 6 else 4)
    | [] => .error (.truncated (offset + 1))
  | some .tableSwitch => do
    let low ← wordAt (offset + 1) rest (padding offset + 4)
    let high ← wordAt (offset + 1) rest (padding offset + 8)
    if high < low then throw (.truncated offset)
    else return (.none, 1 + padding offset + 12 + (high - low + 1).toNat * 4)
  | some .lookupSwitch => do
    let pairs ← wordAt (offset + 1) rest (padding offset + 4)
    if pairs < 0 then throw (.truncated offset)
    else return (.none, 1 + padding offset + 8 + pairs.toNat * 8)

/-- Whether a list has at least `count` elements. -/
def hasAtLeast {α : Type} : Nat → List α → Bool
  | 0, _ => true
  | _ + 1, [] => false
  | count + 1, _ :: rest => hasAtLeast count rest

/-- Decodes code from `offset` on, after passing over the `skip` bytes that are left of the
instruction before. -/
def decodeFrom (offset : Nat) : Nat → List UInt8 → List Instruction × Option FormatError
  | _, [] => ([], none)
  | skip + 1, _ :: rest => decodeFrom (offset + 1) skip rest
  | 0, opcode :: rest =>
    match operands offset opcode rest with
    | .error e => ([], some e)
    | .ok (operand, length) =>
      if hasAtLeast (length - 1) rest then
        let (later, failure) := decodeFrom (offset + 1) (length - 1) rest
        (⟨offset, opcode, operand⟩ :: later, failure)
      else ([], some (.truncated offset))

/-- The instructions of code, up to the first that cannot be decoded, and why it cannot. -/
def decode (code : List UInt8) : List Instruction × Option FormatError :=
  decodeFrom 0 0 code

end Instruction

end JarSurvey.ClassFile
