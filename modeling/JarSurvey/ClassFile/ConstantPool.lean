import JarSurvey.ClassFile.Cursor
import JarSurvey.Text.ModifiedUtf8

/-!
# The constant pool

A class keeps its texts, numbers and references in a pool of *slots* counted from one.  A `long` or a
`double` takes two slots, and nothing can be found in the second.

* `Constant` : the kinds of constants;
* `ConstantPool.read` : the pool at the front of the data;
* `ConstantPool.get` and the functions after it : constants by index, each of the kind that the place
  of the index asks for.
-/

namespace JarSurvey.ClassFile

/-- An index into the constant pool. -/
abbrev Index := UInt16

/-- A constant of the pool.  Floating point numbers are kept by their bits. -/
inductive Constant where
  | utf8 (text : String)
  | integer (value : Int32)
  | float (bits : UInt32)
  | long (value : Int64)
  | double (bits : UInt64)
  | classRef (name : Index)
  | string (text : Index)
  | fieldRef (owner nameAndType : Index)
  | methodRef (owner nameAndType : Index)
  | interfaceMethodRef (owner nameAndType : Index)
  | nameAndType (name descriptor : Index)
  | methodHandle (kind : UInt8) (member : Index)
  | methodType (descriptor : Index)
  | dynamic (bootstrap nameAndType : Index)
  | invokeDynamic (bootstrap nameAndType : Index)
  | moduleRef (name : Index)
  | packageRef (name : Index)
  deriving DecidableEq, Repr

/-- Whether the constant takes two slots. -/
def Constant.isWide : Constant → Bool
  | long _ => true
  | double _ => true
  | _ => false

/-- The slots of a pool; those without a constant are slot zero and the second slots of wide
constants. -/
structure ConstantPool where
  slots : Array (Option Constant)
  deriving DecidableEq, Repr

namespace ConstantPool

/-! ## Reading -/

/-- Takes the text of a constant for `slot`. -/
def readText (slot : Nat) : Reader String := do
  let length ← Reader.u16
  let bytes ← Reader.take length.toNat
  match Text.ModifiedUtf8.decode bytes with
  | some text => return text
  | none => throw (.badUtf8 (UInt16.ofNat slot))

/-- Takes the constant for `slot`. -/
def readConstant (slot : Nat) : Reader Constant := do
  let tag ← Reader.u8
  match tag.toNat with
  | 1 => return .utf8 (← readText slot)
  | 3 => return .integer (← Reader.i32)
  | 4 => return .float (← Reader.u32)
  | 5 => return .long (← Reader.u64).toInt64
  | 6 => return .double (← Reader.u64)
  | 7 => return .classRef (← Reader.u16)
  | 8 => return .string (← Reader.u16)
  | 9 => return .fieldRef (← Reader.u16) (← Reader.u16)
  | 10 => return .methodRef (← Reader.u16) (← Reader.u16)
  | 11 => return .interfaceMethodRef (← Reader.u16) (← Reader.u16)
  | 12 => return .nameAndType (← Reader.u16) (← Reader.u16)
  | 15 => return .methodHandle (← Reader.u8) (← Reader.u16)
  | 16 => return .methodType (← Reader.u16)
  | 17 => return .dynamic (← Reader.u16) (← Reader.u16)
  | 18 => return .invokeDynamic (← Reader.u16) (← Reader.u16)
  | 19 => return .moduleRef (← Reader.u16)
  | 20 => return .packageRef (← Reader.u16)
  | _ => throw (.unknownConstantTag (UInt16.ofNat slot) tag)

/-- Takes constants from `slot` on until `left` slots are filled; a wide constant for the last slot
fills one more. -/
def readSlots (slot left : Nat) : Reader (List (Option Constant)) :=
  match left with
  | 0 => pure []
  | left + 1 => do
    let constant ← readConstant slot
    if constant.isWide then
      let rest ← readSlots (slot + 2) (left - 1)
      return some constant :: none :: rest
    else
      let rest ← readSlots (slot + 1) left
      return some constant :: rest
termination_by left

/-- Takes the pool: the number of its slots, slot zero included, and the constants. -/
def read : Reader ConstantPool := do
  let count ← Reader.u16
  let slots ← readSlots 1 (count.toNat - 1)
  return ⟨(none :: slots).toArray⟩

/-! ## Finding constants -/

/-- The number of slots, slot zero included. -/
def size (pool : ConstantPool) : Nat := pool.slots.size

/-- Whether the pool holds nothing but slot zero. -/
def isEmpty (pool : ConstantPool) : Bool := pool.size ≤ 1

/-- The constant at an index. -/
def get (pool : ConstantPool) (index : Index) : Except FormatError Constant :=
  match pool.slots[index.toNat]? with
  | some (some constant) => .ok constant
  | _ => .error (.badConstantIndex index)

/-- The text at an index. -/
def utf8 (pool : ConstantPool) (index : Index) : Except FormatError String := do
  match ← pool.get index with
  | .utf8 text => return text
  | _ => throw (.unexpectedConstant index .utf8)

/-- The name of the class at an index: an internal name, or the descriptor of an array. -/
def className (pool : ConstantPool) (index : Index) : Except FormatError String := do
  match ← pool.get index with
  | .classRef name => pool.utf8 name
  | _ => throw (.unexpectedConstant index .classRef)

/-- The name of the class at an index, where index zero means no class. -/
def className? (pool : ConstantPool) (index : Index) : Except FormatError (Option String) :=
  if index = 0 then .ok none else (pool.className index).map some

/-- The name and the descriptor at an index. -/
def nameAndType (pool : ConstantPool) (index : Index) :
    Except FormatError (String × String) := do
  match ← pool.get index with
  | .nameAndType name descriptor => return (← pool.utf8 name, ← pool.utf8 descriptor)
  | _ => throw (.unexpectedConstant index .nameAndType)

end ConstantPool

/-- A field or a method of a class, by name. -/
structure MemberRef where
  owner : String
  name : String
  descriptor : String
  deriving DecidableEq, Repr

/-- A method handle: a use of a field or of a method. -/
structure Handle where
  kind : UInt8
  member : MemberRef
  deriving DecidableEq, Repr

/-- Whether a handle uses a field: kinds one to four do. -/
def Handle.isField (handle : Handle) : Bool :=
  1 ≤ handle.kind.toNat && handle.kind.toNat ≤ 4

namespace ConstantPool

/-- The member whose class and whose name and type have these indices. -/
def memberOf (pool : ConstantPool) (owner nameAndType : Index) :
    Except FormatError MemberRef := do
  let owner ← pool.className owner
  let (name, descriptor) ← pool.nameAndType nameAndType
  return ⟨owner, name, descriptor⟩

/-- The field or method at an index. -/
def member (pool : ConstantPool) (index : Index) : Except FormatError MemberRef := do
  match ← pool.get index with
  | .fieldRef owner nameAndType => pool.memberOf owner nameAndType
  | .methodRef owner nameAndType => pool.memberOf owner nameAndType
  | .interfaceMethodRef owner nameAndType => pool.memberOf owner nameAndType
  | _ => throw (.unexpectedConstant index .member)

/-- The method handle at an index. -/
def handle (pool : ConstantPool) (index : Index) : Except FormatError Handle := do
  match ← pool.get index with
  | .methodHandle kind member => return ⟨kind, ← pool.member member⟩
  | _ => throw (.unexpectedConstant index .methodHandle)

end ConstantPool

end JarSurvey.ClassFile
