import JarSurvey.ClassFile.Error

/-!
# Reading bytes

A `Cursor` stands at a position of some data, with the bytes from there on.  A `Reader` takes a value
from the front of the bytes and moves the cursor past it.  Numbers are big-endian.

A read for which the data is too short fails with the position of the cursor, and reads nothing.  So
does the failing part of a read in two parts (`u64`, `sized`), after the first part was read: in every
case the cursor of a failed read stands at the position it reports (`Cursor.afterFailure`).
-/

namespace JarSurvey.ClassFile

/-- A place in some data: how many bytes lie before it, and the bytes from it on. -/
structure Cursor where
  position : Nat
  rest : List UInt8
  deriving DecidableEq, Repr

namespace Cursor

/-- The start of the data. -/
def start (bytes : List UInt8) : Cursor := ⟨0, bytes⟩

/-- Whether all data was read. -/
def atEnd (cursor : Cursor) : Bool := cursor.rest.isEmpty

/-- The cursor `count` bytes on. -/
def advance (cursor : Cursor) (count : Nat) : Cursor :=
  ⟨cursor.position + count, cursor.rest.drop count⟩

/-- Where the cursor stands after a read that failed for lack of data at `offset`. -/
def afterFailure (cursor : Cursor) (offset : Nat) : Cursor :=
  cursor.advance (offset - cursor.position)

end Cursor

/-- Takes a value from the front of the data, or fails. -/
abbrev Reader := StateT Cursor (Except FormatError)

namespace Reader

/-- Fails for lack of data. -/
def outOfData {α : Type} : Reader α := fun cursor => .error (.truncated cursor.position)

/-- Takes `count` bytes. -/
def take (count : Nat) : Reader (List UInt8) := fun cursor =>
  let (taken, rest) := cursor.rest.splitAt count
  if taken.length < count then outOfData cursor
  else .ok (taken, ⟨cursor.position + count, rest⟩)

/-- Passes over `count` bytes. -/
def skip (count : Nat) : Reader Unit := do
  let _ ← take count

/-- Takes a byte. -/
def u8 : Reader UInt8 := fun cursor =>
  match cursor.rest with
  | a :: rest => .ok (a, ⟨cursor.position + 1, rest⟩)
  | _ => outOfData cursor

/-- The number with these two bytes. -/
def word16 (a b : UInt8) : UInt16 :=
  UInt16.ofNat (a.toNat * 256 + b.toNat)

/-- Takes a number of two bytes. -/
def u16 : Reader UInt16 := fun cursor =>
  match cursor.rest with
  | a :: b :: rest => .ok (word16 a b, ⟨cursor.position + 2, rest⟩)
  | _ => outOfData cursor

/-- The number with these four bytes. -/
def word32 (a b c d : UInt8) : UInt32 :=
  UInt32.ofNat (((a.toNat * 256 + b.toNat) * 256 + c.toNat) * 256 + d.toNat)

/-- Takes a number of four bytes. -/
def u32 : Reader UInt32 := fun cursor =>
  match cursor.rest with
  | a :: b :: c :: d :: rest => .ok (word32 a b c d, ⟨cursor.position + 4, rest⟩)
  | _ => outOfData cursor

/-- Takes a signed number of four bytes. -/
def i32 : Reader Int32 := do
  return (← u32).toInt32

/-- Takes a number of eight bytes, one half after the other. -/
def u64 : Reader UInt64 := do
  let high ← u32
  let low ← u32
  return UInt64.ofNat (high.toNat * 0x100000000 + low.toNat)

/-- Takes a length of four bytes and as many bytes as it says. -/
def sized : Reader (List UInt8) := do
  let length ← u32
  take length.toNat

/-- Takes `count` items. -/
def many {α : Type} (item : Reader α) : Nat → Reader (List α)
  | 0 => pure []
  | count + 1 => do
    let x ← item
    let xs ← many item count
    return x :: xs

/-- Takes a number of items in two bytes, and the items. -/
def counted {α : Type} (item : Reader α) : Reader (List α) := do
  let count ← u16
  many item count.toNat

/-- Takes a number of items in one byte, and the items. -/
def shortCounted {α : Type} (item : Reader α) : Reader (List α) := do
  let count ← u8
  many item count.toNat

end Reader

end JarSurvey.ClassFile
