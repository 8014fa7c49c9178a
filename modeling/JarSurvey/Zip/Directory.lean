import JarSurvey.Calendar
import JarSurvey.Digest.Crc32
import JarSurvey.Text.Cp437
import JarSurvey.Text.Utf8
import JarSurvey.Zip.Inflate

/-!
# Zip files

A zip file ends in a directory of its entries.  `Zip.read` finds the directory and opens the entries
that it lists; it yields nothing when the structure of the file is damaged.  Opening an entry may fail
on its own (`Item.unreadable`), and so may unpacking it (`Entry.content`).

The directory alone tells the name, the time, the method, the checksum and the size of an entry.  Of the
header in front of the entry's data only the two lengths count that tell where the data begins.

Numbers are little-endian.  All positions are counted from the start of the file; *offsets* that the file
states are relative to where the archive itself begins, since other data may stand before it.
-/

namespace JarSurvey.Zip

/-- The number of `width` bytes at a position. -/
def field? (bytes : ByteArray) (position : Nat) : Nat → Option Nat
  | 0 => some 0
  | width + 1 => do
    let low ← bytes[position]?
    let high ← field? bytes (position + 1) width
    return low.toNat + 256 * high

/-- The `count` bytes at a position. -/
def slice? (bytes : ByteArray) (position count : Nat) : Option ByteArray :=
  if position + count ≤ bytes.size then some (bytes.extract position (position + count)) else none

/-! ## The end of the directory -/

/-- The record at the end of the directory. -/
structure EndRecord where
  position : Nat
  disk : Nat
  directoryDisk : Nat
  entriesOnDisk : Nat
  entries : Nat
  directorySize : Nat
  directoryOffset : Nat
  commentLength : Nat

/-- The position of the last signature of an end record at or before `position`, looking at most `left`
bytes further back. -/
def findEnd (bytes : ByteArray) (position left : Nat) : Option Nat :=
  if field? bytes position 4 = some 0x06054b50 then some position
  else
    match left with
    | further + 1 => if position = 0 then none else findEnd bytes (position - 1) further
    | 0 => none

/-- The end record, with room for its comment. -/
def EndRecord.find? (bytes : ByteArray) : Option EndRecord := do
  if bytes.size < 22 then none
  let position ← findEnd bytes (bytes.size - 22) 0xFFFF
  let commentLength ← field? bytes (position + 20) 2
  if bytes.size < position + 22 + commentLength then none
  return {
    position
    disk := ← field? bytes (position + 4) 2
    directoryDisk := ← field? bytes (position + 6) 2
    entriesOnDisk := ← field? bytes (position + 8) 2
    entries := ← field? bytes (position + 10) 2
    directorySize := ← field? bytes (position + 12) 4
    directoryOffset := ← field? bytes (position + 16) 4
    commentLength }

/-- Whether a number of the record is all ones, which says that it did not fit. -/
def EndRecord.isTooSmall (record : EndRecord) : Bool :=
  record.disk == 0xFFFF || record.directoryDisk == 0xFFFF || record.entriesOnDisk == 0xFFFF ||
    record.entries == 0xFFFF || record.directorySize == 0xFFFFFFFF ||
    record.directoryOffset == 0xFFFFFFFF

/-- Where the directory is: where the archive begins, where its directory begins, and how many entries
there are. -/
structure Layout where
  start : Nat
  directory : Nat
  entries : Nat

/-- The layout that the end record tells. -/
def EndRecord.layout? (record : EndRecord) : Option Layout :=
  if record.directorySize + record.directoryOffset ≤ record.position then
    let start := record.position - record.directorySize - record.directoryOffset
    some ⟨start, record.directoryOffset + start, record.entriesOnDisk⟩
  else none

/-- The locator of the wide end record stands twenty bytes before an end record that ends the file. -/
def locatorPosition? (bytes : ByteArray) (record : EndRecord) : Option Nat := do
  let behind := 42 + record.commentLength
  if bytes.size < behind then none
  let position := bytes.size - behind
  if field? bytes position 4 = some 0x07064b50 then some position else none

/-- The position of the first signature of a wide end record from `position` on, looking at most `left`
bytes further. -/
def findWideEnd (bytes : ByteArray) (position left : Nat) : Option Nat :=
  if field? bytes position 4 = some 0x06064b50 then some position
  else
    match left with
    | further + 1 => findWideEnd bytes (position + 1) further
    | 0 => none

/-- The layout that the wide end record tells, found through its locator. -/
def wideLayout? (bytes : ByteArray) (record : EndRecord) (locator : Nat) : Option Layout := do
  let directoryDisk ← field? bytes (locator + 4) 4
  let nominal ← field? bytes (locator + 8) 8
  if !record.isTooSmall && record.disk ≠ directoryDisk then none
  -- A wide end record and its locator take sixty bytes at least.
  if record.position < 60 + nominal then none
  let position ← findWideEnd bytes nominal (record.position - 60 - nominal)
  let start := position - nominal
  if (← field? bytes (position + 16) 4) ≠ (← field? bytes (position + 20) 4) then none
  let entries ← field? bytes (position + 32) 8
  let directory := (← field? bytes (position + 48) 8) + start
  if 0xFFFFFFFFFFFFFFFF < directory then none
  return ⟨start, directory, entries⟩

/-- Where the directory is. -/
def layout? (bytes : ByteArray) : Option Layout := do
  let record ← EndRecord.find? bytes
  if !record.isTooSmall && record.disk ≠ record.directoryDisk then none
  match locatorPosition? bytes record with
  | some locator => wideLayout? bytes record locator
  | none => record.layout?

/-! ## The directory -/

/-- What the directory tells about an entry. -/
structure Header where
  flags : Nat
  method : Nat
  time : Nat
  date : Nat
  crc : Nat
  compressedSize : Nat
  size : Nat
  /-- The offset, later the position, of the header in front of the data. -/
  offset : Nat
  name : String
  /-- Whether a further field says that the entry is protected. -/
  isProtected : Bool

/-- Takes in the wide numbers of a further field at `position`: each stands there only if the number it
replaces is all ones.  Yields the header and the position behind what was taken, or none where the
field is cut. -/
def Header.widen (header : Header) (extra : ByteArray) (position : Nat) : Header × Option Nat :=
  let take (number at' : Nat) : Option (Nat × Nat) :=
    if number = 0xFFFFFFFF then (field? extra at' 8).map (·, at' + 8) else some (number, at')
  match take header.size position with
  | none => (header, none)
  | some (size, position) =>
    let header := { header with size }
    match take header.compressedSize position with
    | none => (header, none)
    | some (compressedSize, position) =>
      let header := { header with compressedSize }
      match take header.offset position with
      | none => (header, none)
      | some (offset, position) => ({ header with offset }, some position)

/-- Takes in a further field on protection, whose seven bytes stand at `position`.  A field that is cut
changes nothing. -/
def Header.protect? (header : Header) (extra : ByteArray) (position : Nat) : Option Header :=
  match slice? extra position 7 with
  | none => some header
  | some content => do
    let version ← field? content 0 2
    let vendor ← field? content 2 2
    let strength ← field? content 4 1
    let method ← field? content 5 2
    if vendor = 0x4541 ∧ (version = 1 ∨ version = 2) ∧ 1 ≤ strength ∧ strength ≤ 3 then
      some { header with method, isProtected := true }
    else none

/-- Takes in the further fields from `position` on; `bound` limits their number.  Fields that are cut
are left out. -/
def Header.extend? (extra : ByteArray) : Nat → Nat → Header → Option Header
  | 0, _, header => some header
  | bound + 1, position, header =>
    match field? extra position 2, field? extra (position + 2) 2 with
    | some kind, some length =>
      let content := position + 4
      if kind = 0x0001 then
        match header.widen extra content with
        | (header, none) => some header
        | (header, some taken) => Header.extend? extra bound (max taken (content + length)) header
      else if kind = 0x9901 then
        if length ≠ 7 then none
        else do
          let header ← header.protect? extra content
          -- The length is passed over once more behind the content.
          Header.extend? extra bound (content + 14) header
      else Header.extend? extra bound (content + length) header
    | _, _ => some header

/-- The number of the method that only marks protection. -/
def protectedMethod : Nat := 99

/-- The header of the directory at a position, and the position behind it; `start` is where the archive
begins. -/
def Header.read? (bytes : ByteArray) (start position : Nat) : Option (Header × Nat) := do
  if field? bytes position 4 ≠ some 0x02014b50 then none
  let flags ← field? bytes (position + 8) 2
  let nameLength ← field? bytes (position + 28) 2
  let extraLength ← field? bytes (position + 30) 2
  let commentLength ← field? bytes (position + 32) 2
  let rawName ← slice? bytes (position + 46) nameLength
  let extra ← slice? bytes (position + 46 + nameLength) extraLength
  let _ ← slice? bytes (position + 46 + nameLength + extraLength) commentLength
  let isUtf8 := flags.testBit 11
  let header : Header := {
    flags
    method := ← field? bytes (position + 10) 2
    time := ← field? bytes (position + 12) 2
    date := ← field? bytes (position + 14) 2
    crc := ← field? bytes (position + 16) 4
    compressedSize := ← field? bytes (position + 20) 4
    size := ← field? bytes (position + 24) 4
    offset := ← field? bytes (position + 42) 4
    name := if isUtf8 then Text.Utf8.decodeLossy rawName.toList else Text.Cp437.decode rawName.toList
    isProtected := false }
  let header ← Header.extend? extra (extraLength + 1) 0 header
  if header.method = protectedMethod ∧ !header.isProtected then none
  if 0xFFFFFFFFFFFFFFFF < header.offset + start then none
  return ({ header with offset := header.offset + start },
    position + 46 + nameLength + extraLength + commentLength)

/-- `count` headers from a position on. -/
def headers? (bytes : ByteArray) (start : Nat) : Nat → Nat → Option (List Header)
  | 0, _ => some []
  | count + 1, position => do
    let (header, next) ← Header.read? bytes start position
    let later ← headers? bytes start count next
    return header :: later

/-! ## Entries -/

/-- The methods that can be unpacked. -/
inductive Method where
  | stored
  | deflated
  deriving DecidableEq, Repr

/-- An opened entry. -/
structure Entry where
  name : String
  /-- The time of last change, in milliseconds, where the fields make a real time. -/
  time : Option Int
  method : Method
  crc : UInt32
  /-- The packed content. -/
  data : ByteArray

/-- Whether the entry is a directory, which its name tells. -/
def Entry.isDirectory (entry : Entry) : Bool :=
  match entry.name.toList.getLast? with
  | some c => c == '/' || c == '\\'
  | none => false

/-- The unpacked content, if it can be unpacked and has the right checksum. -/
def Entry.content (entry : Entry) : Option ByteArray := do
  let content ←
    match entry.method with
    | .stored => some entry.data
    | .deflated => inflate entry.data
  if Digest.Crc32.ofBytes content = entry.crc then some content else none

/-- What opening an entry comes to. -/
inductive Item where
  /-- The entry cannot be opened. -/
  | unreadable
  /-- The entry claims a protection that it does not have, on which the reader gives up the whole
  archive. -/
  | locked
  | entry (entry : Entry)

/-- The position of the data behind the header at a position. -/
def dataPosition? (bytes : ByteArray) (position : Nat) : Option Nat := do
  if field? bytes position 4 ≠ some 0x04034b50 then none
  let nameLength ← field? bytes (position + 26) 2
  let extraLength ← field? bytes (position + 28) 2
  return position + 30 + nameLength + extraLength

/-- Opens the entry of a header. -/
def Header.open (bytes : ByteArray) (header : Header) : Item :=
  let isEncrypted := header.flags % 2 = 1
  if isEncrypted then .unreadable
  else
    match dataPosition? bytes header.offset with
    | none => .unreadable
    | some position =>
      let entry (method : Method) : Item :=
        if header.isProtected then .locked
        else .entry {
          name := header.name
          time := Calendar.ofDos? header.date header.time
          method
          crc := UInt32.ofNat header.crc
          data := bytes.extract position (position + header.compressedSize) }
      match header.method with
      | 0 => entry .stored
      | 8 => entry .deflated
      | _ => .unreadable

/-- Opens all entries of a zip file. -/
def read (bytes : ByteArray) : Option (List Item) := do
  let layout ← layout? bytes
  let headers ← headers? bytes layout.start layout.entries layout.directory
  return headers.map (·.open bytes)

end JarSurvey.Zip
