/-!
# Inflating

The decompression of zip entries.  Compressed data is a row of bits, the lowest bit of each byte first,
and falls into blocks that are stored as they are or coded with a pair of prefix codes, one for
characters and lengths and one for distances.

`inflate` yields the data, or nothing when the compressed data is damaged or ends early.  Bytes behind
the last block are ignored.

Every loop takes at least one bit a round, so the number of bits bounds them all.
-/

namespace JarSurvey.Zip

/-- Takes a value from the front of the bits, or fails; the state is the number of bits taken. -/
abbrev BitReader := ReaderT ByteArray (StateT Nat Option)

namespace BitReader

/-- Takes a bit. -/
def bit : BitReader Nat := fun data position =>
  match data[position / 8]? with
  | some byte => some (byte.toNat >>> (position % 8) % 2, position + 1)
  | none => none

/-- Takes a number of `count` bits, the lowest first. -/
def bits : Nat → BitReader Nat
  | 0 => pure 0
  | count + 1 => do
    let low ← bit
    let high ← bits count
    return low + 2 * high

/-- Passes over the bits up to the next byte. -/
def align : BitReader Unit := fun _ position =>
  some ((), (position + 7) / 8 * 8)

/-- The bits that are left. -/
def left : BitReader Nat := fun data position =>
  some (data.size * 8 - position, position)

/-- Fails unless there is a value. -/
def orFail {α : Type} (value : Option α) : BitReader α := fun _ position =>
  value.map fun x => (x, position)

end BitReader

/-! ## Prefix codes -/

/-- A prefix code given by the lengths of its code words: how many words there are of each length from
one on, and the symbols in the order of their words. -/
structure PrefixCode where
  counts : List Nat
  symbols : Array Nat

namespace PrefixCode

/-- The greatest length of a code word. -/
def maxLength : Nat := 15

/-- The symbols whose code word has `length` bits. -/
def symbolsOfLength (lengths : List Nat) (length : Nat) : List Nat :=
  (lengths.zipIdx.filter fun (l, _) => l == length).map (·.2)

/-- The share of all bit strings that words of these lengths begin, in units of the longest words. -/
def space (lengths : List Nat) : Nat :=
  lengths.foldr (fun l sum => 1 <<< (maxLength - l) + sum) 0

/-- The code with these lengths, where zero means that a symbol has no word.  The words have to use up
all bit strings, unless there is no word at all or a single one of one bit. -/
def ofLengths? (lengths : List Nat) : Option PrefixCode :=
  let byLength := ((List.range (maxLength + 1)).drop 1).map (symbolsOfLength lengths)
  let used := lengths.filter (0 < ·)
  if used = [] ∨ used = [1] ∨ space used = 1 <<< maxLength then
    some ⟨byLength.map (·.length), byLength.flatten.toArray⟩
  else none

/-- Takes the rest of a code word.  The bits so far make the number `word`, the first word of the next
length is `first`, and `index` symbols have shorter words. -/
def decodeFrom (symbols : Array Nat) : List Nat → Nat → Nat → Nat → BitReader Nat
  | [], _, _, _ => BitReader.orFail none
  | count :: longer, word, first, index => do
    let bit ← BitReader.bit
    let word := 2 * word + bit
    if word < first + count then BitReader.orFail symbols[index + (word - first)]?
    else decodeFrom symbols longer word (2 * (first + count)) (index + count)

/-- Takes a code word and yields its symbol. -/
def decode (code : PrefixCode) : BitReader Nat :=
  decodeFrom code.symbols code.counts 0 0 0

end PrefixCode

/-! ## Tables -/

/-- The least length and the number of further bits for each length symbol. -/
def lengthTable : Array (Nat × Nat) :=
  #[(3, 0), (4, 0), (5, 0), (6, 0), (7, 0), (8, 0), (9, 0), (10, 0), (11, 1), (13, 1), (15, 1),
    (17, 1), (19, 2), (23, 2), (27, 2), (31, 2), (35, 3), (43, 3), (51, 3), (59, 3), (67, 4),
    (83, 4), (99, 4), (115, 4), (131, 5), (163, 5), (195, 5), (227, 5), (258, 0)]

/-- The least distance and the number of further bits for each distance symbol. -/
def distanceTable : Array (Nat × Nat) :=
  #[(1, 0), (2, 0), (3, 0), (4, 0), (5, 1), (7, 1), (9, 2), (13, 2), (17, 3), (25, 3), (33, 4),
    (49, 4), (65, 5), (97, 5), (129, 6), (193, 6), (257, 7), (385, 7), (513, 8), (769, 8),
    (1025, 9), (1537, 9), (2049, 10), (3073, 10), (4097, 11), (6145, 11), (8193, 12), (12289, 12),
    (16385, 13), (24577, 13)]

/-- The order in which a block gives the lengths for the code of its lengths. -/
def lengthOrder : List Nat :=
  [16, 17, 18, 0, 8, 7, 9, 6, 10, 5, 11, 4, 12, 3, 13, 2, 14, 1, 15]

/-- The lengths of the fixed code for characters and lengths. -/
def fixedLengths : List Nat :=
  List.replicate 144 8 ++ List.replicate 112 9 ++ List.replicate 24 7 ++ List.replicate 8 8

/-! ## Blocks -/

namespace Inflate

/-- Appends `count` bytes, each a copy of the one `distance` bytes before it.  Before the first byte there
are zeros. -/
def copy (distance : Nat) : Nat → ByteArray → ByteArray
  | 0, out => out
  | count + 1, out =>
    let byte := if distance ≤ out.size then out[out.size - distance]?.getD 0 else 0
    copy distance count (out.push byte)

/-- Takes a length or a distance for a symbol of a table. -/
def extended (table : Array (Nat × Nat)) (symbol : Nat) : BitReader Nat := do
  let (least, more) ← BitReader.orFail table[symbol]?
  let further ← BitReader.bits more
  return least + further

/-- Takes coded data up to the end of the block. -/
def codedData (characters distances : PrefixCode) : Nat → ByteArray → BitReader ByteArray
  | 0, _ => BitReader.orFail none
  | bound + 1, out => do
    let symbol ← characters.decode
    if symbol < 256 then codedData characters distances bound (out.push (UInt8.ofNat symbol))
    else if symbol = 256 then return out
    else
      let length ← extended lengthTable (symbol - 257)
      let distance ← extended distanceTable (← distances.decode)
      codedData characters distances bound (copy distance length out)

/-- Takes `count` bytes as they are. -/
def storedBytes : Nat → ByteArray → BitReader ByteArray
  | 0, out => return out
  | count + 1, out => do
    let byte ← BitReader.bits 8
    storedBytes count (out.push (UInt8.ofNat byte))

/-- Takes a stored block: its length, the complement of its length, and its bytes. -/
def storedBlock (out : ByteArray) : BitReader ByteArray := do
  BitReader.align
  let length ← BitReader.bits 16
  let complement ← BitReader.bits 16
  if length + complement = 0xFFFF then storedBytes length out else BitReader.orFail none

/-- Takes a block of coded data. -/
def codedBlock (characters distances : PrefixCode) (out : ByteArray) : BitReader ByteArray := do
  codedData characters distances ((← BitReader.left) + 1) out

/-- Takes a block that uses the fixed codes. -/
def fixedBlock (out : ByteArray) : BitReader ByteArray := do
  let characters ← BitReader.orFail (PrefixCode.ofLengths? fixedLengths)
  let distances ← BitReader.orFail (PrefixCode.ofLengths? (List.replicate 32 5))
  codedBlock characters distances out

/-- Takes `count` items. -/
def times {α : Type} (item : BitReader α) : Nat → BitReader (List α)
  | 0 => return []
  | count + 1 => do
    let x ← item
    let xs ← times item count
    return x :: xs

/-- Takes the lengths of code words, `total` in all, after those in `seen`, which is in reverse. -/
def codeLengths (code : PrefixCode) (total : Nat) : Nat → List Nat → BitReader (List Nat)
  | 0, _ => BitReader.orFail none
  | bound + 1, seen =>
    if total ≤ seen.length then
      BitReader.orFail (if seen.length = total then some seen.reverse else none)
    else do
      let symbol ← code.decode
      if symbol < 16 then codeLengths code total bound (symbol :: seen)
      else if symbol = 16 then
        let last ← BitReader.orFail seen.head?
        let count ← BitReader.bits 2
        codeLengths code total bound (List.replicate (count + 3) last ++ seen)
      else if symbol = 17 then
        let count ← BitReader.bits 3
        codeLengths code total bound (List.replicate (count + 3) 0 ++ seen)
      else
        let count ← BitReader.bits 7
        codeLengths code total bound (List.replicate (count + 11) 0 ++ seen)

/-- Takes a block that brings its own codes. -/
def dynamicBlock (out : ByteArray) : BitReader ByteArray := do
  let characterCount := (← BitReader.bits 5) + 257
  let distanceCount := (← BitReader.bits 5) + 1
  let orderCount := (← BitReader.bits 4) + 4
  if 286 < characterCount ∨ 30 < distanceCount then BitReader.orFail none
  else
    let given ← times (BitReader.bits 3) orderCount
    let ordered := lengthOrder.zip given
    let code ← BitReader.orFail
      (PrefixCode.ofLengths? ((List.range 19).map fun symbol => (ordered.lookup symbol).getD 0))
    let total := characterCount + distanceCount
    let lengths ← codeLengths code total (total + 1) []
    let characters ← BitReader.orFail (PrefixCode.ofLengths? (lengths.take characterCount))
    let distances ← BitReader.orFail (PrefixCode.ofLengths? (lengths.drop characterCount))
    codedBlock characters distances out

/-- Takes blocks up to the one that is marked as the last. -/
def blocks : Nat → ByteArray → BitReader ByteArray
  | 0, _ => BitReader.orFail none
  | bound + 1, out => do
    let last ← BitReader.bit
    let kind ← BitReader.bits 2
    let out ←
      match kind with
      | 0 => storedBlock out
      | 1 => fixedBlock out
      | 2 => dynamicBlock out
      | _ => BitReader.orFail none
    if last = 1 then return out else blocks bound out

end Inflate

/-- The data that was compressed. -/
def inflate (data : ByteArray) : Option ByteArray :=
  (Inflate.blocks (data.size * 8 + 1) ByteArray.empty data 0).map (·.1)

end JarSurvey.Zip
