/-!
# UTF-8

Bytes are cut into *pieces*: a character, a run of bytes that begins no character, or the start of a
character that the end of the input cuts off.  The pieces serve two readers:

* `decode` accepts well-formed input only, and otherwise tells where the first bad piece stands;
* `decodeLossy` accepts everything and puts U+FFFD in the place of each bad piece.

A run of bad bytes is as long as it could have been part of a character, and at least one byte.
-/

namespace JarSurvey.Text.Utf8

/-- What stands at the front of some bytes. -/
inductive Piece where
  /-- A character that takes `width` bytes. -/
  | char (c : Char) (width : Nat)
  /-- `width` bytes that begin no character. -/
  | invalid (width : Nat)
  /-- The bytes up to the end begin a character that is not complete. -/
  | incomplete
  deriving DecidableEq, Repr

/-- What the first byte of a character promises: how many bytes follow, the range of the first of
them, and the bits that the first byte contributes. -/
structure Lead where
  following : Nat
  low : UInt8
  high : UInt8
  bits : Nat
  deriving DecidableEq, Repr

/-- The promise of a first byte; a byte that begins no character makes none.  The narrower ranges
leave out overlong forms, surrogates and what lies above the last code point. -/
def lead (byte : UInt8) : Option Lead :=
  let n := byte.toNat
  if n < 0x80 then some ⟨0, 0x80, 0xBF, n⟩
  else if n < 0xC2 then none
  else if n < 0xE0 then some ⟨1, 0x80, 0xBF, n % 32⟩
  else if n = 0xE0 then some ⟨2, 0xA0, 0xBF, n % 16⟩
  else if n = 0xED then some ⟨2, 0x80, 0x9F, n % 16⟩
  else if n < 0xF0 then some ⟨2, 0x80, 0xBF, n % 16⟩
  else if n = 0xF0 then some ⟨3, 0x90, 0xBF, n % 8⟩
  else if n < 0xF4 then some ⟨3, 0x80, 0xBF, n % 8⟩
  else if n = 0xF4 then some ⟨3, 0x80, 0x8F, n % 8⟩
  else none

/-- Reads the bytes that follow a first byte: `left` of them, the next one between `low` and `high`,
after `width` bytes whose bits are `value`. -/
def follow : Nat → UInt8 → UInt8 → Nat → Nat → List UInt8 → Piece
  | 0, _, _, value, width, _ => .char (Char.ofNat value) width
  | _ + 1, _, _, _, _, [] => .incomplete
  | left + 1, low, high, value, width, byte :: rest =>
    if low ≤ byte ∧ byte ≤ high then
      follow left 0x80 0xBF (value * 64 + byte.toNat % 64) (width + 1) rest
    else .invalid width

/-- The piece that begins with `byte`, which `rest` follows. -/
def piece (byte : UInt8) (rest : List UInt8) : Piece :=
  match lead byte with
  | none => .invalid 1
  | some promise => follow promise.following promise.low promise.high promise.bits 1 rest

/-- Where input is not well formed: `index` bytes are good; then come `width` bad bytes, or the cut
beginning of a character. -/
structure Fault where
  index : Nat
  width : Option Nat
  deriving DecidableEq, Repr

/-- The sentence that describes a fault. -/
def Fault.message (fault : Fault) : String :=
  match fault.width with
  | some width =>
    s!"invalid utf-8 sequence of {width} bytes from index {fault.index}"
  | none => s!"incomplete utf-8 byte sequence from index {fault.index}"

/-- Decodes from byte `index` on, after the characters `seen` in reverse, with `skip` bytes left of
the piece before. -/
def decodeFrom (seen : List Char) (index : Nat) : Nat → List UInt8 → Except Fault (List Char)
  | _, [] => .ok seen.reverse
  | skip + 1, _ :: rest => decodeFrom seen (index + 1) skip rest
  | 0, byte :: rest =>
    match piece byte rest with
    | .char c width => decodeFrom (c :: seen) (index + 1) (width - 1) rest
    | .invalid width => .error ⟨index, some width⟩
    | .incomplete => .error ⟨index, none⟩

/-- The characters of well-formed input. -/
def decode (bytes : List UInt8) : Except Fault String :=
  (decodeFrom [] 0 0 bytes).map String.ofList

/-- The character that stands for bytes that could not be read. -/
def replacement : Char := Char.ofNat 0xFFFD

/-- Decodes with replacements, after the characters `seen` in reverse, with `skip` bytes left of the
piece before. -/
def decodeLossyFrom (seen : List Char) : Nat → List UInt8 → List Char
  | _, [] => seen.reverse
  | skip + 1, _ :: rest => decodeLossyFrom seen skip rest
  | 0, byte :: rest =>
    match piece byte rest with
    | .char c width => decodeLossyFrom (c :: seen) (width - 1) rest
    | .invalid width => decodeLossyFrom (replacement :: seen) (width - 1) rest
    | .incomplete => (replacement :: seen).reverse

/-- The characters of any input, with one replacement for each bad piece. -/
def decodeLossy (bytes : List UInt8) : String :=
  String.ofList (decodeLossyFrom [] 0 bytes)

end JarSurvey.Text.Utf8
