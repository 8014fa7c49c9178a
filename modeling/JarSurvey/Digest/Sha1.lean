import JarSurvey.Text.Hex

/-!
# SHA-1

The digest that identifies archives by their bytes, and report layouts by their heading.  The message
is padded to blocks of sixty-four bytes; each block is expanded to eighty words, which are mixed into
a state of five words one after the other.
-/

namespace JarSurvey.Digest.Sha1

/-- The five words that a digest is made of. -/
structure State where
  a : UInt32
  b : UInt32
  c : UInt32
  d : UInt32
  e : UInt32

/-- The state before the first block. -/
def initial : State := ⟨0x67452301, 0xEFCDAB89, 0x98BADCFE, 0x10325476, 0xC3D2E1F0⟩

/-- Rotates a word to the left. -/
def rotate (word : UInt32) (count : UInt32) : UInt32 :=
  (word <<< count) ||| (word >>> (32 - count))

/-- The mixing function and the constant of a round. -/
def mix (round : Nat) (b c d : UInt32) : UInt32 × UInt32 :=
  if round < 20 then ((b &&& c) ||| ((~~~b) &&& d), 0x5A827999)
  else if round < 40 then (b ^^^ c ^^^ d, 0x6ED9EBA1)
  else if round < 60 then ((b &&& c) ||| (b &&& d) ||| (c &&& d), 0x8F1BBCDC)
  else (b ^^^ c ^^^ d, 0xCA62C1D6)

/-- Mixes in one word. -/
def round (s : State) (number : Nat) (word : UInt32) : State :=
  let (f, k) := mix number s.b s.c s.d
  ⟨rotate s.a 5 + f + s.e + k + word, s.a, rotate s.b 30, s.c, s.d⟩

/-- The eighty words of a block of sixteen. -/
def expand (words : Array UInt32) : Array UInt32 :=
  (List.range 64).foldl (fun w i =>
    w.push (rotate (w.getD (i + 13) 0 ^^^ w.getD (i + 8) 0 ^^^ w.getD (i + 2) 0 ^^^ w.getD i 0) 1))
    words

/-- Takes in the block that begins at byte `start`. -/
def block (message : ByteArray) (state : State) (start : Nat) : State :=
  let byte (i : Nat) : UInt32 := (message[start + i]?.getD 0).toUInt32
  let words := (Array.range 16).map fun i =>
    (byte (4 * i) <<< 24) ||| (byte (4 * i + 1) <<< 16) ||| (byte (4 * i + 2) <<< 8) |||
      byte (4 * i + 3)
  let expanded := expand words
  let mixed := (List.range 80).foldl (fun s i => round s i (expanded.getD i 0)) state
  ⟨state.a + mixed.a, state.b + mixed.b, state.c + mixed.c, state.d + mixed.d, state.e + mixed.e⟩

/-- The `width` bytes of a number, highest first. -/
def bytesOf : Nat → Nat → List UInt8
  | 0, _ => []
  | width + 1, n => bytesOf width (n / 256) ++ [UInt8.ofNat n]

/-- The message with a one bit, zeros and its length in bits behind it. -/
def padded (message : ByteArray) : ByteArray :=
  let zeros := (119 - message.size % 64) % 64
  let tail := 0x80 :: (List.replicate zeros 0 ++ bytesOf 8 (message.size * 8))
  tail.foldl ByteArray.push message

/-- The digest of some bytes, in hexadecimal. -/
def ofBytes (message : ByteArray) : String :=
  let data := padded message
  let final := (List.range (data.size / 64)).foldl (fun s i => block data s (64 * i)) initial
  Text.Hex.ofBytes ([final.a, final.b, final.c, final.d, final.e].flatMap fun word =>
    bytesOf 4 word.toNat)

/-- The digest of a text in UTF-8, in hexadecimal. -/
def ofText (text : String) : String :=
  ofBytes text.toUTF8

end JarSurvey.Digest.Sha1
