/-!
# CRC-32

The checksum by which zip files guard the content of their entries: the remainder of the bytes, read
as a polynomial over two elements with the lowest bit first, by a fixed polynomial.
-/

namespace JarSurvey.Digest.Crc32

/-- The polynomial, lowest power first. -/
def polynomial : UInt32 := 0xEDB88320

/-- Divides `count` bits. -/
def shift (state : UInt32) : Nat → UInt32
  | 0 => state
  | count + 1 =>
    shift (if state &&& 1 = 1 then (state >>> 1) ^^^ polynomial else state >>> 1) count

/-- Takes in a byte. -/
def step (state : UInt32) (byte : UInt8) : UInt32 :=
  shift (state ^^^ byte.toUInt32) 8

/-- The checksum of some bytes. -/
def ofBytes (bytes : ByteArray) : UInt32 :=
  bytes.foldl step 0xFFFFFFFF ^^^ 0xFFFFFFFF

end JarSurvey.Digest.Crc32
