/-!
# Hexadecimal text

Lowercase hexadecimal digits, for offsets and tags in messages (`prefixed`) and for digests
(`ofBytes`).
-/

namespace JarSurvey.Text.Hex

/-- The digit of a value below sixteen. -/
def digit (n : Nat) : Char :=
  if n < 10 then Char.ofNat ('0'.toNat + n) else Char.ofNat ('a'.toNat + (n - 10))

/-- The last `width` digits of `n`. -/
def digits : Nat → Nat → List Char
  | 0, _ => []
  | width + 1, n => digits width (n / 16) ++ [digit (n % 16)]

/-- `0x` and `width` digits. -/
def prefixed (width n : Nat) : String :=
  String.ofList ('0' :: 'x' :: digits width n)

/-- Two digits for each byte. -/
def ofBytes (bytes : List UInt8) : String :=
  String.ofList (bytes.flatMap fun byte => digits 2 byte.toNat)

end JarSurvey.Text.Hex
