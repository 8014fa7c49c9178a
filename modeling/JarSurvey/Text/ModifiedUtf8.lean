import JarSurvey.Text.Utf8

/-!
# Modified UTF-8

Class files write text in a dialect of UTF-8 whose characters are 16-bit units: NUL takes two bytes
and a character beyond the basic plane takes six, three for each of its surrogates.

* `units` reads bytes as units, in one, two or three bytes each, and refuses anything else;
* `ofUnits` turns units into text and puts U+FFFD in the place of a surrogate without its partner;
* `decode` takes input that is plain UTF-8 as such, and reads all other input by units.
-/

namespace JarSurvey.Text.ModifiedUtf8

/-- Whether a byte continues a unit. -/
def isContinuation (byte : UInt8) : Bool :=
  byte.toNat / 64 == 2

/-- The 16-bit units that the bytes spell. -/
def units : List UInt8 → Option (List Nat)
  | [] => some []
  | a :: rest =>
    if a.toNat < 0x80 then
      (units rest).map (a.toNat :: ·)
    else if a.toNat / 32 = 6 then
      match rest with
      | b :: rest =>
        if isContinuation b then
          (units rest).map ((a.toNat % 32 * 64 + b.toNat % 64) :: ·)
        else none
      | [] => none
    else if a.toNat / 16 = 14 then
      match rest with
      | b :: c :: rest =>
        if isContinuation b && isContinuation c then
          (units rest).map ((a.toNat % 16 * 4096 + b.toNat % 64 * 64 + c.toNat % 64) :: ·)
        else none
      | _ => none
    else none

/-- Whether a unit is the first half of a surrogate pair. -/
def isHigh (unit : Nat) : Bool :=
  0xD800 ≤ unit && unit < 0xDC00

/-- Whether a unit is the second half of a surrogate pair. -/
def isLow (unit : Nat) : Bool :=
  0xDC00 ≤ unit && unit < 0xE000

/-- The characters that the units spell. -/
def ofUnits : List Nat → List Char
  | [] => []
  | [u] => [if isHigh u || isLow u then Utf8.replacement else Char.ofNat u]
  | u :: v :: rest =>
    if isHigh u then
      if isLow v then
        Char.ofNat (0x10000 + (u - 0xD800) * 0x400 + (v - 0xDC00)) :: ofUnits rest
      else Utf8.replacement :: ofUnits (v :: rest)
    else if isLow u then Utf8.replacement :: ofUnits (v :: rest)
    else Char.ofNat u :: ofUnits (v :: rest)

/-- The text of any bytes that can be read as units. -/
def decodeByUnits (bytes : List UInt8) : Option String :=
  (units bytes).map fun us => String.ofList (ofUnits us)

/-- The text of a constant: plain UTF-8 where it is that, otherwise by units. -/
def decode (bytes : List UInt8) : Option String :=
  match Utf8.decode bytes with
  | .ok text => some text
  | .error _ => decodeByUnits bytes

end JarSurvey.Text.ModifiedUtf8
