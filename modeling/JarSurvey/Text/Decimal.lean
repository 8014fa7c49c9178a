/-!
# Decimal numbers

Numbers in text: an optional sign and at least one digit, nothing else, within given bounds.

* `natUpTo?` : numbers from zero on, which may have a plus sign;
* `intWithin?` : numbers that may have a minus sign too.
-/

namespace JarSurvey.Text.Decimal

/-- The number that digits make, after the number `seen` that the digits before them make. -/
def digits? (seen : Nat) : List Char → Option Nat
  | [] => some seen
  | c :: rest =>
    if '0' ≤ c ∧ c ≤ '9' then digits? (seen * 10 + (c.toNat - '0'.toNat)) rest else none

/-- The number that one digit or more make. -/
def number? : List Char → Option Nat
  | [] => none
  | digits => digits? 0 digits

/-- The number from zero to `max` that a text gives, with or without a plus sign. -/
def natUpTo? (max : Nat) (text : String) : Option Nat := do
  let n ←
    match text.toList with
    | '+' :: rest => number? rest
    | rest => number? rest
  if n ≤ max then some n else none

/-- The number from `min` to `max` that a text gives, with or without a sign. -/
def intWithin? (min max : Int) (text : String) : Option Int := do
  let n ←
    match text.toList with
    | '-' :: rest => (number? rest).map fun n => -(n : Int)
    | '+' :: rest => (number? rest).map fun n => (n : Int)
    | rest => (number? rest).map fun n => (n : Int)
  if min ≤ n ∧ n ≤ max then some n else none

/-- The largest number of sixteen bits. -/
def maxU16 : Nat := 0xFFFF

/-- The largest number of sixty-four bits. -/
def maxU64 : Nat := 0xFFFFFFFFFFFFFFFF

/-- The least signed number of sixty-four bits. -/
def minI64 : Int := -0x8000000000000000

/-- The largest signed number of sixty-four bits. -/
def maxI64 : Int := 0x7FFFFFFFFFFFFFFF

end JarSurvey.Text.Decimal
