import JarSurvey.Glob.Syntax

/-!
# Matching globs

`Glob.accepts` tells whether a pattern accepts a path.  Matching goes byte by byte: wildcards stand for
bytes, and brackets hold the bytes of their characters.

A pattern is followed through all of its matches at once.  `Reach` marks the places of a text that the
tokens so far can lead to, and each token leads from the marked places to others.  So the work grows with
the lengths of the pattern and of the text only, whatever stars the pattern has.
-/

namespace JarSurvey.Glob

/-- The byte of a slash. -/
def slash : UInt8 := 47

/-- The bytes of a character. -/
def bytesOf (c : Char) : List UInt8 :=
  (String.singleton c).toUTF8.toList

/-- The byte ranges of a range of characters: the bytes in front of the last one of the first character,
the range between that and the first one of the last character, and the bytes behind it. -/
def byteRanges (range : Char × Char) : List (UInt8 × UInt8) :=
  let single (byte : UInt8) : UInt8 × UInt8 := (byte, byte)
  let (first, last) := range
  if first = last then (bytesOf first).map single
  else
    match (bytesOf first).reverse, bytesOf last with
    | low :: before, high :: behind =>
      before.reverse.map single ++ [(low, high)] ++ behind.map single
    | _, _ => []

/-- Whether a byte is in brackets. -/
def inSet (negated : Bool) (ranges : List (Char × Char)) (byte : UInt8) : Bool :=
  negated != (ranges.flatMap byteRanges).any fun (low, high) => low ≤ byte && byte ≤ high

/-! ## Places of a text -/

/-- Marks the places of a text that are reached.  There is a place in front of each byte and one at the
end. -/
abbrev Reach := List Bool

namespace Reach

/-- Only the place in front of all bytes. -/
def front (text : List UInt8) : Reach :=
  true :: text.map fun _ => false

/-- Whether the place at the end is reached. -/
def isComplete (reach : Reach) : Bool :=
  reach.getLast? == some true

/-- The places that are reached in one way or in another. -/
def union (reach other : Reach) : Reach :=
  reach.zipWith (· || ·) other

/-- The places behind one byte that passes `test`. -/
def step (text : List UInt8) (test : UInt8 → Bool) (reach : Reach) : Reach :=
  false :: text.zipWith (fun byte reached => reached && test byte) reach

/-- The places behind given bytes. -/
def steps (text wanted : List UInt8) (reach : Reach) : Reach :=
  wanted.foldl (fun reach byte => step text (· = byte) reach) reach

/-- The places behind any number of bytes that pass `test`; `arriving` tells whether bytes further in front
lead to the first place. -/
def spread (test : UInt8 → Bool) : Bool → List UInt8 → Reach → Reach
  | arriving, byte :: text, reached :: reach =>
    let here := arriving || reached
    here :: spread test (here && test byte) text reach
  | arriving, [], reached :: _ => [arriving || reached]
  | _, _, [] => []

/-- The places behind any number of bytes that are no slash. -/
def alongName (text : List UInt8) (reach : Reach) : Reach :=
  spread (· ≠ slash) false text reach

/-- The places behind any bytes. -/
def anywhere (text : List UInt8) (reach : Reach) : Reach :=
  spread (fun _ => true) false text reach

/-- The places behind a slash. -/
def overSlash (text : List UInt8) (reach : Reach) : Reach :=
  step text (· = slash) reach

/-- The places themselves, and those behind any bytes and a slash. -/
def below (text : List UInt8) (reach : Reach) : Reach :=
  union reach (overSlash text (anywhere text reach))

end Reach

/-! ## Tokens -/

mutual

/-- Whether tokens stand for nothing at all. -/
def areBlank : List Token → Bool
  | [] => true
  | token :: later => isBlank token && areBlank later

/-- Whether a token stands for nothing at all. -/
def isBlank : Token → Bool
  | .choice branches => areAllBlank branches
  | _ => false

/-- Whether all branches stand for nothing at all. -/
def areAllBlank : List (List Token) → Bool
  | [] => true
  | branch :: later => areBlank branch && areAllBlank later

end

mutual

/-- The places behind what a token stands for. -/
def passToken (text : List UInt8) : Token → Reach → Reach
  | .literal c, reach => reach.steps text (bytesOf c)
  | .any, reach => reach.step text (· ≠ slash)
  | .many, reach => reach.alongName text
  | .leading, reach => reach.below text
  | .trailing, reach => (reach.overSlash text).anywhere text
  | .between, reach => (reach.overSlash text).below text
  | .set negated ranges, reach => reach.step text (inSet negated ranges)
  | .choice branches, reach =>
    if areAllBlank branches then reach else passBranches text branches reach

/-- The places behind what tokens stand for one after the other. -/
def passTokens (text : List UInt8) : List Token → Reach → Reach
  | [], reach => reach
  | token :: later, reach => passTokens text later (passToken text token reach)

/-- The places behind what one of the branches stands for; blank branches do not count. -/
def passBranches (text : List UInt8) : List (List Token) → Reach → Reach
  | [], reach => reach.map fun _ => false
  | branch :: later, reach =>
    let others := passBranches text later reach
    if areBlank branch then others else (passTokens text branch reach).union others

end

/-- Whether a pattern accepts a path as a whole.  Two stars alone accept every path. -/
def accepts (pattern : List Token) (path : String) : Bool :=
  match pattern with
  | [.leading] => true
  | _ =>
    let text := path.toUTF8.toList
    (passTokens text pattern (Reach.front text)).isComplete

end JarSurvey.Glob
