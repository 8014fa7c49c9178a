import JarSurvey.Glob.Match

/-!
# How deep globs nest

A pattern is a tree: a sequence of two or more *items*, a choice among two or more branches, the braces
around a choice, brackets, and a repetition each hold what is inside of them one level deeper.  Patterns
that are too deep are not used.

`Glob.depth` counts the levels, and `Glob.isTooDeep` compares them with the limit.
-/

namespace JarSurvey.Glob

/-- The levels of items in a row: one more than in the deepest of them, unless there is only one. -/
def depthOfSequence : List Nat → Nat
  | [] => 0
  | [depth] => depth
  | depths => depths.foldl max 0 + 1

/-- The levels of brackets: those around a single range have no list in them. -/
def depthOfSet (ranges : List (Char × Char)) : Nat :=
  if (ranges.flatMap byteRanges).length ≤ 1 then 1 else 2

mutual

/-- The levels of each item of a token.  A character has an item for each of its bytes, two stars at the
end have the slash in front of them besides, and braces around nothing have none. -/
def itemDepths : Token → List Nat
  | .literal c => (bytesOf c).map fun _ => 0
  | .any => [1]
  | .many => [2]
  | .leading => [4]
  | .trailing => [0, 1]
  | .between => [4]
  | .set _ ranges => [depthOfSet ranges]
  | .choice branches =>
    match branchDepths branches with
    | [] => []
    | depths => [depthOfSequence depths + 1]

/-- The levels of each item of tokens. -/
def itemsDepths : List Token → List Nat
  | [] => []
  | token :: later => itemDepths token ++ itemsDepths later

/-- The levels of each branch that stands for anything. -/
def branchDepths : List (List Token) → List Nat
  | [] => []
  | branch :: later =>
    match itemsDepths branch with
    | [] => branchDepths later
    | depths => depthOfSequence depths :: branchDepths later

end

/-- The levels of a pattern, whose items stand between its two ends. -/
def depth (pattern : List Token) : Nat :=
  (itemsDepths pattern).foldl max 0 + 1

/-- The greatest number of levels. -/
def maxDepth : Nat := 250

/-- Whether a pattern nests too deep. -/
def isTooDeep (pattern : List Token) : Bool :=
  maxDepth < depth pattern

end JarSurvey.Glob
