/-!
# Globs

A glob is a pattern for paths.  `?` stands for one byte of a name and `*` for any number of them; `**` as a
whole part of the pattern stands for any number of parts of a path.  Brackets hold a choice of characters
and braces a choice of patterns.  A backslash takes the special meaning from the character behind it.

`Glob.parse` reads a pattern in two steps: characters to *symbols*, which settles what is escaped or in
brackets, and symbols to *tokens*, which settles stars and braces.
-/

namespace JarSurvey.Glob

/-- A part of a pattern. -/
inductive Token where
  | literal (c : Char)
  /-- One byte that is no slash. -/
  | any
  /-- Bytes that are no slash. -/
  | many
  /-- Nothing, or a path up to a slash. -/
  | leading
  /-- A slash and anything behind it. -/
  | trailing
  /-- A slash, or a path from a slash to a slash. -/
  | between
  /-- One of some characters, or none of them. -/
  | set (negated : Bool) (ranges : List (Char × Char))
  /-- One of some patterns. -/
  | choice (branches : List (List Token))

/-! ## Symbols -/

/-- A character of a pattern with its role. -/
inductive Symbol where
  | plain (c : Char)
  | escaped (c : Char)
  | set (negated : Bool) (ranges : List (Char × Char))

/-- Brackets that are still open. -/
structure OpenSet where
  negated : Bool
  /-- The ranges so far, the last one first. -/
  ranges : List (Char × Char)
  /-- Whether the last range goes on up to the next character. -/
  continued : Bool

/-- The ranges of brackets at their end; a hyphen at the end stands for itself. -/
def OpenSet.close (set : OpenSet) : List (Char × Char) :=
  (if set.continued then ('-', '-') :: set.ranges else set.ranges).reverse

/-- Adds a character that does not close the brackets; a range cannot end before it begins. -/
def OpenSet.add (set : OpenSet) (c : Char) : Option OpenSet :=
  match set.ranges with
  | [] => some { set with ranges := [(c, c)] }
  | (first, last) :: earlier =>
    if set.continued then
      if first ≤ c then some { set with ranges := (first, c) :: earlier, continued := false }
      else none
    else if c = '-' then some { set with continued := true }
    else some { set with ranges := (c, c) :: (first, last) :: earlier }

/-- The symbols of a pattern, which may begin inside of brackets. -/
def symbols : Option OpenSet → List Char → Option (List Symbol)
  | none, [] => some []
  | some _, [] => none
  | none, '\\' :: c :: rest => (symbols none rest).map (.escaped c :: ·)
  | none, '[' :: '!' :: rest => symbols (some ⟨true, [], false⟩) rest
  | none, '[' :: '^' :: rest => symbols (some ⟨true, [], false⟩) rest
  | none, '[' :: rest => symbols (some ⟨false, [], false⟩) rest
  | none, c :: rest => if c = '\\' then none else (symbols none rest).map (.plain c :: ·)
  | some set, c :: rest =>
    if c = ']' ∧ ¬ set.ranges.isEmpty then
      (symbols none rest).map (.set set.negated set.close :: ·)
    else (set.add c).bind fun set => symbols (some set) rest

/-- The character that stands last in a symbol. -/
def Symbol.last : Symbol → Char
  | plain c => c
  | escaped c => c
  | set _ _ => ']'

/-! ## Tokens -/

/-- A choice whose braces are still open. -/
structure OpenChoice where
  /-- The tokens in front of the braces, the last one first. -/
  before : List Token
  /-- The branches that are complete, the last one first. -/
  branches : List (List Token)

/-- A pattern that is being read. -/
structure Draft where
  /-- The tokens of the current branch, the last one first. -/
  tokens : List Token
  /-- The choices that are open, the innermost first. -/
  opened : List OpenChoice

namespace Draft

/-- Nothing read. -/
def empty : Draft := ⟨[], []⟩

/-- Adds a token. -/
def push (draft : Draft) (token : Token) : Draft :=
  { draft with tokens := token :: draft.tokens }

/-- Opens a choice. -/
def openChoice (draft : Draft) : Draft :=
  ⟨[], ⟨draft.tokens, []⟩ :: draft.opened⟩

/-- A comma divides the branches of a choice and stands for itself elsewhere. -/
def comma (draft : Draft) : Draft :=
  match draft.opened with
  | [] => draft.push (.literal ',')
  | choice :: outer =>
    ⟨[], ⟨choice.before, draft.tokens.reverse :: choice.branches⟩ :: outer⟩

/-- Closes the innermost choice. -/
def closeChoice (draft : Draft) : Option Draft :=
  match draft.opened with
  | [] => none
  | choice :: outer =>
    some ⟨.choice (draft.tokens.reverse :: choice.branches).reverse :: choice.before, outer⟩

/-- Puts a token for two stars in the place of the slash in front of them, unless what is there takes
them in. -/
def absorb (draft : Draft) (token : Token) : Draft :=
  match draft.tokens with
  | .leading :: _ => draft
  | .trailing :: _ => draft
  | _ :: earlier => { draft with tokens := token :: earlier }
  | [] => draft.push token

/-- Two stars that are not a part of their own stand for two single ones. -/
def twoStars (draft : Draft) : Draft :=
  (draft.push .many).push .many

/-- Whether two stars behind the character `previous` can be a part of their own. -/
def beginsPart (draft : Draft) (previous : Option Char) : Bool :=
  previous == some '/' ||
    (!draft.opened.isEmpty && (previous == some ',' || previous == some '\x7b'))

/-- The tokens, if no choice is open. -/
def finish (draft : Draft) : Option (List Token) :=
  if draft.opened.isEmpty then some draft.tokens.reverse else none

end Draft

/-- The tokens of symbols behind the character `previous`. -/
def tokens (draft : Draft) (previous : Option Char) : List Symbol → Option (List Token)
  | [] => draft.finish
  | .plain '*' :: .plain '*' :: rest =>
    if draft.tokens.isEmpty then
      match rest with
      | [] => (draft.push .leading).finish
      | .plain '/' :: later => tokens (draft.push .leading) (some '/') later
      | symbol :: later => tokens draft.twoStars (some '*') (symbol :: later)
    else if draft.beginsPart previous then
      match rest with
      | [] => (draft.absorb .trailing).finish
      | .plain '/' :: later => tokens (draft.absorb .between) (some '/') later
      | symbol :: later =>
        match symbol with
        | .plain c =>
          if (c = ',' ∨ c = '\x7d') ∧ ¬ draft.opened.isEmpty then
            tokens (draft.absorb .trailing) (some '*') (symbol :: later)
          else tokens draft.twoStars (some '*') (symbol :: later)
        | _ => tokens draft.twoStars (some '*') (symbol :: later)
    else tokens draft.twoStars (some '*') rest
  | symbol :: rest =>
    match symbol with
    | .plain '*' => tokens (draft.push .many) (some '*') rest
    | .plain '?' => tokens (draft.push .any) (some '?') rest
    | .plain '\x7b' => tokens draft.openChoice (some '\x7b') rest
    | .plain '\x7d' => draft.closeChoice.bind fun draft => tokens draft (some '\x7d') rest
    | .plain ',' => tokens draft.comma (some ',') rest
    | .plain c => tokens (draft.push (.literal c)) (some c) rest
    | .escaped c => tokens (draft.push (.literal c)) (some c) rest
    | .set negated ranges => tokens (draft.push (.set negated ranges)) (some symbol.last) rest

/-- The tokens of a pattern. -/
def parse (pattern : List Char) : Option (List Token) := do
  tokens Draft.empty none (← symbols none pattern)

end JarSurvey.Glob
