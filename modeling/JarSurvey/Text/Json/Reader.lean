import JarSurvey.Text.Json

/-!
# Reading JSON

Readers for values of a known shape.  A `Reader` takes characters from the front of a text and gives what
they mean, or fails.

* `Reader.text`, `Reader.list`, `Reader.record` : texts, arrays, and objects with two known fields;
* `Reader.skip` : any value, whatever it means;
* `Reader.run` : a whole text.

The syntax is strict: nothing but blanks between values, no comma at the end, no bare control characters.
A text that is used has to be one of characters, so halves of surrogate pairs have to come in pairs; in
what is skipped they need not.

Each item of an array or an object takes a character at least.  So the number of characters bounds the
number of items, and the depth of what is skipped; it is counted once, by `Reader.run`, and handed on.
-/

namespace JarSurvey.Text.Json

/-- Takes characters from the front of a text and gives what they mean. -/
abbrev Reader (α : Type) := List Char → Option (α × List Char)

namespace Reader

/-- Whether a character may stand between values. -/
def isBlank (c : Char) : Bool :=
  c = ' ' || c = '\n' || c = '\t' || c = '\r'

/-- The text from its first character on that is no blank. -/
def dropBlanks (cs : List Char) : List Char :=
  cs.dropWhile isBlank

/-- Passes a character, after blanks. -/
def mark (expected : Char) (cs : List Char) : Option (List Char) :=
  match dropBlanks cs with
  | c :: rest => if c = expected then some rest else none
  | [] => none

/-! ## Texts -/

/-- The value of a hexadecimal digit, in either case. -/
def hexValue? (c : Char) : Option Nat :=
  if '0' ≤ c ∧ c ≤ '9' then some (c.toNat - '0'.toNat)
  else if 'a' ≤ c ∧ c ≤ 'f' then some (c.toNat - 'a'.toNat + 10)
  else if 'A' ≤ c ∧ c ≤ 'F' then some (c.toNat - 'A'.toNat + 10)
  else none

/-- The number that four hexadecimal digits make. -/
def hexQuad? (a b c d : Char) : Option Nat := do
  return (((← hexValue? a) * 16 + (← hexValue? b)) * 16 + (← hexValue? c)) * 16 + (← hexValue? d)

/-- The character that a letter after a backslash stands for. -/
def escaped? (letter : Char) : Option Char :=
  match letter with
  | '"' => some '"'
  | '\\' => some '\\'
  | '/' => some '/'
  | 'b' => some '\x08'
  | 'f' => some '\x0c'
  | 'n' => some '\n'
  | 'r' => some '\r'
  | 't' => some '\t'
  | _ => none

/-- The code points of a text up to its closing quote. -/
def points : List Char → Option (List Nat × List Char)
  | '"' :: rest => some ([], rest)
  | '\\' :: 'u' :: a :: b :: c :: d :: rest => do
    let point ← hexQuad? a b c d
    let (later, rest) ← points rest
    return (point :: later, rest)
  | '\\' :: letter :: rest => do
    let c ← escaped? letter
    let (later, rest) ← points rest
    return (c.toNat :: later, rest)
  | c :: rest => do
    if c = '\\' ∨ c.toNat < 0x20 then none
    else
      let (later, rest) ← points rest
      return (c.toNat :: later, rest)
  | [] => none

/-- The characters that code points make, where halves of surrogate pairs come in pairs. -/
def characters? : List Nat → Option (List Char)
  | [] => some []
  | point :: rest =>
    if 0xD800 ≤ point ∧ point < 0xDC00 then
      match rest with
      | low :: later =>
        if 0xDC00 ≤ low ∧ low < 0xE000 then
          (characters? later).map
            (Char.ofNat (0x10000 + (point - 0xD800) * 0x400 + (low - 0xDC00)) :: ·)
        else none
      | [] => none
    else if 0xDC00 ≤ point ∧ point < 0xE000 then none
    else (characters? rest).map (Char.ofNat point :: ·)

/-- A text. -/
def text : Reader String := fun cs => do
  let (content, rest) ← points (← mark '"' cs)
  return (String.ofList (← characters? content), rest)

/-! ## Numbers -/

/-- Whether a character is a digit. -/
def isDigit (c : Char) : Bool := '0' ≤ c && c ≤ '9'

/-- Passes one digit or more. -/
def dropDigits (cs : List Char) : Option (List Char) :=
  match cs with
  | c :: rest => if isDigit c then some (rest.dropWhile isDigit) else none
  | [] => none

/-- Passes the part of a number in front of its point; it has no zero in front. -/
def dropWhole (cs : List Char) : Option (List Char) :=
  match cs with
  | '0' :: rest =>
    match rest with
    | c :: _ => if isDigit c then none else some rest
    | [] => some rest
  | cs => dropDigits cs

/-- Passes a point and digits, if there is a point. -/
def dropFraction (cs : List Char) : Option (List Char) :=
  match cs with
  | '.' :: rest => dropDigits rest
  | cs => some cs

/-- Passes an exponent, if there is one. -/
def dropExponent (cs : List Char) : Option (List Char) :=
  match cs with
  | c :: rest =>
    if c = 'e' ∨ c = 'E' then
      match rest with
      | '+' :: digits => dropDigits digits
      | '-' :: digits => dropDigits digits
      | digits => dropDigits digits
    else some cs
  | [] => some []

/-- Passes a number. -/
def dropNumber (cs : List Char) : Option (List Char) := do
  let whole := match cs with
    | '-' :: rest => rest
    | cs => cs
  dropExponent (← dropFraction (← dropWhole whole))

/-! ## Arrays and objects -/

/-- The items after the first of an array, up to its closing bracket; at most `count` of them. -/
def items {α : Type} (item : Reader α) : Nat → Reader (List α)
  | 0, _ => none
  | count + 1, cs =>
    match dropBlanks cs with
    | ']' :: rest => some ([], rest)
    | ',' :: rest => do
      let (first, rest) ← item rest
      let (later, rest) ← items item count rest
      return (first :: later, rest)
    | _ => none

/-- An array of values of one shape, of at most `bound` characters. -/
def list {α : Type} (bound : Nat) (item : Reader α) : Reader (List α) := fun cs => do
  let rest ← mark '[' cs
  match dropBlanks rest with
  | ']' :: rest => return ([], rest)
  | rest => do
    let (first, rest) ← item rest
    let (later, rest) ← items item bound rest
    return (first :: later, rest)

/-- A field of an object: its key, and its value as `value` reads it for that key. -/
def field {κ α : Type} (key : Reader κ) (value : κ → Reader α) : Reader α := fun cs => do
  let (name, rest) ← key cs
  value name (← mark ':' rest)

/-- The fields after the first of an object, up to its closing brace; at most `count` of them. -/
def fields {α : Type} (item : Reader α) : Nat → Reader (List α)
  | 0, _ => none
  | count + 1, cs =>
    match dropBlanks cs with
    | '\x7d' :: rest => some ([], rest)
    | ',' :: rest => do
      let (first, rest) ← item rest
      let (later, rest) ← fields item count rest
      return (first :: later, rest)
    | _ => none

/-- An object of at most `bound` characters whose fields are read one by one. -/
def object {α : Type} (bound : Nat) (item : Reader α) : Reader (List α) := fun cs => do
  let rest ← mark '\x7b' cs
  match dropBlanks rest with
  | '\x7d' :: rest => return ([], rest)
  | rest => do
    let (first, rest) ← item rest
    let (later, rest) ← fields item bound rest
    return (first :: later, rest)

/-! ## Any value -/

/-- Passes letters. -/
def word (letters : List Char) : Reader Unit := fun cs =>
  if letters.isPrefixOf cs then some ((), cs.drop letters.length) else none

/-- Any text, also one that is not of characters. -/
def anyText : Reader Unit := fun cs => do
  let (_, rest) ← points (← mark '"' cs)
  return ((), rest)

/-- Any value of at most `bound` characters. -/
def skip : Nat → Reader Unit
  | 0, _ => none
  | bound + 1, cs =>
    let cs := dropBlanks cs
    match cs with
    | '[' :: _ => (list bound (skip bound) cs).map fun (_, rest) => ((), rest)
    | '\x7b' :: _ =>
      (object bound (field anyText fun _ => skip bound) cs).map fun (_, rest) => ((), rest)
    | '"' :: _ => anyText cs
    | 'n' :: _ => word ['n', 'u', 'l', 'l'] cs
    | 't' :: _ => word ['t', 'r', 'u', 'e'] cs
    | 'f' :: _ => word ['f', 'a', 'l', 's', 'e'] cs
    | cs => (dropNumber cs).map fun rest => ((), rest)

/-! ## Records -/

/-- A field of a record of two values, or another. -/
inductive Part (α β : Type) where
  | first (a : α)
  | second (b : β)
  | other

/-- The two values of a record, where each occurs exactly once. -/
def ofParts {α β : Type} (parts : List (Part α β)) : Option (α × β) :=
  let firsts := parts.filterMap fun
    | .first a => some a
    | _ => none
  let seconds := parts.filterMap fun
    | .second b => some b
    | _ => none
  match firsts, seconds with
  | [a], [b] => some (a, b)
  | _, _ => none

/-- A record of two values, of at most `bound` characters: an object with two keys, each of them once, and
any further fields, or an array of the two values. -/
def record {α β : Type} (bound : Nat) (key₁ key₂ : String) (value₁ : Reader α) (value₂ : Reader β) :
    Reader (α × β) := fun cs => do
  match dropBlanks cs with
  | '[' :: rest =>
    let (a, rest) ← value₁ rest
    let (b, rest) ← value₂ (← mark ',' rest)
    return ((a, b), ← mark ']' rest)
  | rest =>
    let (parts, rest) ← object bound (field text fun key cs =>
      if key = key₁ then (value₁ cs).map fun (a, rest) => (Part.first a, rest)
      else if key = key₂ then (value₂ cs).map fun (b, rest) => (Part.second b, rest)
      else (skip bound cs).map fun (_, rest) => (Part.other, rest)) rest
    return (← ofParts parts, rest)

/-- What a whole text means to a reader, which is told the number of its characters. -/
def run {α : Type} (reader : Nat → Reader α) (text : String) : Option α := do
  let (value, rest) ← reader text.length text.toList
  if (dropBlanks rest).isEmpty then some value else none

end Reader

end JarSurvey.Text.Json
