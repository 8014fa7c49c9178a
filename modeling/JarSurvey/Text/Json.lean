import JarSurvey.Text.Hex

/-!
# JSON values

Values of JSON whose fields have an order, and their text with one value or field to a line.
-/

namespace JarSurvey.Text.Json

/-- A value. -/
inductive Value where
  | number (n : Int)
  | text (content : String)
  | array (items : List Value)
  | object (fields : List (String × Value))

/-- How a character is written inside of a text. -/
def encodeChar (c : Char) : List Char :=
  if c = '"' then ['\\', '"']
  else if c = '\\' then ['\\', '\\']
  else if c = '\x08' then ['\\', 'b']
  else if c = '\x0c' then ['\\', 'f']
  else if c = '\n' then ['\\', 'n']
  else if c = '\r' then ['\\', 'r']
  else if c = '\t' then ['\\', 't']
  else if c.toNat < 0x20 then '\\' :: 'u' :: Hex.digits 4 c.toNat
  else [c]

/-- A text in quotes. -/
def encodeText (text : String) : String :=
  String.ofList ('"' :: (text.toList.flatMap encodeChar ++ ['"']))

namespace Value

/-- An array of texts. -/
def texts (items : List String) : Value := array (items.map text)

/-- The beginning of a line at a depth. -/
def margin (depth : Nat) : String :=
  String.ofList (List.replicate (2 * depth) ' ')

/-- Lines in brackets at a depth. -/
def bracket (opening closing : String) (depth : Nat) (lines : List String) : String :=
  if lines.isEmpty then opening ++ closing
  else
    opening ++ "\n" ++ ",\n".intercalate (lines.map (margin (depth + 1) ++ ·)) ++ "\n" ++
      margin depth ++ closing

mutual

/-- The text of a value at a depth. -/
def render (depth : Nat) : Value → String
  | number n => toString n
  | text content => encodeText content
  | array items => bracket "[" "]" depth (renderItems (depth + 1) items)
  | object fields => bracket "\x7b" "\x7d" depth (renderFields (depth + 1) fields)

/-- The texts of values at a depth. -/
def renderItems (depth : Nat) : List Value → List String
  | [] => []
  | item :: later => render depth item :: renderItems depth later

/-- The texts of fields at a depth. -/
def renderFields (depth : Nat) : List (String × Value) → List String
  | [] => []
  | (key, value) :: later => (encodeText key ++ ": " ++ render depth value) :: renderFields depth later

end

/-- The text of a value. -/
def pretty (value : Value) : String := value.render 0

end Value

end JarSurvey.Text.Json
