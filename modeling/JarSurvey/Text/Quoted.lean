import JarSurvey.Text.Hex
import JarSurvey.Text.Shapeless

/-!
# Quoted texts

A text in double quotes, in which every character can be seen: quotes and backslashes are escaped, and so
are characters that have no shape of their own (`Shapeless`).
-/

namespace JarSurvey.Text.Quoted

/-- The hexadecimal digits of a number, without leading zeros. -/
def hexDigits (n : Nat) : List Char :=
  match (Hex.digits 6 n).dropWhile (· = '0') with
  | [] => ['0']
  | digits => digits

/-- How a character is written inside of quotes. -/
def encodeChar (c : Char) : List Char :=
  if c = Char.ofNat 0 then ['\\', '0']
  else if c = '\t' then ['\\', 't']
  else if c = '\r' then ['\\', 'r']
  else if c = '\n' then ['\\', 'n']
  else if c = '"' then ['\\', '"']
  else if c = '\\' then ['\\', '\\']
  else if Shapeless.isShapeless c then '\\' :: 'u' :: '\x7b' :: (hexDigits c.toNat ++ ['\x7d'])
  else [c]

/-- The text in quotes. -/
def encode (text : String) : String :=
  String.ofList ('"' :: (text.toList.flatMap encodeChar ++ ['"']))

end JarSurvey.Text.Quoted
