/-!
# Code page 437

The character set in which zip files name their entries unless an entry says that its name is UTF-8.
The lower half is ASCII.
-/

namespace JarSurvey.Text.Cp437

/-- The characters of the bytes from `0x80` on. -/
def upperHalf : Array Char :=
  ("ÇüéâäàåçêëèïîìÄÅÉæÆôöòûùÿÖÜ¢£¥₧ƒ" ++
    "áíóúñÑªº¿⌐¬½¼¡«»░▒▓│┤╡╢╖╕╣║╗╝╜╛┐" ++
    "└┴┬├─┼╞╟╚╔╩╦╠═╬╧╨╤╥╙╘╒╓╫╪┘┌█▄▌▐▀" ++
    "αßΓπΣσµτΦΘΩδ∞φε∩≡±≥≤⌠⌡÷≈°∙·√ⁿ²■\u00a0").toList.toArray

/-- The character of a byte. -/
def char (byte : UInt8) : Char :=
  if byte.toNat < 0x80 then Char.ofNat byte.toNat
  else upperHalf.getD (byte.toNat - 0x80) '?'

/-- The text of some bytes. -/
def decode (bytes : List UInt8) : String :=
  String.ofList (bytes.map char)

end JarSurvey.Text.Cp437
