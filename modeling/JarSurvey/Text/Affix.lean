/-!
# Beginnings and ends of texts

Names are told apart by how they begin and end: a reference belongs to a namespace when it begins
with the name of the namespace, an entry is a class when its name ends in `.class`.  Both tests are
made on the characters, so that they mean the prefix and the suffix order of lists
(`startsWith_iff`, `endsWith_iff`).
-/

namespace JarSurvey.Text

/-- Whether `text` begins with `start`, character by character. -/
def startsWith (text start : String) : Bool :=
  start.toList.isPrefixOf text.toList

theorem startsWith_iff {text start : String} :
    startsWith text start = true ↔ start.toList <+: text.toList := by
  simp [startsWith]

/-- Whether `text` ends with `tail`, character by character. -/
def endsWith (text tail : String) : Bool :=
  tail.toList.isSuffixOf text.toList

theorem endsWith_iff {text tail : String} :
    endsWith text tail = true ↔ tail.toList <:+ text.toList := by
  simp [endsWith]

end JarSurvey.Text
