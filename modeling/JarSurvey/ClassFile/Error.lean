import JarSurvey.Descriptor.Parser
import JarSurvey.Text.Hex

/-!
# Why a class cannot be read

`FormatError` lists the causes for which a class is refused, and `FormatError.message` words them.
-/

namespace JarSurvey.ClassFile

/-- What was looked for at an index of the constant pool. -/
inductive Expected where
  | utf8
  | classRef
  | nameAndType
  | member
  | methodHandle
  | invokeDynamic
  deriving DecidableEq, Repr

/-- What messages call the kind of constant. -/
def Expected.label : Expected → String
  | utf8 => "Utf8"
  | classRef => "Class"
  | nameAndType => "NameAndType"
  | member => "member reference"
  | methodHandle => "MethodHandle"
  | invokeDynamic => "InvokeDynamic"

/-- The causes for which a class is refused. -/
inductive FormatError where
  /-- The first four bytes are not those of a class. -/
  | badMagic (magic : UInt32)
  /-- The data ends where more is needed. -/
  | truncated (offset : Nat)
  /-- There is no constant at the index. -/
  | badConstantIndex (index : UInt16)
  /-- The constant for slot `index` has a tag that does not exist. -/
  | unknownConstantTag (index : UInt16) (tag : UInt8)
  /-- The constant at the index is of another kind. -/
  | unexpectedConstant (index : UInt16) (expected : Expected)
  /-- The text constant for slot `index` cannot be decoded. -/
  | badUtf8 (index : UInt16)
  /-- A descriptor, a signature or a class name does not follow its grammar. -/
  | badSignature (malformed : Descriptor.Malformed)
  /-- No instruction has this code. -/
  | unknownOpcode (opcode : UInt8) (offset : Nat)
  /-- No annotation value has this tag. -/
  | badElementTag (tag : UInt8)
  /-- No type annotation has this target. -/
  | badTargetType (target : UInt8)
  /-- The type of the stack map frame is reserved. -/
  | badFrameType (frame : UInt8)
  /-- No verification type has this tag. -/
  | badVerificationType (tag : UInt8)
  /-- The content of the attribute is shorter than its length says. -/
  | attributeLength (name : String)
  /-- Annotation values or dynamic constants are nested beyond the limit. -/
  | nestingTooDeep
  /-- There is no bootstrap method with this number. -/
  | missingBootstrapMethod (index : UInt16)
  /-- Bytes follow the end of the class. -/
  | trailingBytes
  deriving DecidableEq, Repr

/-- The sentence that describes the cause. -/
def FormatError.message : FormatError → String
  | badMagic magic => s!"not a class file (magic {Text.Hex.prefixed 8 magic.toNat})"
  | truncated offset => s!"unexpected end of class data at offset {offset}"
  | badConstantIndex index => s!"constant pool index {index} is out of range or unusable"
  | unknownConstantTag index tag => s!"constant pool entry {index} has unknown tag {tag}"
  | unexpectedConstant index expected =>
    s!"expected {expected.label} at constant pool index {index}"
  | badUtf8 index => s!"invalid modified UTF-8 in constant pool entry {index}"
  | badSignature e => s!"malformed {e.grammar.label} `{e.text}` at offset {e.offset}"
  | unknownOpcode opcode offset =>
    s!"unknown opcode {Text.Hex.prefixed 2 opcode.toNat} at bytecode offset {offset}"
  | badElementTag tag => s!"unknown annotation element tag {Text.Hex.prefixed 2 tag.toNat}"
  | badTargetType target =>
    s!"unknown type annotation target {Text.Hex.prefixed 2 target.toNat}"
  | badFrameType frame => s!"reserved stack map frame type {frame}"
  | badVerificationType tag => s!"unknown verification type tag {tag}"
  | attributeLength name => s!"attribute `{name}` does not match its declared length"
  | nestingTooDeep => "annotation values nested too deeply"
  | missingBootstrapMethod index => s!"bootstrap method {index} is missing"
  | trailingBytes => "trailing bytes after class structure"

end JarSurvey.ClassFile
