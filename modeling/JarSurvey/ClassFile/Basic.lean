import JarSurvey.ClassFile.Attribute.Reader

/-!
# Class files

`ClassFile` is a class as its file gives it, with names resolved through the constant pool, and
`ClassFile.parse` reads the bytes of a whole file.
-/

namespace JarSurvey

namespace ClassFile

/-- A field or a method. -/
structure Member where
  access : UInt16
  name : String
  descriptor : String
  attributes : List Attribute

/-- The generic signature of a member: its first signature attribute. -/
def Member.signature (member : Member) : Option String :=
  Attribute.firstSignature member.attributes

end ClassFile

open ClassFile in
/-- A class as its file gives it. -/
structure ClassFile where
  minor : UInt16
  major : UInt16
  pool : ConstantPool
  access : UInt16
  name : String
  superclass : Option String
  interfaces : List String
  fields : List Member
  methods : List Member
  attributes : List Attribute

namespace ClassFile

/-- The generic signature of the class: its first signature attribute. -/
def signature (file : ClassFile) : Option String :=
  Attribute.firstSignature file.attributes

/-- The bootstrap methods of the class: its first table of them. -/
def bootstrapMethods (file : ClassFile) : List BootstrapMethod :=
  Attribute.firstBootstrapMethods file.attributes

/-- The number with which every class file begins. -/
def magic : UInt32 := 0xCAFEBABE

namespace Reader

/-- Takes the number with which a class file begins. -/
def header : Reader Unit := do
  let found ← u32
  if found ≠ magic then throw (.badMagic found)

/-- Takes a field or a method. -/
def member (pool : ConstantPool) : Reader Member := do
  let access ← u16
  let name ← utf8 pool
  let descriptor ← utf8 pool
  let attributes ← attributes pool
  return ⟨access, name, descriptor, attributes⟩

/-- Takes a class. -/
def classFile : Reader ClassFile := do
  header
  let minor ← u16
  let major ← u16
  let pool ← ConstantPool.read
  let access ← u16
  let name ← className pool
  let superclass ← className? pool
  let interfaces ← counted (className pool)
  let fields ← counted (member pool)
  let methods ← counted (member pool)
  let attributes ← attributes pool
  return ⟨minor, major, pool, access, name, superclass, interfaces, fields, methods, attributes⟩

end Reader

/-- Reads the bytes of a whole class file. -/
def parse (bytes : List UInt8) : Except FormatError ClassFile := do
  let (file, cursor) ← Reader.classFile (Cursor.start bytes)
  if cursor.atEnd then return file else throw .trailingBytes

end ClassFile

end JarSurvey
