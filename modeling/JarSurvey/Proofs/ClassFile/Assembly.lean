import JarSurvey.Proofs.ClassFile.Cursor
import JarSurvey.Proofs.ClassFile.Instruction

/-!
# Decoding undoes assembly

A `Statement` is an instruction as it is written down: an operation with the operands that belong to it.  Its bytes
are the operation code and the operands behind it (`Statement.bytes`), and a program is assembled by putting the
bytes of its statements back to back.  There is a statement for every operation code up to `0xc9`, and for no other
(`exists_opcode_iff`).

Where a switch stands decides how many bytes fill the gap before its table, which starts at a multiple of four from the
start of the code (`AlignedAt`).  What they hold is open.

Decoding the assembled program lists its statements, each with its place and the operand that leads into the constant
pool (`decode_assemble`).
-/

namespace JarSurvey.ClassFile.Assembly

open Layout (u2 u4)

/-! ## Operations -/

/-- Whether an operation has no operands. -/
def isBare (opcode : UInt8) : Bool :=
  -- constants
  opcode ≤ 0x0f ||
  -- loads from a fixed variable or an array
  (0x1a ≤ opcode && opcode ≤ 0x35) ||
  -- stores to a fixed variable or an array, the stack, arithmetic
  (0x3b ≤ opcode && opcode ≤ 0x83) ||
  -- conversions and comparisons
  (0x85 ≤ opcode && opcode ≤ 0x98) ||
  -- returns
  (0xac ≤ opcode && opcode ≤ 0xb1) ||
  -- array lengths, exceptions and monitors
  opcode == 0xbe || opcode == 0xbf || opcode == 0xc2 || opcode == 0xc3

/-- Operations on a local variable. -/
inductive VariableOperation where
  | iload | lload | fload | dload | aload
  | istore | lstore | fstore | dstore | astore
  | ret

def VariableOperation.all : List VariableOperation :=
  [iload, lload, fload, dload, aload, istore, lstore, fstore, dstore, astore, ret]

def VariableOperation.opcode : VariableOperation → UInt8
  | iload => 0x15
  | lload => 0x16
  | fload => 0x17
  | dload => 0x18
  | aload => 0x19
  | istore => 0x36
  | lstore => 0x37
  | fstore => 0x38
  | dstore => 0x39
  | astore => 0x3a
  | ret => 0xa9

/-- Jumps over a distance of two bytes. -/
inductive JumpOperation where
  | ifeq | ifne | iflt | ifge | ifgt | ifle
  | ifIcmpeq | ifIcmpne | ifIcmplt | ifIcmpge | ifIcmpgt | ifIcmple
  | ifAcmpeq | ifAcmpne
  | goto | jsr
  | ifnull | ifnonnull

def JumpOperation.all : List JumpOperation :=
  [ifeq, ifne, iflt, ifge, ifgt, ifle, ifIcmpeq, ifIcmpne, ifIcmplt, ifIcmpge, ifIcmpgt, ifIcmple, ifAcmpeq, ifAcmpne,
    goto, jsr, ifnull, ifnonnull]

def JumpOperation.opcode : JumpOperation → UInt8
  | ifeq => 0x99
  | ifne => 0x9a
  | iflt => 0x9b
  | ifge => 0x9c
  | ifgt => 0x9d
  | ifle => 0x9e
  | ifIcmpeq => 0x9f
  | ifIcmpne => 0xa0
  | ifIcmplt => 0xa1
  | ifIcmpge => 0xa2
  | ifIcmpgt => 0xa3
  | ifIcmple => 0xa4
  | ifAcmpeq => 0xa5
  | ifAcmpne => 0xa6
  | goto => 0xa7
  | jsr => 0xa8
  | ifnull => 0xc6
  | ifnonnull => 0xc7

/-- Operations with an index into the constant pool and nothing else. -/
inductive PoolOperation where
  | ldcW | ldc2W
  | getstatic | putstatic | getfield | putfield
  | invokevirtual | invokespecial | invokestatic
  | new | anewarray | checkcast | instanceof

def PoolOperation.all : List PoolOperation :=
  [ldcW, ldc2W, getstatic, putstatic, getfield, putfield, invokevirtual, invokespecial, invokestatic, new, anewarray,
    checkcast, instanceof]

def PoolOperation.opcode : PoolOperation → UInt8
  | ldcW => 0x13
  | ldc2W => 0x14
  | getstatic => 0xb2
  | putstatic => 0xb3
  | getfield => 0xb4
  | putfield => 0xb5
  | invokevirtual => 0xb6
  | invokespecial => 0xb7
  | invokestatic => 0xb8
  | new => 0xbb
  | anewarray => 0xbd
  | checkcast => 0xc0
  | instanceof => 0xc1

/-- What the index leads to. -/
def PoolOperation.operand : PoolOperation → Index → Operand
  | ldcW | ldc2W => .constant
  | getstatic | putstatic | getfield | putfield => .field
  | invokevirtual | invokespecial | invokestatic => .method
  | new | anewarray | checkcast | instanceof => .classRef

/-! ## Statements -/

/-- A jump table with a distance for each value from `low` to `high`. -/
structure RangeTable where
  low : Int32
  high : Int32
  distances : List UInt32
  low_le_high : low ≤ high
  length_distances : (distances.length : Int) = high.toInt - low.toInt + 1

/-- A jump table with a distance for each of some values. -/
structure ValueTable where
  pairs : List (UInt32 × UInt32)
  length_lt : pairs.length < 0x80000000

/-- An instruction with its operands. -/
inductive Statement where
  | bare (opcode : UInt8) (isBare : isBare opcode)
  | bipush (value : UInt8)
  | sipush (value : UInt16)
  | ldc (index : UInt8)
  | pool (operation : PoolOperation) (index : Index)
  | onVariable (operation : VariableOperation) (number : UInt8)
  | iinc (number amount : UInt8)
  | jump (operation : JumpOperation) (distance : UInt16)
  | tableswitch (gap : List UInt8) (fallback : UInt32) (table : RangeTable)
  | lookupswitch (gap : List UInt8) (fallback : UInt32) (table : ValueTable)
  /-- Behind the index stand the number of arguments and a byte that fills up. -/
  | invokeinterface (index : Index) (count filler : UInt8)
  /-- Behind the index stand two bytes that fill up. -/
  | invokedynamic (index : Index) (filler filler' : UInt8)
  | newarray (type : UInt8)
  | wideOnVariable (operation : VariableOperation) (number : UInt16)
  | wideIinc (number amount : UInt16)
  | multianewarray (index : Index) (dimensions : UInt8)
  | gotoW (distance : UInt32)
  | jsrW (distance : UInt32)

namespace Statement

def opcode : Statement → UInt8
  | bare opcode _ => opcode
  | bipush _ => 0x10
  | sipush _ => 0x11
  | ldc _ => 0x12
  | pool operation _ => operation.opcode
  | onVariable operation _ => operation.opcode
  | iinc _ _ => 0x84
  | jump operation _ => operation.opcode
  | tableswitch _ _ _ => 0xaa
  | lookupswitch _ _ _ => 0xab
  | invokeinterface _ _ _ => 0xb9
  | invokedynamic _ _ _ => 0xba
  | newarray _ => 0xbc
  | wideOnVariable _ _ | wideIinc _ _ => 0xc4
  | multianewarray _ _ => 0xc5
  | gotoW _ => 0xc8
  | jsrW _ => 0xc9

/-- The bytes behind the operation code. -/
def arguments : Statement → List UInt8
  | bare _ _ => []
  | bipush value => [value]
  | sipush value => u2 value.toNat
  | ldc index => [index]
  | pool _ index => u2 index.toNat
  | onVariable _ number => [number]
  | iinc number amount => [number, amount]
  | jump _ distance => u2 distance.toNat
  | tableswitch gap fallback table =>
    gap ++ u4 fallback.toNat ++ u4 table.low.toUInt32.toNat ++ u4 table.high.toUInt32.toNat ++
      table.distances.flatMap fun distance => u4 distance.toNat
  | lookupswitch gap fallback table =>
    gap ++ u4 fallback.toNat ++ u4 table.pairs.length ++
      table.pairs.flatMap fun pair => u4 pair.1.toNat ++ u4 pair.2.toNat
  | invokeinterface index count filler => u2 index.toNat ++ [count, filler]
  | invokedynamic index filler filler' => u2 index.toNat ++ [filler, filler']
  | newarray type => [type]
  | wideOnVariable operation number => operation.opcode :: u2 number.toNat
  | wideIinc number amount => 0x84 :: (u2 number.toNat ++ u2 amount.toNat)
  | multianewarray index dimensions => u2 index.toNat ++ [dimensions]
  | gotoW distance | jsrW distance => u4 distance.toNat

/-- The operand that leads into the constant pool. -/
def operand : Statement → Operand
  | ldc index => .constant (UInt16.ofNat index.toNat)
  | pool operation index => operation.operand index
  | invokeinterface index _ _ => .method index
  | invokedynamic index _ _ => .callSite index
  | multianewarray index dimensions => .multiArray index dimensions
  | _ => .none

def bytes (statement : Statement) : List UInt8 :=
  statement.opcode :: statement.arguments

/-- The gap before the table of a switch is shorter than four bytes, and the table starts at a multiple of four. -/
def AlignedAt (offset : Nat) : Statement → Prop
  | tableswitch gap _ _ | lookupswitch gap _ _ => gap.length < 4 ∧ 4 ∣ offset + 1 + gap.length
  | _ => True

end Statement

/-- The bytes of the statements back to back. -/
def assemble (program : List Statement) : List UInt8 :=
  program.flatMap Statement.bytes

/-- Every switch of the program is aligned where it stands. -/
def Aligned : Nat → List Statement → Prop
  | _, [] => True
  | offset, statement :: program =>
    statement.AlignedAt offset ∧ Aligned (offset + statement.bytes.length) program

/-- The statements of the program with their places. -/
def listing : Nat → List Statement → List Instruction
  | _, [] => []
  | offset, statement :: program =>
    ⟨offset, statement.opcode, statement.operand⟩ :: listing (offset + statement.bytes.length) program

/-! ## Decoding a statement -/

/-- Whether the instruction is this long, without an index. -/
def isPlain (length : Nat) : Shape → Bool
  | .plain found => found == length
  | _ => false

lemma operands_of_isBare {opcode : UInt8} (h : isBare opcode) (offset : Nat) (rest : List UInt8) :
    Instruction.operands offset opcode rest = .ok (.none, 1) := by
  have htable : ∀ opcode, isBare opcode → (Shape.of? opcode).any (isPlain 1) := forall_byte (by decide +kernel)
  have hplain := htable opcode h
  cases hshape : Shape.of? opcode with
  | none => simp [hshape] at hplain
  | some shape =>
      rw [hshape] at hplain
      cases shape <;> simp [isPlain] at hplain
      simp [Instruction.operands, hshape, hplain]

lemma length_u4 (n : Nat) : (u4 n).length = 4 := rfl

/-- A number of four bytes is found where it stands. -/
lemma wordAt_u4 (offset : Nat) (front rest : List UInt8) (word : UInt32) :
    Instruction.wordAt offset (front ++ (u4 word.toNat ++ rest)) front.length = .ok word.toInt32.toInt := by
  have hbytes : (front ++ (u4 word.toNat ++ rest)).drop front.length =
      UInt8.ofNat (word.toNat / 0x10000 / 0x100) :: UInt8.ofNat (word.toNat / 0x10000) ::
        UInt8.ofNat (word.toNat / 0x100) :: UInt8.ofNat word.toNat :: rest := by
    rw [List.drop_left]
    rfl
  rw [Instruction.wordAt, hbytes]
  simp only [Reader.word32_bytes]

/-- The gap is as long as the padding that is passed over. -/
lemma length_gap {offset : Nat} {gap : List UInt8} (hlt : gap.length < 4) (hdvd : 4 ∣ offset + 1 + gap.length) :
    gap.length = Instruction.padding offset := by
  rw [Instruction.padding]
  omega

lemma operands_tableswitch {offset : Nat} {gap : List UInt8} {fallback : UInt32} {table : RangeTable}
    (h : (Statement.tableswitch gap fallback table).AlignedAt offset) (rest : List UInt8) :
    Instruction.operands offset 0xaa ((Statement.tableswitch gap fallback table).arguments ++ rest) =
      .ok (.none, (Statement.tableswitch gap fallback table).arguments.length + 1) := by
  have hgap := length_gap h.1 h.2
  have hshape : Shape.of? 0xaa = some .tableSwitch := rfl
  have hlow := wordAt_u4 (offset + 1) (gap ++ u4 fallback.toNat)
    (u4 table.high.toUInt32.toNat ++ (table.distances.flatMap (fun distance => u4 distance.toNat) ++ rest))
    table.low.toUInt32
  have hhigh := wordAt_u4 (offset + 1) (gap ++ u4 fallback.toNat ++ u4 table.low.toUInt32.toNat)
    (table.distances.flatMap (fun distance => u4 distance.toNat) ++ rest) table.high.toUInt32
  simp only [List.append_assoc, List.length_append, length_u4, hgap, Int32.toInt32_toUInt32] at hlow hhigh
  have hrange : ¬ table.high.toInt < table.low.toInt := not_lt.mpr (Int32.le_iff_toInt_le.mp table.low_le_high)
  have hlength : (Statement.tableswitch gap fallback table).arguments.length + 1 =
      1 + Instruction.padding offset + 12 + (table.high.toInt - table.low.toInt + 1).toNat * 4 := by
    rw [← table.length_distances]
    simp only [Statement.arguments, List.length_append, hgap, length_u4, List.length_flatMap, List.map_const',
      List.sum_replicate, smul_eq_mul, Int.toNat_natCast]
    omega
  rw [hlength]
  simp only [Instruction.operands, hshape, Statement.arguments, List.append_assoc]
  refine bind_eq_ok_iff.mpr ⟨_, hlow, bind_eq_ok_iff.mpr ⟨_, hhigh, ?_⟩⟩
  rw [if_neg hrange]
  rfl

lemma operands_lookupswitch {offset : Nat} {gap : List UInt8} {fallback : UInt32} {table : ValueTable}
    (h : (Statement.lookupswitch gap fallback table).AlignedAt offset) (rest : List UInt8) :
    Instruction.operands offset 0xab ((Statement.lookupswitch gap fallback table).arguments ++ rest) =
      .ok (.none, (Statement.lookupswitch gap fallback table).arguments.length + 1) := by
  have hgap := length_gap h.1 h.2
  have hshape : Shape.of? 0xab = some .lookupSwitch := rfl
  have hlt := table.length_lt
  have hpairs := wordAt_u4 (offset + 1) (gap ++ u4 fallback.toNat)
    (table.pairs.flatMap (fun pair => u4 pair.1.toNat ++ u4 pair.2.toNat) ++ rest)
    (UInt32.ofNat table.pairs.length)
  rw [UInt32.toNat_ofNat_of_lt' (show table.pairs.length < 4294967296 by omega), UInt32.toInt32_ofNat',
    Int32.toInt_ofNat_of_lt hlt] at hpairs
  simp only [List.append_assoc, List.length_append, length_u4, hgap] at hpairs
  have hlength : (Statement.lookupswitch gap fallback table).arguments.length + 1 =
      1 + Instruction.padding offset + 8 + (table.pairs.length : Int).toNat * 8 := by
    simp only [Statement.arguments, List.length_append, hgap, length_u4, List.length_flatMap, List.map_const',
      List.sum_replicate, smul_eq_mul, Int.toNat_natCast]
    omega
  rw [hlength]
  simp only [Instruction.operands, hshape, Statement.arguments, List.append_assoc]
  refine bind_eq_ok_iff.mpr ⟨_, hpairs, ?_⟩
  rw [if_neg (by omega)]
  rfl

lemma exists_u2 (n : UInt16) : ∃ a b, u2 n.toNat = [a, b] ∧ Reader.word16 a b = n :=
  ⟨_, _, rfl, Reader.word16_bytes n⟩

/-- **A statement is decoded as what it is**, whatever follows it. -/
lemma operands_statement {offset : Nat} {statement : Statement} (h : statement.AlignedAt offset) (rest : List UInt8) :
    Instruction.operands offset statement.opcode (statement.arguments ++ rest) =
      .ok (statement.operand, statement.arguments.length + 1) := by
  cases statement with
  | bare opcode hbare => exact operands_of_isBare hbare offset _
  | bipush value | newarray type => rfl
  | sipush value => rfl
  | ldc index => rfl
  | iinc number amount | wideIinc number amount => rfl
  | gotoW distance | jsrW distance => rfl
  | onVariable operation number | wideOnVariable operation number => cases operation <;> rfl
  | jump operation distance => cases operation <;> rfl
  | pool operation index =>
      obtain ⟨a, b, hbytes, rfl⟩ := exists_u2 index
      rw [Statement.arguments, hbytes]
      cases operation <;> rfl
  | invokeinterface index first second | invokedynamic index first second =>
      obtain ⟨a, b, hbytes, rfl⟩ := exists_u2 index
      rw [Statement.arguments, hbytes]
      rfl
  | multianewarray index dimensions =>
      obtain ⟨a, b, hbytes, rfl⟩ := exists_u2 index
      rw [Statement.arguments, hbytes]
      rfl
  | tableswitch gap fallback table => exact operands_tableswitch h rest
  | lookupswitch gap fallback table => exact operands_lookupswitch h rest

/-! ## Decoding a program -/

/-- A statement for each operation that has operands. -/
def withOperands : List Statement :=
  List.append
    [.bipush 0, .sipush 0, .ldc 0, .iinc 0 0, .tableswitch [] 0 ⟨0, 0, [0], by decide, by decide⟩,
      .lookupswitch [] 0 ⟨[], by decide⟩, .invokeinterface 0 0 0, .invokedynamic 0 0 0, .newarray 0, .wideIinc 0 0,
      .multianewarray 0 0, .gotoW 0, .jsrW 0]
    (PoolOperation.all.map (.pool · 0) ++ VariableOperation.all.map (.onVariable · 0) ++
      JumpOperation.all.map (.jump · 0))

/-- There is a statement for every operation code up to `0xc9`, and for no other. -/
lemma exists_opcode_iff (opcode : UInt8) : (∃ statement : Statement, statement.opcode = opcode) ↔ opcode ≤ 0xc9 := by
  constructor
  · rintro ⟨statement, rfl⟩
    cases statement with
    | bare opcode hbare =>
        have htable : ∀ opcode, isBare opcode → opcode ≤ 0xc9 := forall_byte (by decide +kernel)
        exact htable opcode hbare
    | pool operation | onVariable operation | jump operation =>
        change operation.opcode ≤ 0xc9
        cases operation <;> decide
    | _ => simp [Statement.opcode]
  · intro h
    have htable : ∀ opcode : UInt8, opcode ≤ 0xc9 →
        isBare opcode ∨ opcode ∈ withOperands.map Statement.opcode := forall_byte (by decide +kernel)
    rcases htable opcode h with hbare | hmem
    · exact ⟨.bare opcode hbare, rfl⟩
    · obtain ⟨statement, -, hopcode⟩ := List.mem_map.mp hmem
      exact ⟨statement, hopcode⟩

lemma decodeFrom_assemble {offset : Nat} {program : List Statement} (h : Aligned offset program) :
    Instruction.decodeFrom offset 0 (assemble program) = (listing offset program, none) := by
  induction program generalizing offset with
  | nil => rfl
  | cons statement program ih =>
      have hbytes : assemble (statement :: program) =
          statement.opcode :: (statement.arguments ++ assemble program) := rfl
      have hlength : statement.arguments.length ≤ (statement.arguments ++ assemble program).length := by
        simp
      have hlater : Instruction.decodeFrom (offset + (statement.arguments.length + 1)) 0 (assemble program) =
          (listing (offset + statement.bytes.length) program, none) := ih h.2
      rw [hbytes, Instruction.decodeFrom_cons (operands_statement h.1 _) hlength, List.drop_left, hlater]
      rfl

/-- **Decoding undoes assembly.**  There is a statement for every operation code up to `0xc9`, and decoding any
program, assembled from the start of the code with its switches aligned, lists exactly its statements: each with its
place, its operation code and its operand, and nothing fails. -/
theorem decode_assemble :
    (∀ opcode : UInt8, (∃ statement : Statement, statement.opcode = opcode) ↔ opcode ≤ 0xc9) ∧
    ∀ program : List Statement, Aligned 0 program →
      Instruction.decode (assemble program) = (listing 0 program, none) :=
  ⟨exists_opcode_iff, fun _ => decodeFrom_assemble⟩

/-- A program with both switches, each behind a gap of its own length, and wide operands. -/
def switchProgram : List Statement :=
  [.bare 0x1b (by decide), .tableswitch [0xde, 0xad] 39 ⟨-1, 1, [39, 40, 41], by decide, by decide⟩,
    .lookupswitch [1, 2, 3] 20 ⟨[(5, 16)], by decide⟩, .wideIinc 256 1, .wideOnVariable .iload 256, .ldc 5,
    .multianewarray 12 2, .invokedynamic 9 0 0]

theorem decode_assemble_switches : Aligned 0 switchProgram ∧
    Instruction.decode (assemble switchProgram) =
      ([⟨0, 0x1b, .none⟩, ⟨1, 0xaa, .none⟩, ⟨28, 0xab, .none⟩, ⟨48, 0xc4, .none⟩, ⟨54, 0xc4, .none⟩,
        ⟨58, 0x12, .constant 5⟩, ⟨60, 0xc5, .multiArray 12 2⟩, ⟨64, 0xba, .callSite 9⟩], none) := by
  have haligned : Aligned 0 switchProgram := by
    refine ⟨trivial, ⟨?_, ?_⟩, ⟨?_, ?_⟩, trivial, trivial, trivial, trivial, trivial, trivial⟩ <;> decide
  exact ⟨haligned, decode_assemble.2 switchProgram haligned⟩

end JarSurvey.ClassFile.Assembly
