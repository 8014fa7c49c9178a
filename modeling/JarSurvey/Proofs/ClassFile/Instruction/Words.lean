import JarSurvey.Proofs.ClassFile.Instruction

/-!
# Words are wide enough

`Instruction.readAt` computes with numbers of any size.  Here it is once more with words of 64 bits, with every sum,
product, difference and range of bytes on the way, each of which has to be in range: lengths and places are unsigned,
the bounds of a range table and their distance are signed.

A switch may claim to have `2 ^ 32` distances, or `2 ^ 31` pairs of eight bytes, whether the code holds them or not.
Still **no number leaves the range** (`readAt_eq`), as long as the code itself is shorter than `2 ^ 63` bytes, which
holds of everything in memory.
-/

namespace JarSurvey.ClassFile.Instruction.Words

/-- A computation with words of 64 bits, which gives nothing at all if a number leaves the range. -/
abbrev Checked := ExceptT FormatError Option

section Numbers

variable {α : Type}

/-- A result that was computed without leaving the range. -/
def settled (result : Except FormatError α) : Checked α := ExceptT.mk (some result)

def outOfRange : Checked α := ExceptT.mk none

/-- An unsigned number. -/
def unsigned (n : Nat) : Checked Nat :=
  if n < 0x10000000000000000 then pure n else outOfRange

/-- A signed number. -/
def signed (n : Int) : Checked Int :=
  if -0x8000000000000000 ≤ n ∧ n < 0x8000000000000000 then pure n else outOfRange

/-- The difference of unsigned numbers. -/
def difference (a b : Nat) : Checked Nat :=
  if b ≤ a then pure (a - b) else outOfRange

end Numbers

/-! ## Reading with words -/

def byteAt (code : List UInt8) (position : Nat) : Checked UInt8 :=
  match code[position]? with
  | some byte => pure byte
  | none => throw (.truncated position)

def indexAt (code : List UInt8) (position : Nat) : Checked Index := do
  let next ← unsigned (position + 1)
  match code[position]?, code[next]? with
  | some a, some b => pure (Reader.word16 a b)
  | _, _ => throw (.truncated position)

def wordAt (code : List UInt8) (position : Nat) : Checked Int := do
  let stop ← unsigned (position + 4)
  match (code.take stop).drop position with
  | [a, b, c, d] => pure (Reader.word32 a b c d).toInt32.toInt
  | _ => throw (.truncated position)

/-- Where the table of a switch starts. -/
def tableStart (offset : Nat) : Checked Nat := do
  let next ← unsigned (offset + 1)
  let missing ← difference 4 (next % 4)
  unsigned (next + missing % 4)

/-- The length of a range table with its switch. -/
def rangeLength (code : List UInt8) (offset : Nat) : Checked Nat := do
  let start ← tableStart offset
  let low ← wordAt code (← unsigned (start + 4))
  let high ← wordAt code (← unsigned (start + 8))
  if high < low then throw (.truncated offset)
  else
    let distance ← signed (high - low)
    let count ← signed (distance + 1)
    let table ← unsigned (count.toNat * 4)
    let head ← unsigned (start + 12)
    let stop ← unsigned (head + table)
    difference stop offset

/-- The length of a value table with its switch. -/
def valueLength (code : List UInt8) (offset : Nat) : Checked Nat := do
  let start ← tableStart offset
  let pairs ← wordAt code (← unsigned (start + 4))
  if pairs < 0 then throw (.truncated offset)
  else
    let table ← unsigned (pairs.toNat * 8)
    let head ← unsigned (start + 8)
    let stop ← unsigned (head + table)
    difference stop offset

def operandsAt (code : List UInt8) (offset : Nat) (opcode : UInt8) : Checked (Operand × Nat) :=
  match Shape.of? opcode with
  | none => throw (.unknownOpcode opcode offset)
  | some (.plain length) => pure (.none, length)
  | some .shortConstant => do
    let index ← byteAt code (← unsigned (offset + 1))
    pure (.constant (UInt16.ofNat index.toNat), 2)
  | some (.indexed operand length) => do
    let index ← indexAt code (← unsigned (offset + 1))
    pure (operand index, length)
  | some .multiArray => do
    let index ← indexAt code (← unsigned (offset + 1))
    let dimensions ← byteAt code (← unsigned (offset + 3))
    pure (.multiArray index dimensions, 4)
  | some .wide => do
    let widened ← byteAt code (← unsigned (offset + 1))
    pure (.none, if widened.toNat = 0x84 then 6 else 4)
  | some .tableSwitch => do
    let length ← rangeLength code offset
    pure (.none, length)
  | some .lookupSwitch => do
    let length ← valueLength code offset
    pure (.none, length)

/-- Decodes the instruction at a place in the code, and its length. -/
def readAt (code : List UInt8) (offset : Nat) : Checked (Instruction × Nat) := do
  let opcode ← byteAt code offset
  let found ← operandsAt code offset opcode
  let stop ← unsigned (offset + found.2)
  if stop ≤ code.length then pure (⟨offset, opcode, found.1⟩, found.2) else throw (.truncated offset)

/-! ## No number leaves the range -/

section Bind

variable {α β : Type}

lemma settled_ok_bind (a : α) (f : α → Checked β) : settled (.ok a) >>= f = f a := rfl

lemma unsigned_bind {n : Nat} (h : n < 0x10000000000000000) (f : Nat → Checked β) : unsigned n >>= f = f n := by
  rw [unsigned, if_pos h]
  rfl

lemma signed_bind {n : Int} (h : -0x8000000000000000 ≤ n ∧ n < 0x8000000000000000) (f : Int → Checked β) :
    signed n >>= f = f n := by
  rw [signed, if_pos h]
  rfl

lemma difference_bind {a b : Nat} (h : b ≤ a) (f : Nat → Checked β) : difference a b >>= f = f (a - b) := by
  rw [difference, if_pos h]
  rfl

end Bind

variable {code : List UInt8} {offset : Nat}

section Places

variable {position : Nat} {a b : UInt8}

lemma byteAt_of_some (h : code[position]? = some a) : byteAt code position = settled (.ok a) := by
  rw [byteAt, h]
  rfl

lemma byteAt_of_none (h : code[position]? = none) : byteAt code position = settled (.error (.truncated position)) := by
  rw [byteAt, h]
  rfl

lemma indexAt_of_some (hposition : position < 0xffffffffffffffff) (ha : code[position]? = some a)
    (hb : code[position + 1]? = some b) : indexAt code position = settled (.ok (Reader.word16 a b)) := by
  rw [indexAt, unsigned_bind (by omega), ha, hb]
  rfl

lemma indexAt_of_none (hposition : position < 0xffffffffffffffff) (hb : code[position + 1]? = none) :
    indexAt code position = settled (.error (.truncated position)) := by
  rw [indexAt, unsigned_bind (by omega), hb]
  cases code[position]? <;> rfl

/-- A word is found in the rest of the code as it is in the code. -/
lemma wordAt_eq {start : Nat} (h : offset + start < 0xfffffffffffffff0) :
    wordAt code (offset + start) = settled (Instruction.wordAt offset (code.drop offset) start) := by
  have hwindow : (code.take (offset + start + 4)).drop (offset + start) = ((code.drop offset).drop start).take 4 := by
    rw [List.drop_take, List.drop_drop, Nat.add_sub_cancel_left]
  rw [wordAt, unsigned_bind (by omega), hwindow, Instruction.wordAt]
  obtain _ | ⟨a, _ | ⟨b, _ | ⟨c, _ | ⟨d, later⟩⟩⟩⟩ := (code.drop offset).drop start <;> rfl

end Places

lemma tableStart_bind {β : Type} (h : offset < 0x8000000000000000) (f : Nat → Checked β) :
    tableStart offset >>= f = f (offset + 1 + padding offset) := by
  rw [tableStart, bind_assoc, unsigned_bind (by omega), bind_assoc, difference_bind (by omega),
    unsigned_bind (by omega)]
  rfl

lemma getElem?_of_drop {start : Nat} {rest : List UInt8} (h : code.drop start = rest) (i : Nat) :
    code[start + i]? = rest[i]? := by
  rw [← h, List.getElem?_drop]

lemma operandsAt_tableSwitch (h : offset < 0x8000000000000000) {opcode : UInt8}
    (hshape : Shape.of? opcode = some .tableSwitch) :
    operandsAt code offset opcode = settled (operands offset opcode (code.drop (offset + 1))) := by
  have hpadding := padding_lt offset
  have hlow : wordAt code (offset + 1 + padding offset + 4) =
      settled (Instruction.wordAt (offset + 1) (code.drop (offset + 1)) (padding offset + 4)) := by
    rw [Nat.add_assoc (offset + 1), wordAt_eq (by omega)]
  have hhigh : wordAt code (offset + 1 + padding offset + 8) =
      settled (Instruction.wordAt (offset + 1) (code.drop (offset + 1)) (padding offset + 8)) := by
    rw [Nat.add_assoc (offset + 1), wordAt_eq (by omega)]
  simp only [operandsAt, operands, hshape, rangeLength, bind_assoc]
  rw [tableStart_bind h, unsigned_bind (by omega), hlow]
  cases hreadLow : Instruction.wordAt (offset + 1) (code.drop (offset + 1)) (padding offset + 4) with
  | error error => rfl
  | ok low =>
      rw [settled_ok_bind, unsigned_bind (by omega), hhigh]
      cases hreadHigh : Instruction.wordAt (offset + 1) (code.drop (offset + 1)) (padding offset + 8) with
      | error error => rfl
      | ok high =>
          have hlowBounds := wordAt_bounds hreadLow
          have hhighBounds := wordAt_bounds hreadHigh
          rw [settled_ok_bind]
          change _ = settled (if high < low then _ else _)
          by_cases hlt : high < low
          · rw [if_pos hlt, if_pos hlt]
            rfl
          · have hlength : offset + 1 + padding offset + 12 + (high - low + 1).toNat * 4 - offset =
                1 + padding offset + 12 + (high - low + 1).toNat * 4 := by
              omega
            rw [if_neg hlt, if_neg hlt]
            simp (disch := omega) only [signed_bind, unsigned_bind, difference_bind, hlength]
            rfl

lemma operandsAt_lookupSwitch (h : offset < 0x8000000000000000) {opcode : UInt8}
    (hshape : Shape.of? opcode = some .lookupSwitch) :
    operandsAt code offset opcode = settled (operands offset opcode (code.drop (offset + 1))) := by
  have hpadding := padding_lt offset
  have hpairs : wordAt code (offset + 1 + padding offset + 4) =
      settled (Instruction.wordAt (offset + 1) (code.drop (offset + 1)) (padding offset + 4)) := by
    rw [Nat.add_assoc (offset + 1), wordAt_eq (by omega)]
  simp only [operandsAt, operands, hshape, valueLength, bind_assoc]
  rw [tableStart_bind h, unsigned_bind (by omega), hpairs]
  cases hread : Instruction.wordAt (offset + 1) (code.drop (offset + 1)) (padding offset + 4) with
  | error error => rfl
  | ok pairs =>
      have hbounds := wordAt_bounds hread
      rw [settled_ok_bind]
      change _ = settled (if pairs < 0 then _ else _)
      by_cases hlt : pairs < 0
      · rw [if_pos hlt, if_pos hlt]
        rfl
      · have hlength : offset + 1 + padding offset + 8 + pairs.toNat * 8 - offset =
            1 + padding offset + 8 + pairs.toNat * 8 := by
          omega
        rw [if_neg hlt, if_neg hlt]
        simp (disch := omega) only [unsigned_bind, difference_bind, hlength]
        rfl

/-- The operand and the length come out as without a bound on numbers. -/
lemma operandsAt_eq (h : offset < 0x8000000000000000) (opcode : UInt8) :
    operandsAt code offset opcode = settled (operands offset opcode (code.drop (offset + 1))) := by
  cases hshape : Shape.of? opcode with
  | none =>
      simp only [operandsAt, operands, hshape]
      rfl
  | some shape =>
      cases shape with
      | plain length =>
          simp only [operandsAt, operands, hshape]
          rfl
      | shortConstant | wide =>
          simp (disch := omega) only [operandsAt, operands, hshape, unsigned_bind]
          rcases hrest : code.drop (offset + 1) with _ | ⟨a, rest⟩
          · rw [byteAt_of_none (getElem?_of_drop hrest 0)]
            rfl
          · rw [byteAt_of_some (getElem?_of_drop hrest 0)]
            rfl
      | indexed operand length =>
          simp (disch := omega) only [operandsAt, operands, hshape, unsigned_bind]
          rcases hrest : code.drop (offset + 1) with _ | ⟨a, _ | ⟨b, rest⟩⟩
          · rw [indexAt_of_none (by omega) (getElem?_of_drop hrest 1)]
            rfl
          · rw [indexAt_of_none (by omega) (getElem?_of_drop hrest 1)]
            rfl
          · rw [indexAt_of_some (by omega) (getElem?_of_drop hrest 0) (getElem?_of_drop hrest 1)]
            rfl
      | multiArray =>
          simp (disch := omega) only [operandsAt, operands, hshape, unsigned_bind]
          rcases hrest : code.drop (offset + 1) with _ | ⟨a, _ | ⟨b, rest⟩⟩
          · rw [indexAt_of_none (by omega) (getElem?_of_drop hrest 1)]
            rfl
          · rw [indexAt_of_none (by omega) (getElem?_of_drop hrest 1)]
            rfl
          · rw [indexAt_of_some (by omega) (getElem?_of_drop hrest 0) (getElem?_of_drop hrest 1)]
            -- The number of dimensions stands behind the index.
            obtain _ | ⟨c, rest⟩ := rest
            · rw [settled_ok_bind, byteAt_of_none (getElem?_of_drop hrest 2)]
              rfl
            · rw [settled_ok_bind, byteAt_of_some (getElem?_of_drop hrest 2)]
              rfl
      | tableSwitch => exact operandsAt_tableSwitch h hshape
      | lookupSwitch => exact operandsAt_lookupSwitch h hshape

/-- **No number leaves the range**, and what is computed is the same. -/
lemma readAt_eq (hlength : code.length < 0x8000000000000000) (h : offset < code.length) :
    readAt code offset = settled (Instruction.readAt code offset) := by
  rw [readAt, readAt_of_lt h, byteAt_of_some (List.getElem?_eq_getElem h), settled_ok_bind, operandsAt_eq (by omega)]
  cases hoperands : operands offset code[offset] (code.drop (offset + 1)) with
  | error error => rfl
  | ok found =>
      obtain ⟨shape, hshape⟩ := exists_shape hoperands
      have hbounds := (bounds_of_operands hshape hoperands).2
      rw [settled_ok_bind, unsigned_bind (by omega)]
      change _ = settled (if offset + found.2 ≤ code.length then _ else _)
      split_ifs <;> rfl

end JarSurvey.ClassFile.Instruction.Words
