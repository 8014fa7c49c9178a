import JarSurvey.ClassFile.Instruction
import JarSurvey.Proofs.Except
import Mathlib.Tactic

/-!
# One instruction after the other

`Instruction.decode` walks through code with a count of bytes to pass over.  What it does is simpler to say with
places in the code:

* `readAt` — the instruction at a place, and its length;
* `Tiles` — instructions that stand back to back;
* `Ends` — how decoding ends at a place: at the end of the code, or with an instruction that cannot be read.

**Decoding finds instructions back to back from the start of the code, up to a place where it ends**
(`decode_eq_iff`).

Of the bytes behind an operation code only the first few are read (`Shape.reads`).  They are part of the instruction
(`bounds_of_operands`), and what follows them does not matter (`operands_append`).
-/

namespace JarSurvey.ClassFile

/-! ## The bytes that are read -/

/-- The number of bytes behind the operation code that are read to tell the operand and the length. -/
def Shape.reads (offset : Nat) : Shape → Nat
  | .plain _ => 0
  | .shortConstant => 1
  | .indexed _ _ => 2
  | .multiArray => 3
  | .tableSwitch => Instruction.padding offset + 12
  | .lookupSwitch => Instruction.padding offset + 8
  | .wide => 1

/-- Whether a fixed length leaves room for the operation code and for the index behind it, and is not over five. -/
def Shape.isBounded : Shape → Bool
  | .plain length => 1 ≤ length && length ≤ 5
  | .indexed _ length => 3 ≤ length && length ≤ 5
  | _ => true

/-- What holds of the numbers below 256 holds of every byte. -/
lemma forall_byte {P : UInt8 → Prop} (h : ∀ n < 256, P (UInt8.ofNat n)) (byte : UInt8) : P byte := by
  have hbyte := h byte.toNat byte.toNat_lt
  rwa [UInt8.ofNat_toNat] at hbyte

lemma Shape.isBounded_of {opcode : UInt8} {shape : Shape} (h : Shape.of? opcode = some shape) : shape.isBounded := by
  have htable : ∀ opcode, (Shape.of? opcode).all isBounded := forall_byte (by decide +kernel)
  simpa [h] using htable opcode

namespace Instruction

lemma hasAtLeast_iff {α : Type} {count : Nat} {items : List α} :
    hasAtLeast count items ↔ count ≤ items.length := by
  induction items generalizing count with
  | nil => cases count <;> simp [hasAtLeast]
  | cons item items ih => cases count <;> simp [hasAtLeast, ih]

lemma padding_lt (offset : Nat) : padding offset < 4 :=
  Nat.mod_lt _ (by decide)

section Words

variable {offset start : Nat} {bytes more : List UInt8}

lemma wordAt_of_lt (h : bytes.length < start + 4) : wordAt offset bytes start = .error (.truncated (offset + start)) := by
  have hshort : (bytes.drop start).length < 4 := by
    rw [List.length_drop]
    omega
  rw [wordAt]
  split
  · next heq =>
      rw [heq] at hshort
      simp only [List.length_cons] at hshort
      omega
  · rfl

lemma exists_drop_eq (h : start + 4 ≤ bytes.length) :
    ∃ a b c d later, bytes.drop start = a :: b :: c :: d :: later := by
  have hlong : 4 ≤ (bytes.drop start).length := by
    rw [List.length_drop]
    omega
  generalize bytes.drop start = window at hlong
  obtain _ | ⟨a, _ | ⟨b, _ | ⟨c, _ | ⟨d, later⟩⟩⟩⟩ := window
  all_goals simp at hlong
  exact ⟨a, b, c, d, later, rfl⟩

lemma wordAt_of_le (offset : Nat) (h : start + 4 ≤ bytes.length) : ∃ word, wordAt offset bytes start = .ok word := by
  obtain ⟨a, b, c, d, later, hdrop⟩ := exists_drop_eq h
  simp [wordAt, hdrop]

lemma wordAt_append (h : start + 4 ≤ bytes.length) : wordAt offset (bytes ++ more) start = wordAt offset bytes start := by
  obtain ⟨a, b, c, d, later, hdrop⟩ := exists_drop_eq h
  simp [wordAt, List.drop_append_of_le_length (show start ≤ bytes.length by omega), hdrop]

/-- A word has 32 bits. -/
lemma wordAt_bounds {word : Int} (h : wordAt offset bytes start = .ok word) :
    -0x80000000 ≤ word ∧ word < 0x80000000 := by
  rw [wordAt] at h
  split at h
  · cases h
    exact ⟨Int32.le_toInt _, Int32.toInt_lt _⟩
  · cases h

end Words

section Operands

variable {offset : Nat} {opcode : UInt8} {shape : Shape} {rest more : List UInt8}

/-- Without all bytes that are read, the code counts as cut short. -/
lemma operands_of_lt (hshape : Shape.of? opcode = some shape) (h : rest.length < shape.reads offset) :
    ∃ position, operands offset opcode rest = .error (.truncated position) := by
  cases shape with
  | plain length => exact absurd h (Nat.not_lt_zero _)
  | shortConstant | wide =>
      rw [Shape.reads, Nat.lt_one_iff, List.length_eq_zero_iff] at h
      simp [operands, hshape, h]
  | indexed operand length =>
      obtain _ | ⟨a, _ | ⟨b, rest⟩⟩ := rest
      · simp [operands, hshape]
      · simp [operands, hshape]
      · simp only [Shape.reads, List.length_cons] at h
        omega
  | multiArray =>
      obtain _ | ⟨a, _ | ⟨b, _ | ⟨c, rest⟩⟩⟩ := rest
      · simp [operands, hshape]
      · simp [operands, hshape]
      · simp [operands, hshape]
      · simp only [Shape.reads, List.length_cons] at h
        omega
  | tableSwitch =>
      rw [Shape.reads] at h
      simp only [operands, hshape]
      rw [wordAt_of_lt (show rest.length < padding offset + 8 + 4 by omega)]
      -- The lower bound may be there when the upper one is not.
      rcases lt_or_ge rest.length (padding offset + 4 + 4) with hlow | hlow
      · rw [wordAt_of_lt hlow]
        exact ⟨_, rfl⟩
      · obtain ⟨low, hword⟩ := wordAt_of_le (offset + 1) hlow
        rw [hword]
        exact ⟨_, rfl⟩
  | lookupSwitch =>
      simp only [operands, hshape]
      rw [wordAt_of_lt h]
      exact ⟨_, rfl⟩

/-- What follows the bytes that are read does not matter. -/
lemma operands_append (hshape : Shape.of? opcode = some shape) (h : shape.reads offset ≤ rest.length) :
    operands offset opcode (rest ++ more) = operands offset opcode rest := by
  cases shape with
  | plain length => simp only [operands, hshape]
  | shortConstant | wide =>
      obtain ⟨a, rest, rfl⟩ := List.exists_cons_of_length_pos h
      simp only [operands, hshape, List.cons_append]
  | indexed operand length =>
      obtain _ | ⟨a, _ | ⟨b, rest⟩⟩ := rest
      · simp [Shape.reads] at h
      · simp [Shape.reads] at h
      · simp only [operands, hshape, List.cons_append]
  | multiArray =>
      obtain _ | ⟨a, _ | ⟨b, _ | ⟨c, rest⟩⟩⟩ := rest
      · simp [Shape.reads] at h
      · simp [Shape.reads] at h
      · simp [Shape.reads] at h
      · simp only [operands, hshape, List.cons_append]
  | tableSwitch =>
      rw [Shape.reads] at h
      simp only [operands, hshape]
      rw [wordAt_append (by omega), wordAt_append (by omega)]
  | lookupSwitch =>
      rw [Shape.reads] at h
      simp only [operands, hshape]
      rw [wordAt_append (by omega)]

/-- **The bytes that are read are part of the instruction**, which is not much longer than `2 ^ 34` bytes: a switch
has at most `2 ^ 32` distances of four bytes. -/
lemma bounds_of_operands {operand : Operand} {length : Nat} (hshape : Shape.of? opcode = some shape)
    (h : operands offset opcode rest = .ok (operand, length)) :
    shape.reads offset < length ∧ length ≤ 0x400000010 := by
  have hbounded := Shape.isBounded_of hshape
  have hpadding := padding_lt offset
  cases shape with
  | plain length =>
      simp only [operands, hshape] at h
      cases h
      simp only [Shape.isBounded, Bool.and_eq_true, decide_eq_true_eq] at hbounded
      simp only [Shape.reads]
      omega
  | shortConstant =>
      obtain _ | ⟨a, rest⟩ := rest <;> simp only [operands, hshape] at h <;> cases h
      simp [Shape.reads]
  | wide =>
      obtain _ | ⟨a, rest⟩ := rest <;> simp only [operands, hshape] at h <;> cases h
      simp only [Shape.reads]
      split_ifs <;> omega
  | indexed operand length =>
      obtain _ | ⟨a, _ | ⟨b, rest⟩⟩ := rest <;> simp only [operands, hshape] at h <;> cases h
      simp only [Shape.isBounded, Bool.and_eq_true, decide_eq_true_eq] at hbounded
      simp only [Shape.reads]
      omega
  | multiArray =>
      obtain _ | ⟨a, _ | ⟨b, _ | ⟨c, rest⟩⟩⟩ := rest <;> simp only [operands, hshape] at h <;> cases h
      simp [Shape.reads]
  | tableSwitch =>
      simp only [operands, hshape, bind_eq_ok_iff] at h
      obtain ⟨low, hlow, high, hhigh, h⟩ := h
      have hlowBounds := wordAt_bounds hlow
      have hhighBounds := wordAt_bounds hhigh
      split_ifs at h
      cases h
      simp only [Shape.reads]
      omega
  | lookupSwitch =>
      simp only [operands, hshape, bind_eq_ok_iff] at h
      obtain ⟨pairs, hpairs, h⟩ := h
      have hpairsBounds := wordAt_bounds hpairs
      split_ifs at h
      cases h
      simp only [Shape.reads]
      omega

lemma exists_shape {operand : Operand} {length : Nat} (h : operands offset opcode rest = .ok (operand, length)) :
    ∃ shape, Shape.of? opcode = some shape := by
  cases hshape : Shape.of? opcode with
  | none => simp [operands, hshape] at h
  | some shape => exact ⟨shape, rfl⟩

end Operands

/-! ## The instruction at a place -/

/-- Decodes the instruction at a place in the code, and its length. -/
def readAt (code : List UInt8) (offset : Nat) : Except FormatError (Instruction × Nat) :=
  match code[offset]? with
  | none => .error (.truncated offset)
  | some opcode => do
    let found ← operands offset opcode (code.drop (offset + 1))
    if offset + found.2 ≤ code.length then return (⟨offset, opcode, found.1⟩, found.2)
    else throw (.truncated offset)

section Reading

variable {code : List UInt8} {offset length : Nat} {instruction : Instruction} {error : FormatError}

lemma readAt_of_lt (h : offset < code.length) :
    readAt code offset = operands offset code[offset] (code.drop (offset + 1)) >>= fun found =>
      if offset + found.2 ≤ code.length then pure (⟨offset, code[offset], found.1⟩, found.2)
      else throw (.truncated offset) := by
  simp only [readAt, List.getElem?_eq_getElem h]

lemma readAt_eq_ok_iff : readAt code offset = .ok (instruction, length) ↔
    ∃ opcode operand, code[offset]? = some opcode ∧
      operands offset opcode (code.drop (offset + 1)) = .ok (operand, length) ∧
      offset + length ≤ code.length ∧ instruction = ⟨offset, opcode, operand⟩ := by
  rw [readAt]
  cases code[offset]? with
  | none => simp
  | some opcode =>
      simp only [bind_eq_ok_iff, Option.some.injEq, Prod.exists]
      constructor
      · rintro ⟨operand, length, hoperands, h⟩
        split_ifs at h with hle
        cases h
        exact ⟨opcode, operand, rfl, hoperands, hle, rfl⟩
      · rintro ⟨_, operand, rfl, hoperands, hle, rfl⟩
        exact ⟨operand, length, hoperands, by rw [if_pos hle]; rfl⟩

lemma operands_of_readAt_error (hlt : offset < code.length) (h : readAt code offset = .error error) :
    operands offset code[offset] (code.drop (offset + 1)) = .error error ∨
      ∃ operand length, operands offset code[offset] (code.drop (offset + 1)) = .ok (operand, length) ∧
        code.length < offset + length ∧ error = .truncated offset := by
  rw [readAt_of_lt hlt] at h
  cases hoperands : operands offset code[offset] (code.drop (offset + 1)) with
  | error cause =>
      rw [hoperands] at h
      cases h
      exact Or.inl rfl
  | ok found =>
      rw [hoperands] at h
      change (if offset + found.2 ≤ code.length then _ else _) = _ at h
      split_ifs at h with hle
      · cases h
      · cases h
        exact Or.inr ⟨found.1, found.2, rfl, not_le.mp hle, rfl⟩

/-- The instruction stands at its place, has at least one byte and lies within the code. -/
structure Spans (code : List UInt8) (offset : Nat) (instruction : Instruction) (length : Nat) : Prop where
  reads : readAt code offset = .ok (instruction, length)
  starts : instruction.offset = offset
  positive : 1 ≤ length
  within : offset + length ≤ code.length

lemma spans_of_readAt (h : readAt code offset = .ok (instruction, length)) :
    Spans code offset instruction length := by
  obtain ⟨opcode, operand, hopcode, hoperands, hle, rfl⟩ := readAt_eq_ok_iff.mp h
  obtain ⟨shape, hshape⟩ := exists_shape hoperands
  have hbounds := bounds_of_operands hshape hoperands
  exact ⟨h, rfl, by omega, hle⟩

end Reading

/-! ## Walking through the code -/

/-- Instructions that stand back to back from one place in the code to another. -/
inductive Tiles (code : List UInt8) : Nat → List Instruction → Nat → Prop where
  | done (offset : Nat) : Tiles code offset [] offset
  | next {offset length stop : Nat} {instruction : Instruction} {later : List Instruction} :
      Spans code offset instruction length → Tiles code (offset + length) later stop →
      Tiles code offset (instruction :: later) stop

/-- How decoding ends: with the end of the code, or before an instruction that cannot be read. -/
inductive Ends (code : List UInt8) (stop : Nat) : Option FormatError → Prop where
  | whole : stop = code.length → Ends code stop none
  | failed {error : FormatError} : stop < code.length → readAt code stop = .error error → Ends code stop (some error)

/-- To pass over bytes is to go on behind them. -/
lemma decodeFrom_skip (offset skip : Nat) (bytes : List UInt8) :
    decodeFrom offset skip bytes = decodeFrom (offset + skip) 0 (bytes.drop skip) := by
  induction bytes generalizing offset skip with
  | nil => cases skip <;> simp [decodeFrom]
  | cons byte bytes ih =>
      cases skip with
      | zero => rfl
      | succ skip => rw [decodeFrom, ih, List.drop_succ_cons, Nat.add_right_comm, Nat.add_assoc]

/-- An instruction that is there whole comes first, and those behind it follow. -/
lemma decodeFrom_cons {offset : Nat} {opcode : UInt8} {rest : List UInt8} {operand : Operand} {length : Nat}
    (h : operands offset opcode rest = .ok (operand, length + 1)) (hle : length ≤ rest.length) :
    decodeFrom offset 0 (opcode :: rest) =
      (⟨offset, opcode, operand⟩ :: (decodeFrom (offset + (length + 1)) 0 (rest.drop length)).1,
        (decodeFrom (offset + (length + 1)) 0 (rest.drop length)).2) := by
  rw [decodeFrom, h]
  simp only [Nat.add_sub_cancel, hasAtLeast_iff.mpr hle, if_true]
  rw [decodeFrom_skip, Nat.add_assoc, Nat.add_comm 1]

section Walking

variable {code : List UInt8} {offset stop : Nat} {instructions : List Instruction} {failure : Option FormatError}

lemma decodeFrom_of_error {error : FormatError} (hlt : offset < code.length) (h : readAt code offset = .error error) :
    decodeFrom offset 0 (code.drop offset) = ([], some error) := by
  rw [List.drop_eq_getElem_cons hlt, decodeFrom]
  rcases operands_of_readAt_error hlt h with hoperands | ⟨operand, length, hoperands, hlong, rfl⟩
  · rw [hoperands]
  · have hshort : ¬ hasAtLeast (length - 1) (code.drop (offset + 1)) := by
      rw [hasAtLeast_iff, List.length_drop]
      omega
    rw [hoperands]
    simp only [if_neg hshort]

lemma decodeFrom_of_ok {instruction : Instruction} {length : Nat} (h : readAt code offset = .ok (instruction, length)) :
    decodeFrom offset 0 (code.drop offset) =
      (instruction :: (decodeFrom (offset + length) 0 (code.drop (offset + length))).1,
        (decodeFrom (offset + length) 0 (code.drop (offset + length))).2) := by
  obtain ⟨-, -, hpositive, -⟩ := spans_of_readAt h
  obtain ⟨opcode, operand, hopcode, hoperands, hle, rfl⟩ := readAt_eq_ok_iff.mp h
  obtain ⟨hlt, rfl⟩ := List.getElem?_eq_some_iff.mp hopcode
  obtain ⟨length, rfl⟩ := Nat.exists_eq_add_of_le' hpositive
  rw [List.drop_eq_getElem_cons hlt, decodeFrom_cons hoperands, List.drop_drop, Nat.add_right_comm, Nat.add_assoc]
  rw [List.length_drop]
  omega

/-- Instructions that stand back to back are found, up to the place where decoding ends. -/
lemma decodeFrom_of_tiles (htiles : Tiles code offset instructions stop) (hends : Ends code stop failure) :
    decodeFrom offset 0 (code.drop offset) = (instructions, failure) := by
  induction htiles with
  | done offset =>
      cases hends with
      | whole hstop => rw [hstop, List.drop_length, decodeFrom]
      | failed hlt herror => exact decodeFrom_of_error hlt herror
  | next hspans _ ih => rw [decodeFrom_of_ok hspans.reads, ih hends]

/-- From any place in the code, instructions stand back to back up to a place where decoding ends. -/
lemma exists_tiles (h : offset ≤ code.length) : ∃ instructions stop failure,
    Tiles code offset instructions stop ∧ Ends code stop failure := by
  -- Each instruction brings the place nearer to the end of the code.
  induction hleft : code.length - offset using Nat.strong_induction_on generalizing offset with
  | _ left ih =>
      rcases h.eq_or_lt with rfl | hlt
      · exact ⟨[], _, none, .done _, .whole rfl⟩
      · cases hread : readAt code offset with
        | error error => exact ⟨[], offset, some error, .done offset, .failed hlt hread⟩
        | ok found =>
            have hspans := spans_of_readAt hread
            have hpositive := hspans.positive
            have hwithin := hspans.within
            obtain ⟨later, stop, failure, htiles, hends⟩ := ih _ (by omega) hwithin rfl
            exact ⟨found.1 :: later, stop, failure, .next hspans htiles, hends⟩

lemma Tiles.stop_le (htiles : Tiles code offset instructions stop) (h : offset ≤ code.length) :
    stop ≤ code.length := by
  induction htiles with
  | done offset => exact h
  | next hspans _ ih => exact ih hspans.within

/-- **Decoding finds instructions back to back from the start of the code, up to a place where it ends.** -/
lemma decode_eq_iff : decode code = (instructions, failure) ↔
    ∃ stop, Tiles code 0 instructions stop ∧ Ends code stop failure := by
  constructor
  · intro h
    obtain ⟨found, stop, cause, htiles, hends⟩ := exists_tiles code.length.zero_le
    have hfound : decode code = (found, cause) := decodeFrom_of_tiles htiles hends
    cases hfound.symm.trans h
    exact ⟨stop, htiles, hends⟩
  · rintro ⟨stop, htiles, hends⟩
    exact decodeFrom_of_tiles htiles hends

end Walking

end Instruction

end JarSurvey.ClassFile
