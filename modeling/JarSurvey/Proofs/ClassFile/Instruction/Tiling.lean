import JarSurvey.Proofs.ClassFile.Instruction.Words

/-!
# Instructions tile the code

Whatever the bytes are, the instructions that are found stand back to back from the start of the code, and nothing
fails exactly if the last of them ends where the code does.

Code that is cut off still holds the instructions before the cut.  **An instruction that is cut off counts as cut short
and never as another one**, wherever the cut falls (`readAt_take_of_lt`): of its bytes, either one that is read is
missing, or its length is known and does not fit.

`decode_tiles_cuts` puts both together, and adds that the lengths can be computed with words of 64 bits.
-/

namespace JarSurvey.ClassFile.Instruction

/-- Where an instruction of the code ends. -/
def stop (code : List UInt8) (instruction : Instruction) : Nat :=
  match readAt code instruction.offset with
  | .ok found => instruction.offset + found.2
  | .error _ => instruction.offset

/-- An instruction starts here, or the code that they fill ends. -/
def StartsAmong (code : List UInt8) (instructions : List Instruction) (k : Nat) : Prop :=
  k = code.length ∨ ∃ instruction ∈ instructions, instruction.offset = k

/-- A place between instructions of the code, its start and its end among them. -/
def IsBoundary (code : List UInt8) (k : Nat) : Prop :=
  StartsAmong code (decode code).1 k

/-! ## A cut through an instruction -/

section Cut

variable {code : List UInt8} {offset k length : Nat} {instruction : Instruction}

/-- Cut off at the end, the operands are the same or cut short.  They are cut short only if the instruction is. -/
lemma operands_cut {opcode : UInt8} {front more : List UInt8} {operand : Operand}
    (h : operands offset opcode (front ++ more) = .ok (operand, length)) :
    operands offset opcode front = .ok (operand, length) ∨
      front.length + 1 < length ∧ ∃ position, operands offset opcode front = .error (.truncated position) := by
  obtain ⟨shape, hshape⟩ := exists_shape h
  rcases le_or_gt (shape.reads offset) front.length with hreads | hreads
  · rw [operands_append hshape hreads] at h
    exact Or.inl h
  · have hlength := (bounds_of_operands hshape h).1
    exact Or.inr ⟨by omega, operands_of_lt hshape hreads⟩

/-- The opcode of an instruction that starts before the cut is still there, and its operands are the same or cut
short. -/
lemma operands_take (h : Spans code offset instruction length) (hlt : offset < k) (hk : k ≤ code.length) :
    ∃ opcode operand, (code.take k)[offset]? = some opcode ∧ instruction = ⟨offset, opcode, operand⟩ ∧
      (operands offset opcode ((code.take k).drop (offset + 1)) = .ok (operand, length) ∨
        k < offset + length ∧
          ∃ position, operands offset opcode ((code.take k).drop (offset + 1)) = .error (.truncated position)) := by
  obtain ⟨opcode, operand, hopcode, hoperands, -, rfl⟩ := readAt_eq_ok_iff.mp h.reads
  refine ⟨opcode, operand, by rw [List.getElem?_take_of_lt hlt, hopcode], rfl, ?_⟩
  have hsplit : code.drop (offset + 1) = (code.take k).drop (offset + 1) ++ code.drop k := by
    rw [← List.drop_append_of_le_length (by rw [List.length_take]; omega), List.take_append_drop]
  rw [hsplit] at hoperands
  rcases operands_cut hoperands with hsame | ⟨hshort, htruncated⟩
  · exact Or.inl hsame
  · rw [List.length_drop, List.length_take] at hshort
    exact Or.inr ⟨by omega, htruncated⟩

/-- An instruction that ends before the cut, or at it, is the same. -/
lemma spans_take (h : Spans code offset instruction length) (hle : offset + length ≤ k) (hk : k ≤ code.length) :
    Spans (code.take k) offset instruction length := by
  have hpositive := h.positive
  obtain ⟨opcode, operand, hopcode, rfl, hsame | ⟨hcut, -⟩⟩ := operands_take h (by omega) hk
  · refine spans_of_readAt (readAt_eq_ok_iff.mpr ⟨opcode, operand, hopcode, hsame, ?_, rfl⟩)
    rw [List.length_take]
    omega
  · omega

/-- **An instruction that the cut goes through counts as cut short.** -/
lemma readAt_take_of_lt (h : Spans code offset instruction length) (hlt : offset < k) (hk : k ≤ code.length)
    (hcut : k < offset + length) : ∃ position, readAt (code.take k) offset = .error (.truncated position) := by
  obtain ⟨opcode, operand, hopcode, rfl, hsame | ⟨-, position, htruncated⟩⟩ := operands_take h hlt hk
  · -- All that is read is there, but the rest does not fit.
    refine ⟨offset, ?_⟩
    have hlong : ¬ offset + length ≤ (code.take k).length := by
      rw [List.length_take]
      omega
    simp only [readAt, hopcode, hsame]
    exact if_neg hlong
  · refine ⟨position, ?_⟩
    simp only [readAt, hopcode, htruncated]
    rfl

end Cut

/-! ## A cut through the code -/

section Tiles

variable {code : List UInt8} {offset last k length : Nat} {instruction : Instruction} {instructions : List Instruction}

lemma stop_eq (h : Spans code offset instruction length) : stop code instruction = offset + length := by
  rw [stop, h.starts, h.reads]

/-- Instructions that stand back to back start no earlier than the first of them, and end behind their start. -/
lemma Tiles.bounds_of_mem (htiles : Tiles code offset instructions last) (h : instruction ∈ instructions) :
    offset ≤ instruction.offset ∧ instruction.offset < stop code instruction := by
  induction htiles with
  | done offset => cases h
  | next hspans _ ih =>
      have hpositive := hspans.positive
      rcases List.mem_cons.mp h with rfl | hlater
      · rw [stop_eq hspans, hspans.starts]
        omega
      · have hbounds := ih hlater
        omega

/-- From a place before the cut, the instructions that end before the cut stand back to back.  Decoding ends behind
them: without a failure if the cut is at a boundary, and otherwise at the instruction that is cut off. -/
lemma Tiles.take (htiles : Tiles code offset instructions last) (hlast : last = code.length) (hoffset : offset ≤ k)
    (hk : k ≤ code.length) :
    ∃ stopped failure, Tiles (code.take k) offset (instructions.filter fun i => stop code i ≤ k) stopped ∧
      Ends (code.take k) stopped failure ∧
      (StartsAmong code instructions k → failure = none) ∧
      (¬ StartsAmong code instructions k → ∃ position, failure = some (.truncated position)) := by
  have hlength : (code.take k).length = k := List.length_take_of_le hk
  induction htiles with
  | done offset =>
      have hend : k = code.length := by omega
      exact ⟨offset, none, .done offset, .whole (by omega), fun _ => rfl, fun h => absurd (Or.inl hend) h⟩
  | @next offset length last first later hspans htiles ih =>
      have hpositive := hspans.positive
      have hwithin := hspans.within
      rcases le_or_gt (offset + length) k with hle | hcut
      · -- The first instruction stays, and a later place is no start of it.
        obtain ⟨stopped, failure, hkept, hends, hclean, hfailed⟩ := ih hlast hle
        have hstarts : StartsAmong code (first :: later) k ↔ StartsAmong code later k := by
          have hne : first.offset ≠ k := by
            rw [hspans.starts]
            omega
          simp [StartsAmong, hne]
        refine ⟨stopped, failure, ?_, hends, by rwa [hstarts], by rwa [hstarts]⟩
        rw [List.filter_cons_of_pos (by simpa [stop_eq hspans] using hle)]
        exact .next (spans_take hspans hle hk) hkept
      · -- Nothing stays: all later instructions start behind the cut.
        have hnone : (first :: later).filter (fun i => stop code i ≤ k) = [] := by
          rw [List.filter_eq_nil_iff]
          intro i hi
          rcases List.mem_cons.mp hi with rfl | hlater
          · simpa [stop_eq hspans] using hcut
          · have hbounds := htiles.bounds_of_mem hlater
            simp only [decide_eq_true_eq]
            omega
        rw [hnone]
        rcases hoffset.eq_or_lt with rfl | hlt
        · exact ⟨offset, none, .done offset, .whole hlength.symm, fun _ => rfl,
            fun h => absurd (Or.inr ⟨first, List.mem_cons_self, hspans.starts⟩) h⟩
        · obtain ⟨position, htruncated⟩ := readAt_take_of_lt hspans hlt hk hcut
          refine ⟨offset, _, .done offset, .failed (by omega) htruncated, ?_, fun _ => ⟨position, rfl⟩⟩
          rintro (hend | ⟨i, hi, rfl⟩)
          · omega
          · rcases List.mem_cons.mp hi with rfl | hlater
            · exact absurd hspans.starts hlt.ne'
            · have hbounds := htiles.bounds_of_mem hlater
              omega

end Tiles

/-- The instructions that are found, whatever the bytes, stand back to back from the start of the code.  Nothing fails
exactly if they fill it. -/
lemma tiles_decode (code : List UInt8) : ∃ last ≤ code.length, Tiles code 0 (decode code).1 last ∧
    ((decode code).2 = none ↔ last = code.length) := by
  rcases hdecode : decode code with ⟨instructions, failure⟩
  obtain ⟨last, htiles, hends⟩ := decode_eq_iff.mp hdecode
  refine ⟨last, htiles.stop_le code.length.zero_le, htiles, ?_⟩
  cases hends with
  | whole hlast => exact iff_of_true rfl hlast
  | failed hlt _ => exact iff_of_false (by simp) hlt.ne

/-- **Instructions tile the code, and cutting it off takes away only those that the cut reaches.**

* The instructions that are found start at the start of the code, each next one where the one before it ends.  Each has
  at least one byte and lies within the code, and nothing fails exactly if the last one ends where the code does.
* Words of 64 bits suffice for all that is computed on the way, at every place and for every range and number of pairs
  of a switch.  Bytes in memory are fewer than `2 ^ 63`.
* If nothing fails, then the first `k` bytes hold exactly the instructions that end within them.  Behind them nothing
  fails if `k` is a boundary, and otherwise the code is cut short. -/
theorem decode_tiles_cuts (code : List UInt8) :
    (∃ last ≤ code.length, Tiles code 0 (decode code).1 last ∧ ((decode code).2 = none ↔ last = code.length)) ∧
      (code.length < 0x8000000000000000 → ∀ offset < code.length,
        Words.readAt code offset = Words.settled (readAt code offset)) ∧
      ((decode code).2 = none → ∀ k ≤ code.length,
        (decode (code.take k)).1 = (decode code).1.filter (fun instruction => stop code instruction ≤ k) ∧
          (IsBoundary code k → (decode (code.take k)).2 = none) ∧
          (¬ IsBoundary code k → ∃ position, (decode (code.take k)).2 = some (.truncated position))) := by
  refine ⟨tiles_decode code, fun hlength offset hlt => Words.readAt_eq hlength hlt, fun hclean k hk => ?_⟩
  obtain ⟨last, -, htiles, hfills⟩ := tiles_decode code
  obtain ⟨stopped, failure, hkept, hends, hnone, htruncated⟩ := htiles.take (hfills.mp hclean) k.zero_le hk
  have hcut := decode_eq_iff.mpr ⟨stopped, hkept, hends⟩
  rw [hcut]
  exact ⟨rfl, hnone, htruncated⟩

/-- A load, a switch over `0` and `1` and the creation of an object. -/
def switchCode : List UInt8 :=
  [0x1b, 0xaa, 0, 0, 0, 0, 0, 0x10, 0, 0, 0, 0, 0, 0, 0, 1, 0, 0, 0, 0x10, 0, 0, 0, 0x10, 0xbb, 0, 3]

/-- A cut between the lowest and the highest value of a switch leaves what stands before the switch.  A cut behind its
last distance leaves the switch too. -/
theorem decode_tiles_cuts_switch :
    (decode switchCode).2 = none ∧ Words.readAt switchCode 1 = Words.settled (readAt switchCode 1) ∧
      ((decode (switchCode.take 13)).1 = [⟨0, 0x1b, .none⟩] ∧
        ∃ position, (decode (switchCode.take 13)).2 = some (.truncated position)) ∧
      (decode (switchCode.take 24)).1 = [⟨0, 0x1b, .none⟩, ⟨1, 0xaa, .none⟩] ∧
      (decode (switchCode.take 24)).2 = none := by
  have hfound : (decode switchCode).1 = [⟨0, 0x1b, .none⟩, ⟨1, 0xaa, .none⟩, ⟨24, 0xbb, .classRef 3⟩] := by
    decide +kernel
  have hclean : (decode switchCode).2 = none := by decide +kernel
  obtain ⟨-, hwords, hcuts⟩ := decode_tiles_cuts switchCode
  obtain ⟨hinside, -, htruncated⟩ := hcuts hclean 13 (by decide)
  obtain ⟨hbehind, hwhole, -⟩ := hcuts hclean 24 (by decide)
  refine ⟨hclean, hwords (by decide) 1 (by decide), ⟨?_, htruncated ?_⟩, ?_, hwhole ?_⟩
  · rw [hinside, hfound]
    decide +kernel
  · rw [IsBoundary, hfound]
    simp [StartsAmong, switchCode]
  · rw [hbehind, hfound]
    decide +kernel
  · rw [IsBoundary, hfound]
    simp [StartsAmong]

end JarSurvey.ClassFile.Instruction
