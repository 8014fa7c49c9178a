import JarSurvey.Proofs.ClassFile.Outline.Existence
import JarSurvey.Proofs.ClassFile.SelfDelimiting

/-!
# The slots of a constant pool

Constants are read one after the other, and each of them is given the slot behind those of the constant before it.
`place` says which slots these are, from the constants alone.  What a pool holds is then told by places: a slot holds a
constant, or is the second one of a wide constant, or is slot zero (`getElem?_slotsOf_iff`), so that **a look-up
succeeds at the places of the constants and nowhere else**.

The count of a pool is taken into account last.  Reading goes on as long as the next slot lies below the count, so the
slot of every constant does, and only a wide constant in the last slot reaches beyond it (`Counts`).  The slot that an
error names is the next one after some constants, too, and hence no number of a slot is ever too large for its field.
-/

namespace JarSurvey.ClassFile

open Layout

/-- The number of slots that a constant takes. -/
def Constant.width (constant : Constant) : Nat :=
  if constant.isWide then 2 else 1

/-- A constant of a pool with its slot. -/
structure PlacedConstant where
  slot : Nat
  piece : SpelledConstant

namespace PlacedConstant

def value (placed : PlacedConstant) : Constant := placed.piece.value

def bytes (placed : PlacedConstant) : List UInt8 := placed.piece.bytes

/-- The slot behind those of the constant. -/
def next (placed : PlacedConstant) : Nat := placed.slot + placed.value.width

end PlacedConstant

/-- The constants with their slots, the first of which is given. -/
def place (first : Nat) : List SpelledConstant → List PlacedConstant
  | [] => []
  | piece :: later => ⟨first, piece⟩ :: place (first + piece.value.width) later

/-- The slot behind constants that begin at slot one. -/
def slotBehind (placed : List PlacedConstant) : Nat :=
  placed.getLast?.elim 1 PlacedConstant.next

/-- **Constants in the slots of a pool**: the first one stands at slot one, and each next one behind the one before. -/
structure InStep (placed : List PlacedConstant) : Prop where
  first : ∀ head ∈ placed.head?, head.slot = 1
  next : placed.IsChain fun before after => after.slot = before.next

/-! ## Places -/

section Places

variable {first : Nat} {constants : List SpelledConstant}

lemma length_slots (constant : Constant) : (slots constant).length = constant.width := by
  rw [slots, Constant.width]
  split <;> rfl

lemma Constant.width_pos (constant : Constant) : 0 < constant.width := by
  rw [Constant.width]
  split <;> omega

lemma flatMap_bytes_place : (place first constants).flatMap PlacedConstant.bytes =
    constants.flatMap SpelledConstant.bytes := by
  induction constants generalizing first with
  | nil => rfl
  | cons piece later ih => simp [place, PlacedConstant.bytes, ih]

lemma isChain_place : (place first constants).IsChain fun before after => after.slot = before.next := by
  induction constants generalizing first with
  | nil => exact .nil
  | cons piece later ih =>
      cases later with
      | nil => exact .singleton _
      | cons second later => exact .cons_cons rfl ih

lemma inStep_place : InStep (place 1 constants) := by
  refine ⟨?_, isChain_place⟩
  cases constants <;> simp [place]

/-- The last constant tells where its slots end. -/
lemma getLast?_place_elim : (place first constants).getLast?.elim first PlacedConstant.next =
    first + (constants.flatMap fun piece => slots piece.value).length := by
  induction constants generalizing first with
  | nil => rfl
  | cons piece later ih =>
      have hnext : (PlacedConstant.mk first piece).next = first + piece.value.width := rfl
      rw [place, List.getLast?_cons, List.flatMap_cons, List.length_append, length_slots, ← Nat.add_assoc, ← ih]
      cases (place (first + piece.value.width) later).getLast? <;> simp [hnext]

lemma slotBehind_place : slotBehind (place 1 constants) = (slotsOf constants).length := by
  rw [slotBehind, getLast?_place_elim, slotsOf, List.length_cons, Nat.add_comm]

lemma le_slot_of_mem_place {placed : PlacedConstant} (h : placed ∈ place first constants) : first ≤ placed.slot := by
  induction constants generalizing first with
  | nil => cases h
  | cons piece later ih =>
      rcases List.mem_cons.mp h with rfl | hlater
      · exact le_rfl
      · exact (Nat.le_add_right _ _).trans (ih hlater)

/-- The slot holds the constant, or nothing because it is the second slot of the constant. -/
def PlacedConstant.Fills (placed : PlacedConstant) (slot : Nat) (entry : Option Constant) : Prop :=
  slot = placed.slot ∧ some placed.value = entry ∨
    placed.value.isWide = true ∧ slot = placed.slot + 1 ∧ none = entry

lemma PlacedConstant.Fills.lt_next {placed : PlacedConstant} {slot : Nat} {entry : Option Constant}
    (h : placed.Fills slot entry) : slot < placed.next := by
  have hpos := placed.value.width_pos
  rw [next]
  rcases h with ⟨rfl, -⟩ | ⟨hwide, rfl, -⟩
  · omega
  · rw [Constant.width, if_pos hwide]
    omega

lemma PlacedConstant.Fills.slot_le {placed : PlacedConstant} {slot : Nat} {entry : Option Constant}
    (h : placed.Fills slot entry) : placed.slot ≤ slot := by
  rcases h with ⟨rfl, -⟩ | ⟨-, rfl, -⟩
  · exact le_rfl
  · exact Nat.le_succ _

lemma getElem?_slots_iff {piece : SpelledConstant} {i : Nat} {entry : Option Constant} :
    (slots piece.value)[i]? = some entry ↔ (PlacedConstant.mk first piece).Fills (first + i) entry := by
  simp only [slots, PlacedConstant.Fills, PlacedConstant.value, Nat.add_eq_left, Nat.add_right_inj]
  rcases i with _ | _ | i <;> cases piece.value.isWide <;> simp

/-- **What a slot holds**: the constant that stands there, or nothing behind a wide one. -/
lemma getElem?_flatMap_slots_iff (first : Nat) {i : Nat} {entry : Option Constant} :
    (constants.flatMap fun piece => slots piece.value)[i]? = some entry ↔
      ∃ placed ∈ place first constants, placed.Fills (first + i) entry := by
  induction constants generalizing first i with
  | nil => simp [place]
  | cons piece later ih =>
      rw [List.flatMap_cons, List.getElem?_append, length_slots, place]
      simp only [List.exists_mem_cons_iff]
      split
      · rename_i hlt
        -- The later constants stand behind this slot.
        rw [getElem?_slots_iff, or_iff_left]
        rintro ⟨placed, hmem, hfills⟩
        have hfirst := le_slot_of_mem_place hmem
        have hslot := hfills.slot_le
        omega
      · rename_i hge
        rw [ih (first + piece.value.width), or_iff_right,
          show first + piece.value.width + (i - piece.value.width) = first + i by omega]
        intro hfills
        have hnext : first + i < first + piece.value.width := hfills.lt_next
        omega

lemma getElem?_slotsOf_iff {i : Nat} {entry : Option Constant} :
    (slotsOf constants)[i]? = some entry ↔
      i = 0 ∧ none = entry ∨ ∃ placed ∈ place 1 constants, placed.Fills i entry := by
  cases i with
  | zero =>
      rw [slotsOf, List.getElem?_cons_zero, or_iff_left, Option.some.injEq, eq_self, true_and]
      rintro ⟨placed, hmem, hfills⟩
      have hfirst := le_slot_of_mem_place hmem
      have hslot := hfills.slot_le
      omega
  | succ i =>
      rw [slotsOf, List.getElem?_cons_succ, getElem?_flatMap_slots_iff 1, or_iff_right (by simp),
        Nat.add_comm]

lemma getElem?_slotsOf_of_mem {placed : PlacedConstant} (h : placed ∈ place 1 constants) :
    (slotsOf constants)[placed.slot]? = some (some placed.value) :=
  getElem?_slotsOf_iff.mpr (Or.inr ⟨placed, h, Or.inl ⟨rfl, rfl⟩⟩)

end Places

/-! ## Look-ups -/

section LookUps

variable {pool : ConstantPool} {constants : List SpelledConstant} {index : Index}

lemma holds_iff_placed (hpool : pool = ⟨(slotsOf constants).toArray⟩) {constant : Constant} :
    pool.Holds index constant ↔
      ∃ placed ∈ place 1 constants, index.toNat = placed.slot ∧ placed.value = constant := by
  subst hpool
  rw [ConstantPool.Holds, List.getElem?_toArray, getElem?_slotsOf_iff]
  simp [PlacedConstant.Fills]

lemma get_eq_error_iff : pool.get index = .error (.badConstantIndex index) ↔
    ∀ constant, pool.slots[index.toNat]? ≠ some (some constant) := by
  rw [ConstantPool.get]
  split
  · rename_i constant h
    simp [h]
  · rename_i h
    simpa using h

/-- A look-up fails at slot zero, behind a wide constant and behind the last slot. -/
lemma get_eq_error_iff_placed (hpool : pool = ⟨(slotsOf constants).toArray⟩) :
    pool.get index = .error (.badConstantIndex index) ↔
      index.toNat = 0 ∨ (∃ placed ∈ place 1 constants, placed.value.isWide = true ∧ index.toNat = placed.slot + 1) ∨
        pool.size ≤ index.toNat := by
  subst hpool
  rw [get_eq_error_iff, ConstantPool.size, List.getElem?_toArray, List.size_toArray, ← List.getElem?_eq_none_iff]
  have hnone : (slotsOf constants)[index.toNat]? = some none ↔ index.toNat = 0 ∨
      ∃ placed ∈ place 1 constants, placed.value.isWide = true ∧ index.toNat = placed.slot + 1 := by
    simp [getElem?_slotsOf_iff, PlacedConstant.Fills]
  rw [← or_assoc, ← hnone]
  rcases (slotsOf constants)[index.toNat]? with _ | _ | constant <;> simp

end LookUps

/-! ## The count of a pool -/

/-- The last constant is wide, and its second slot is the first one that the count leaves out. -/
def EndsBeyond (count : Nat) (placed : List PlacedConstant) : Prop :=
  ∃ last ∈ placed.getLast?, last.value.isWide = true ∧ last.slot + 1 = count

section Counting

variable {count : Nat} {constants : List SpelledConstant}

/-- Every constant stands below the count. -/
lemma slot_lt_of_counts (h : Counts count (slotsOf constants)) {placed : PlacedConstant}
    (hmem : placed ∈ place 1 constants) : placed.slot < count := by
  have hslot := getElem?_slotsOf_of_mem hmem
  have hlt : placed.slot < (slotsOf constants).length := (List.getElem?_eq_some_iff.mp hslot).1
  rcases h with h | ⟨h, hlast⟩
  · omega
  · rw [List.getLast?_eq_getElem?] at hlast
    -- The last slot holds nothing.
    have hne : placed.slot ≠ (slotsOf constants).length - 1 := by
      intro heq
      rw [← heq, hslot] at hlast
      cases hlast
    omega

lemma length_slotsOf_of_counts (h : Counts count (slotsOf constants)) :
    EndsBeyond count (place 1 constants) ∧ (slotsOf constants).length = count + 1 ∨
      ¬ EndsBeyond count (place 1 constants) ∧ (slotsOf constants).length = max count 1 := by
  have hbehind : slotBehind (place 1 constants) = (slotsOf constants).length := slotBehind_place
  rcases h with h | ⟨h, hnone⟩
  · right
    refine ⟨?_, by rw [slotsOf, List.length_cons] at h ⊢; omega⟩
    rintro ⟨last, hlast, hwide, hslot⟩
    rw [slotBehind, Option.mem_def.mp hlast, Option.elim_some, PlacedConstant.next, Constant.width, if_pos hwide]
      at hbehind
    omega
  · cases hlast : (place 1 constants).getLast? with
    | none =>
        right
        rw [slotBehind, hlast, Option.elim_none] at hbehind
        refine ⟨?_, by omega⟩
        rintro ⟨last, hmem, -⟩
        rw [hlast] at hmem
        cases hmem
    | some last =>
        left
        have hmem : last ∈ place 1 constants := List.mem_of_getLast? hlast
        have hlt := slot_lt_of_counts (Or.inr ⟨h, hnone⟩) hmem
        rw [slotBehind, hlast, Option.elim_some, PlacedConstant.next, Constant.width] at hbehind
        split at hbehind
        · rename_i hwide
          exact ⟨⟨last, hlast, hwide, by omega⟩, h.symm⟩
        · omega

end Counting

/-! ## What keeps a pool from being read -/

namespace Reader

/-- Whenever the reader fails, the bytes and the error are like this. -/
def FailsAs {α : Type} (reader : Reader α) (cause : List UInt8 → FormatError → Prop) : Prop :=
  ∀ position bytes error, reader ⟨position, bytes⟩ = .error error → cause bytes error

/-- The data ends where more is needed. -/
def LacksData (_ : List UInt8) (error : FormatError) : Prop :=
  ∃ offset, error = .truncated offset

section FailsAs

variable {α β : Type} {reader : Reader α} {cause cause' : List UInt8 → FormatError → Prop}

lemma FailsAs.mono (h : FailsAs reader cause) (hcause : ∀ bytes error, cause bytes error → cause' bytes error) :
    FailsAs reader cause' :=
  fun position bytes error herror => hcause bytes error (h position bytes error herror)

lemma failsAs_pure (a : α) : FailsAs (pure a) cause := by
  intro position bytes error h
  cases h

/-- The first reader fails, or it takes what is laid out in its way and the next one fails on the rest. -/
lemma FailsAs.bind {next : α → Reader β} {layout : α → List UInt8 → Prop} (h : FailsAs reader cause)
    (hlayout : LaidOut reader layout) (later : α → List UInt8 → FormatError → Prop)
    (hnext : ∀ a, FailsAs (next a) (later a)) :
    FailsAs (reader >>= next) fun bytes error => cause bytes error ∨
      ∃ a used rest, bytes = used ++ rest ∧ layout a used ∧ later a rest error := by
  intro position bytes error herror
  rw [bind_apply, bind_eq_error_iff] at herror
  rcases herror with hfirst | ⟨⟨a, middle, rest⟩, hfirst, hsecond⟩
  · exact Or.inl (h _ _ _ hfirst)
  · obtain ⟨used, rfl, ha⟩ := hlayout _ _ _ _ hfirst
    exact Or.inr ⟨a, used, rest, rfl, ha, hnext a _ _ _ hsecond⟩

lemma FailsAs.bind_pure (h : FailsAs reader cause) (f : α → β) : FailsAs (reader >>= fun a => pure (f a)) cause := by
  intro position bytes error herror
  rw [bind_apply, bind_eq_error_iff] at herror
  rcases herror with hfirst | ⟨a, -, hsecond⟩
  · exact h _ _ _ hfirst
  · cases hsecond

/-- Readers in a row that fail for lack of data only. -/
lemma FailsAs.bind_lacksData {next : α → Reader β} (h : FailsAs reader LacksData)
    (hnext : ∀ a, FailsAs (next a) LacksData) : FailsAs (reader >>= next) LacksData := by
  intro position bytes error herror
  rw [bind_apply, bind_eq_error_iff] at herror
  rcases herror with hfirst | ⟨⟨a, middle, rest⟩, -, hsecond⟩
  · exact h _ _ _ hfirst
  · obtain ⟨offset, rfl⟩ := hnext a middle rest error hsecond
    exact ⟨offset, rfl⟩

lemma lacksData_u8 : FailsAs Reader.u8 LacksData := by
  rintro position (_ | ⟨a, bytes⟩) error ⟨⟩
  exact ⟨position, rfl⟩

lemma lacksData_u16 : FailsAs u16 LacksData := by
  rintro position (_ | ⟨a, _ | ⟨b, bytes⟩⟩) error ⟨⟩
  · exact ⟨position, rfl⟩
  · exact ⟨position, rfl⟩

lemma lacksData_u32 : FailsAs u32 LacksData := by
  rintro position (_ | ⟨a, _ | ⟨b, _ | ⟨c, _ | ⟨d, bytes⟩⟩⟩⟩) error ⟨⟩
  · exact ⟨position, rfl⟩
  · exact ⟨position, rfl⟩
  · exact ⟨position, rfl⟩
  · exact ⟨position, rfl⟩

lemma lacksData_u64 : FailsAs u64 LacksData :=
  lacksData_u32.bind_lacksData fun _ => lacksData_u32.bind_pure _

lemma lacksData_take (count : Nat) : FailsAs (take count) LacksData := by
  intro position bytes error herror
  simp only [take] at herror
  split_ifs at herror
  · cases herror
    exact ⟨position, rfl⟩

end FailsAs

/-- The data ends too early, or the constant for `slot` has a bad text or an unknown tag. -/
def Unreadable (slot : Nat) (bytes : List UInt8) (error : FormatError) : Prop :=
  LacksData bytes error ∨ error = .badUtf8 (.ofNat slot) ∨
    ∃ tag ∈ bytes.head?, error = .unknownConstantTag (.ofNat slot) tag

lemma failsAs_readText (slot : Nat) :
    FailsAs (ConstantPool.readText slot) fun bytes error => LacksData bytes error ∨ error = .badUtf8 (.ofNat slot) := by
  refine (lacksData_u16.bind laidOut_u16 _ fun length => (lacksData_take length.toNat).bind (laidOut_take _)
    (fun _ _ error => error = .badUtf8 (.ofNat slot)) fun body => ?_).mono ?_
  · split
    · exact failsAs_pure _
    · intro position bytes error herror
      cases herror
      rfl
  · rintro bytes error (hlength | ⟨length, _, _, -, -, hbody | ⟨_, _, _, -, -, hdecode⟩⟩)
    · exact Or.inl hlength
    · exact Or.inl hbody
    · exact Or.inr hdecode

lemma failsAs_readConstant (slot : Nat) : FailsAs (ConstantPool.readConstant slot) (Unreadable slot) := by
  have hone : ∀ f : Index → Constant, FailsAs (u16 >>= fun a => pure (f a)) LacksData :=
    fun f => lacksData_u16.bind_pure f
  have htwo : ∀ f : Index → Index → Constant, FailsAs (u16 >>= fun a => u16 >>= fun b => pure (f a b)) LacksData :=
    fun f => lacksData_u16.bind_lacksData fun a => hone (f a)
  refine (lacksData_u8.bind laidOut_u8 (fun tag rest error => Unreadable slot (tag :: rest) error)
    fun tag => ?_).mono ?_
  · have hshort : ∀ {reader : Reader Constant}, FailsAs reader LacksData →
        FailsAs reader fun rest error => Unreadable slot (tag :: rest) error :=
      fun h => h.mono fun _ _ => Or.inl
    split
    case h_1 =>
      refine ((failsAs_readText slot).bind_pure _).mono ?_
      rintro bytes error (hshort | htext)
      · exact Or.inl hshort
      · exact Or.inr (Or.inl htext)
    case h_2 => exact hshort ((lacksData_u32.bind_pure _).bind_pure _)
    case h_3 => exact hshort (lacksData_u32.bind_pure _)
    case h_4 | h_5 => exact hshort (lacksData_u64.bind_pure _)
    case h_6 | h_7 | h_13 | h_16 | h_17 => exact hshort (hone _)
    case h_8 | h_9 | h_10 | h_11 | h_14 | h_15 => exact hshort (htwo _)
    case h_12 => exact hshort (lacksData_u8.bind_lacksData fun _ => hone _)
    case h_18 =>
      intro position bytes error herror
      cases herror
      exact Or.inr (Or.inr ⟨tag, rfl, rfl⟩)
  · rintro bytes error (hshort | ⟨tag, _, rest, rfl, rfl, h⟩)
    · exact Or.inl hshort
    · exact h

/-- Behind constants that fill fewer than `left` slots, the constant for the next slot cannot be read. -/
def BreaksOff (slot left : Nat) (bytes : List UInt8) (error : FormatError) : Prop :=
  ∃ (constants : List SpelledConstant) (rest : List UInt8),
    bytes = constants.flatMap SpelledConstant.bytes ++ rest ∧
    (constants.flatMap fun piece => slots piece.value).length < left ∧
    Unreadable (slot + (constants.flatMap fun piece => slots piece.value).length) rest error

lemma BreaksOff.cons {slot left : Nat} {bytes : List UInt8} {error : FormatError} (piece : SpelledConstant)
    (h : BreaksOff (slot + piece.value.width) (left - piece.value.width) bytes error) :
    BreaksOff slot left (piece.bytes ++ bytes) error := by
  obtain ⟨constants, rest, rfl, hlt, hrest⟩ := h
  refine ⟨piece :: constants, rest, by simp, ?_, ?_⟩
  · rw [List.flatMap_cons, List.length_append, length_slots]
    omega
  · rwa [List.flatMap_cons, List.length_append, length_slots, ← Nat.add_assoc]

/-- **A pool fails at a constant**, with slots still to be filled. -/
lemma failsAs_readSlots (slot left : Nat) : FailsAs (ConstantPool.readSlots slot left) (BreaksOff slot left) := by
  fun_induction ConstantPool.readSlots slot left with
  | case1 => exact failsAs_pure _
  | case2 slot left ihwide ih =>
      refine ((failsAs_readConstant slot).bind (laidOut_readConstant slot)
        (fun value => BreaksOff (slot + value.width) (left + 1 - value.width)) fun value => ?_).mono ?_
      · rw [Constant.width]
        split
        · exact ihwide.bind_pure _
        · exact ih.bind_pure _
      · rintro bytes error (hfirst | ⟨value, used, rest, rfl, hspells, hlater⟩)
        · exact ⟨[], bytes, rfl, Nat.succ_pos left, hfirst⟩
        · exact hlater.cons ⟨value, used, hspells⟩

lemma failsAs_read :
    FailsAs ConstantPool.read fun bytes error => LacksData bytes error ∨
      ∃ (count : UInt16) (constants : List SpelledConstant) (rest : List UInt8),
        bytes = u2 count.toNat ++ constants.flatMap SpelledConstant.bytes ++ rest ∧
        (slotsOf constants).length < count.toNat ∧ Unreadable (slotsOf constants).length rest error := by
  refine (lacksData_u16.bind laidOut_u16 _ fun count => (failsAs_readSlots 1 (count.toNat - 1)).bind_pure _).mono ?_
  rintro bytes error (hshort | ⟨count, _, _, rfl, rfl, constants, rest, rfl, hlt, h⟩)
  · exact Or.inl hshort
  · rw [Nat.add_comm] at h
    refine Or.inr ⟨count, constants, rest, (List.append_assoc _ _ _).symm, ?_, h⟩
    rw [slotsOf, List.length_cons]
    omega

end Reader

/-! ## Pools -/

/-- The constants that were read tell the pool, and the cursor stands behind them. -/
lemma exists_constants_of_read {position : Nat} {bytes : List UInt8} {pool : ConstantPool} {cursor : Cursor}
    (h : ConstantPool.read ⟨position, bytes⟩ = .ok (pool, cursor)) :
    ∃ (count : UInt16) (constants : List SpelledConstant), pool = ⟨(slotsOf constants).toArray⟩ ∧
      Counts count.toNat (slotsOf constants) ∧
      bytes = u2 count.toNat ++ constants.flatMap SpelledConstant.bytes ++ cursor.rest ∧
      cursor.position = position + (u2 count.toNat ++ constants.flatMap SpelledConstant.bytes).length := by
  obtain ⟨used, hused, count, constants, hpool, hcounts, rfl⟩ := Reader.laidOut_pool _ _ _ _ h
  obtain ⟨taken, htaken, hdelimits⟩ := Reader.selfDelimiting_pool _ _ _ _ h
  -- Both are what the rest leaves of the bytes.
  obtain rfl : taken = _ := List.append_cancel_right (htaken.symm.trans hused)
  have hread := hdelimits.takes position cursor.rest
  rw [← hused, h] at hread
  refine ⟨count, constants, hpool, hcounts, hused, ?_⟩
  exact congrArg Cursor.position (Prod.mk.inj (Except.ok.inj hread)).2

/-- **Slots and constants stay in step.**

Where a pool is read, there are constants whose bytes, behind those of the count, are all that was taken, and

* the first of them stands at slot one, and each next one behind the one or two slots of its predecessor;
* their slots lie below the count, so that none of them is too large a number for its field;
* a look-up succeeds at their slots, with the constant there; it fails at slot zero, at the second slots of wide
  constants, and behind the last slot;
* there are as many slots as the count says, and at least slot zero, but one more if the last constant is wide and only
  its first slot is counted.

Where it is not read although there is enough data, the slot that the error names is the one behind the constants that
were read, and it lies below the count as well. -/
theorem pool_slots_in_step (position : Nat) (bytes : List UInt8) :
    (∀ pool cursor, ConstantPool.read ⟨position, bytes⟩ = .ok (pool, cursor) →
      ∃ (count : UInt16) (placed : List PlacedConstant),
        bytes = u2 count.toNat ++ placed.flatMap PlacedConstant.bytes ++ cursor.rest ∧
        cursor.position = position + (u2 count.toNat ++ placed.flatMap PlacedConstant.bytes).length ∧
        InStep placed ∧
        (∀ constant ∈ placed, constant.slot < count.toNat ∧ (UInt16.ofNat constant.slot).toNat = constant.slot) ∧
        (∀ index value, pool.get index = .ok value ↔
          ∃ constant ∈ placed, index.toNat = constant.slot ∧ constant.value = value) ∧
        (∀ index, pool.get index = .error (.badConstantIndex index) ↔
          index.toNat = 0 ∨
          (∃ constant ∈ placed, constant.value.isWide = true ∧ index.toNat = constant.slot + 1) ∨
          pool.size ≤ index.toNat) ∧
        (EndsBeyond count.toNat placed ∧ pool.size = count.toNat + 1 ∨
          ¬ EndsBeyond count.toNat placed ∧ pool.size = max count.toNat 1)) ∧
    ∀ error, ConstantPool.read ⟨position, bytes⟩ = .error error →
      (∃ offset, error = .truncated offset) ∨
      ∃ (count : UInt16) (placed : List PlacedConstant) (rest : List UInt8) (index : Index),
        bytes = u2 count.toNat ++ placed.flatMap PlacedConstant.bytes ++ rest ∧ InStep placed ∧
        index.toNat = slotBehind placed ∧ slotBehind placed < count.toNat ∧
        (error = .badUtf8 index ∨ ∃ tag ∈ rest.head?, error = .unknownConstantTag index tag) := by
  constructor
  · intro pool cursor h
    obtain ⟨count, constants, hpool, hcounts, hbytes, hposition⟩ := exists_constants_of_read h
    refine ⟨count, place 1 constants, ?_, ?_, inStep_place, ?_, ?_, fun _ => get_eq_error_iff_placed hpool, ?_⟩
    · rwa [flatMap_bytes_place]
    · rwa [flatMap_bytes_place]
    · intro constant hmem
      have hlt := slot_lt_of_counts hcounts hmem
      exact ⟨hlt, UInt16.toNat_ofNat_of_lt' (hlt.trans count.toNat_lt)⟩
    · intro index value
      rw [ConstantPool.get_eq_ok_iff, holds_iff_placed hpool]
    · rw [ConstantPool.size, hpool, List.size_toArray]
      exact length_slotsOf_of_counts hcounts
  · intro error h
    rcases Reader.failsAs_read _ _ _ h with hshort | ⟨count, constants, rest, hbytes, hlt, hrest⟩
    · exact Or.inl hshort
    have hslot : (UInt16.ofNat (slotsOf constants).length).toNat = (slotsOf constants).length :=
      UInt16.toNat_ofNat_of_lt' (hlt.trans count.toNat_lt)
    rcases hrest with hshort | hdefect
    · exact Or.inl hshort
    · refine Or.inr ⟨count, place 1 constants, rest, .ofNat (slotsOf constants).length, ?_, inStep_place, ?_, ?_,
        hdefect⟩
      · rwa [flatMap_bytes_place]
      · rw [hslot, slotBehind_place]
      · rwa [slotBehind_place]

/-! A text and a long number fill three slots behind slot zero, of which a count of three leaves the last one out.  An
unknown tag in the place of the number is reported for slot two. -/

/-- The text `A` and the number 42. -/
def lastLong : List UInt8 := [0, 3, 1, 0, 1, 0x41, 5, 0, 0, 0, 0, 0, 0, 0, 42]

def lastLongPool : ConstantPool := ⟨#[none, some (.utf8 "A"), some (.long 42), none]⟩

theorem pool_slots_in_step_last_long :
    ConstantPool.read ⟨0, lastLong ++ [7]⟩ = .ok (lastLongPool, ⟨15, [7]⟩) ∧
    (∃ (count : UInt16) (placed : List PlacedConstant),
      lastLong ++ [7] = u2 count.toNat ++ placed.flatMap PlacedConstant.bytes ++ [7] ∧ InStep placed ∧
      EndsBeyond count.toNat placed ∧ lastLongPool.size = count.toNat + 1) ∧
    lastLongPool.get 3 = .error (.badConstantIndex 3) ∧
    ConstantPool.read ⟨0, lastLong.take 6 ++ [99]⟩ = .error (.unknownConstantTag 2 99) ∧
    ∃ (count : UInt16) (placed : List PlacedConstant) (rest : List UInt8),
      lastLong.take 6 ++ [99] = u2 count.toNat ++ placed.flatMap PlacedConstant.bytes ++ rest ∧ InStep placed ∧
      slotBehind placed = 2 := by
  have hread : ConstantPool.read ⟨0, lastLong ++ [7]⟩ = .ok (lastLongPool, ⟨15, [7]⟩) := by decide +kernel
  have herror : ConstantPool.read ⟨0, lastLong.take 6 ++ [99]⟩ = .error (.unknownConstantTag 2 99) := by
    decide +kernel
  obtain ⟨count, placed, hbytes, -, hstep, -, -, hfails, hsize⟩ := (pool_slots_in_step 0 _).1 _ _ hread
  have hends : EndsBeyond count.toNat placed ∧ lastLongPool.size = count.toNat + 1 := by
    refine hsize.resolve_right ?_
    rintro ⟨-, hsize⟩
    have hfour : count.toNat = 4 := by
      have hpool : lastLongPool.size = 4 := rfl
      omega
    rw [hfour] at hbytes
    cases hbytes
  refine ⟨hread, ⟨count, placed, hbytes, hstep, hends⟩, ?_, herror, ?_⟩
  · obtain ⟨last, hlast, hwide, hslot⟩ := hends.1
    have hcount : lastLongPool.size = count.toNat + 1 := hends.2
    refine (hfails 3).mpr (Or.inr (Or.inl ⟨last, List.mem_of_getLast? hlast, hwide, ?_⟩))
    rw [hslot]
    exact Nat.succ.inj hcount
  · rcases (pool_slots_in_step 0 _).2 _ herror with
      ⟨offset, hshort⟩ | ⟨count, placed, rest, index, hbytes, hstep, hindex, -, htext | ⟨tag, -, htag⟩⟩
    · cases hshort
    · cases htext
    · cases htag
      exact ⟨count, placed, rest, hbytes, hstep, hindex.symm⟩

end JarSurvey.ClassFile
