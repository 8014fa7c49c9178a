import JarSurvey.Proofs.Text.Utf8
import JarSurvey.Text.ModifiedUtf8

/-!
# Reading modified UTF-8 undoes writing it

A text is written unit by unit (`encode`): NUL takes two bytes, a character beyond the basic plane the six
bytes of its surrogates, and any other character the bytes of plain UTF-8.

`decode` tries two readers in turn, so that its answer rests on two facts:

* **by units** every text comes back (`decodeByUnits_encode`);
* **the plain reader gives the text or refuses** (`eq_of_decodeFrom_encode`): it reads a character of the
  basic plane as it is meant, and stops at the first byte of NUL and of a surrogate pair.

What is read by units is a matter of groups of bytes (`Group`): bytes are read if they are groups to their end
(`units_eq_some_iff`), and refused where no group stands (`units_eq_none_iff`).  The characters of plain UTF-8 are
groups, too, unless they take four bytes, and up to these **both readers agree** (`decodeByUnits_utf8_iff`).
-/

namespace JarSurvey.Text.ModifiedUtf8

/-! ## The bytes of a text -/

/-- The 16-bit units of a character. -/
def unitsOf (c : Char) : List Nat :=
  if c.toNat < 0x10000 then [c.toNat]
  else [0xD800 + (c.toNat - 0x10000) / 0x400, 0xDC00 + (c.toNat - 0x10000) % 0x400]

/-- The bytes of a 16-bit unit. -/
def encodeUnit (unit : Nat) : List UInt8 :=
  if unit = 0 then [0xC0, 0x80]
  else if unit < 0x80 then [UInt8.ofNat unit]
  else if unit < 0x800 then [UInt8.ofNat (0xC0 + unit / 64), UInt8.ofNat (0x80 + unit % 64)]
  else
    [UInt8.ofNat (0xE0 + unit / 4096), UInt8.ofNat (0x80 + unit / 64 % 64),
      UInt8.ofNat (0x80 + unit % 64)]

/-- The bytes of a character. -/
def encodeChar (c : Char) : List UInt8 :=
  (unitsOf c).flatMap encodeUnit

/-- The bytes of a text. -/
def encode (text : String) : List UInt8 :=
  text.toList.flatMap encodeChar

lemma char_valid (c : Char) : c.toNat < 0xD800 ∨ 0xDFFF < c.toNat ∧ c.toNat < 0x110000 :=
  c.valid

lemma unitsOf_lt {c : Char} {unit : Nat} (h : unit ∈ unitsOf c) : unit < 0x10000 := by
  have hc := char_valid c
  unfold unitsOf at h
  split_ifs at h with hbasic <;> simp only [List.mem_cons, List.not_mem_nil, or_false] at h
  · omega
  · rcases h with h | h <;> omega

/-! ## By units -/

lemma toNat_byte {n : Nat} (h : n < 256) : (UInt8.ofNat n).toNat = n :=
  UInt8.toNat_ofNat_of_lt' h

/-- A byte that goes on with a group. -/
def Continues (byte : UInt8) : Prop :=
  0x80 ≤ byte.toNat ∧ byte.toNat < 0xC0

/-- The group of bytes spells the unit.  Overlong groups do, too. -/
inductive Group : List UInt8 → Nat → Prop
  | one {a : UInt8} (ha : a.toNat < 0x80) : Group [a] a.toNat
  | two {a b : UInt8} (ha : 0xC0 ≤ a.toNat ∧ a.toNat < 0xE0) (hb : Continues b) :
      Group [a, b] ((a.toNat - 0xC0) * 64 + (b.toNat - 0x80))
  | three {a b c : UInt8} (ha : 0xE0 ≤ a.toNat ∧ a.toNat < 0xF0) (hb : Continues b) (hc : Continues c) :
      Group [a, b, c] ((a.toNat - 0xE0) * 4096 + (b.toNat - 0x80) * 64 + (c.toNat - 0x80))

lemma isContinuation_iff {byte : UInt8} : isContinuation byte ↔ Continues byte := by
  rw [isContinuation, Continues, beq_iff_eq]
  omega

/-- **A group is read as its unit**, whatever follows. -/
lemma Group.units_append {group : List UInt8} {unit : Nat} (h : Group group unit) (rest : List UInt8) :
    units (group ++ rest) = (units rest).map (unit :: ·) := by
  cases h with
  | one ha =>
      rw [List.singleton_append, units.eq_def]
      exact if_pos ha
  | @two a b ha hb =>
      rw [List.cons_append, List.singleton_append, units.eq_def]
      dsimp only
      rw [if_neg (by omega), if_pos (by omega), if_pos (isContinuation_iff.mpr hb)]
      have hunit : a.toNat % 32 * 64 + b.toNat % 64 = (a.toNat - 0xC0) * 64 + (b.toNat - 0x80) := by
        rw [Continues] at hb
        omega
      rw [hunit]
  | @three a b c ha hb hc =>
      rw [List.cons_append, List.cons_append, List.singleton_append, units.eq_def]
      dsimp only
      rw [if_neg (by omega), if_neg (by omega), if_pos (by omega), isContinuation_iff.mpr hb,
        isContinuation_iff.mpr hc, Bool.and_self, if_pos rfl]
      have hunit : a.toNat % 16 * 4096 + b.toNat % 64 * 64 + c.toNat % 64 =
          (a.toNat - 0xE0) * 4096 + (b.toNat - 0x80) * 64 + (c.toNat - 0x80) := by
        rw [Continues] at hb hc
        omega
      rw [hunit]

lemma group_encodeUnit {unit : Nat} (h : unit < 0x10000) : Group (encodeUnit unit) unit := by
  have hcontinues : ∀ n < 64, Continues (UInt8.ofNat (0x80 + n)) := by
    intro n hn
    rw [Continues, toNat_byte (by omega)]
    omega
  unfold encodeUnit
  split_ifs with hzero hone htwo
  · subst hzero
    exact .two (by decide) ⟨by decide, by decide⟩
  · have hgroup : Group [UInt8.ofNat unit] (UInt8.ofNat unit).toNat := .one (by rwa [toNat_byte (by omega)])
    rwa [toNat_byte (by omega)] at hgroup
  · have hgroup := @Group.two (UInt8.ofNat (0xC0 + unit / 64)) (UInt8.ofNat (0x80 + unit % 64))
      (by rw [toNat_byte (by omega)]; omega) (hcontinues _ (by omega))
    rwa [toNat_byte (by omega), toNat_byte (by omega),
      show (0xC0 + unit / 64 - 0xC0) * 64 + (0x80 + unit % 64 - 0x80) = unit by omega] at hgroup
  · have hgroup := @Group.three (UInt8.ofNat (0xE0 + unit / 4096)) (UInt8.ofNat (0x80 + unit / 64 % 64))
      (UInt8.ofNat (0x80 + unit % 64)) (by rw [toNat_byte (by omega)]; omega) (hcontinues _ (by omega))
      (hcontinues _ (by omega))
    rwa [toNat_byte (by omega), toNat_byte (by omega), toNat_byte (by omega),
      show (0xE0 + unit / 4096 - 0xE0) * 4096 + (0x80 + unit / 64 % 64 - 0x80) * 64 + (0x80 + unit % 64 - 0x80) = unit
        by omega] at hgroup

lemma units_flatten {groups : List (List UInt8)} {us : List Nat} (h : List.Forall₂ Group groups us)
    (rest : List UInt8) : units (groups.flatten ++ rest) = (units rest).map (us ++ ·) := by
  induction h with
  | nil => simp
  | cons hgroup _ ih =>
      rw [List.flatten_cons, List.append_assoc, hgroup.units_append, ih, Option.map_map]
      rfl

/-- There are bytes, but no group stands at the front of them. -/
def Stuck (bytes : List UInt8) : Prop :=
  bytes ≠ [] ∧ ∀ group unit rest, Group group unit → bytes ≠ group ++ rest

lemma Group.length_pos {group : List UInt8} {unit : Nat} (h : Group group unit) : 0 < group.length := by
  cases h <;> simp

/-- **Bytes are refused where no group stands.** -/
lemma Stuck.units_eq_none {bytes : List UInt8} (h : Stuck bytes) : units bytes = none := by
  obtain ⟨hne, hstuck⟩ := h
  obtain ⟨a, rest, rfl⟩ := List.exists_cons_of_ne_nil hne
  rw [units.eq_def]
  dsimp only
  -- Each way to go on would have a group at the front.
  split_ifs with hone htwo hthree
  · exact absurd rfl (hstuck [a] _ rest (.one hone))
  · rcases rest with _ | ⟨b, rest⟩
    · rfl
    · refine if_neg fun hb => ?_
      exact absurd rfl (hstuck [a, b] _ rest (.two (by omega) (isContinuation_iff.mp hb)))
  · rcases rest with _ | ⟨b, _ | ⟨c, rest⟩⟩
    · rfl
    · rfl
    · refine if_neg fun hbc => ?_
      rw [Bool.and_eq_true, isContinuation_iff, isContinuation_iff] at hbc
      exact absurd rfl (hstuck [a, b, c] _ rest (.three (by omega) hbc.1 hbc.2))
  · rfl

/-- All bytes are groups up to a place where none stands, or to the end. -/
lemma exists_groups (bytes : List UInt8) :
    ∃ groups us rest, List.Forall₂ Group groups us ∧ groups.flatten ++ rest = bytes ∧ (rest = [] ∨ Stuck rest) := by
  induction hlength : bytes.length using Nat.strong_induction_on generalizing bytes with
  | _ length ih =>
    by_cases hempty : bytes = []
    · exact ⟨[], [], [], .nil, hempty.symm, Or.inl rfl⟩
    by_cases hstuck : Stuck bytes
    · exact ⟨[], [], bytes, .nil, rfl, Or.inr hstuck⟩
    simp only [Stuck, not_and, not_forall, not_not] at hstuck
    obtain ⟨group, unit, later, hgroup, rfl⟩ := hstuck hempty
    have hshorter : later.length < length := by
      rw [← hlength, List.length_append]
      exact Nat.lt_add_of_pos_left hgroup.length_pos
    obtain ⟨groups, us, rest, hgroups, rfl, hrest⟩ := ih _ hshorter later rfl
    exact ⟨group :: groups, unit :: us, rest, .cons hgroup hgroups, by simp, hrest⟩

/-- **Bytes are read as units exactly if they are groups to their end.** -/
lemma units_eq_some_iff {bytes : List UInt8} {us : List Nat} :
    units bytes = some us ↔ ∃ groups, groups.flatten = bytes ∧ List.Forall₂ Group groups us := by
  constructor
  · intro h
    obtain ⟨groups, found, rest, hgroups, rfl, rfl | hstuck⟩ := exists_groups bytes
    · rw [units_flatten hgroups] at h
      simp only [units, Option.map_some, List.append_nil, Option.some.injEq] at h
      subst h
      exact ⟨groups, by simp, hgroups⟩
    · rw [units_flatten hgroups, hstuck.units_eq_none] at h
      cases h
  · rintro ⟨groups, rfl, hgroups⟩
    have hunits := units_flatten hgroups []
    simpa [units] using hunits

/-- **They are refused exactly if the groups stop before their end.** -/
lemma units_eq_none_iff {bytes : List UInt8} :
    units bytes = none ↔
      ∃ groups us rest, List.Forall₂ Group groups us ∧ groups.flatten ++ rest = bytes ∧ Stuck rest := by
  constructor
  · intro h
    obtain ⟨groups, us, rest, hgroups, hbytes, rfl | hstuck⟩ := exists_groups bytes
    · rw [units_eq_some_iff.mpr ⟨groups, by simpa using hbytes, hgroups⟩] at h
      cases h
    · exact ⟨groups, us, rest, hgroups, hbytes, hstuck⟩
  · rintro ⟨groups, us, rest, hgroups, rfl, hstuck⟩
    rw [units_flatten hgroups, hstuck.units_eq_none]
    rfl

lemma units_flatMap_encodeUnit {us : List Nat} (h : ∀ unit ∈ us, unit < 0x10000) :
    units (us.flatMap encodeUnit) = some us := by
  refine units_eq_some_iff.mpr ⟨us.map encodeUnit, rfl, ?_⟩
  rw [List.forall₂_map_left_iff, List.forall₂_same]
  exact fun unit hunit => group_encodeUnit (h unit hunit)

/-- **The units of a character make that character**, whatever follows. -/
lemma ofUnits_unitsOf (c : Char) (rest : List Nat) : ofUnits (unitsOf c ++ rest) = c :: ofUnits rest := by
  have hvalid := char_valid c
  have hc : Char.ofNat c.toNat = c := Char.ofNat_toNat c
  unfold unitsOf
  split_ifs with hbasic <;> simp only [List.cons_append, List.nil_append]
  · have hhigh : isHigh c.toNat = false := by simp [isHigh]; omega
    have hlow : isLow c.toNat = false := by simp [isLow]; omega
    cases rest <;> simp [ofUnits, hhigh, hlow]
  · generalize c.toNat = v at *
    subst hc
    have hhigh : isHigh (0xD800 + (v - 0x10000) / 0x400) = true := by simp [isHigh]; omega
    have hlow : isLow (0xDC00 + (v - 0x10000) % 0x400) = true := by simp [isLow]; omega
    rw [ofUnits, if_pos hhigh, if_pos hlow, show 0x10000 +
      (0xD800 + (v - 0x10000) / 0x400 - 0xD800) * 0x400 +
        (0xDC00 + (v - 0x10000) % 0x400 - 0xDC00) = v by omega]

lemma ofUnits_flatMap_unitsOf (cs : List Char) : ofUnits (cs.flatMap unitsOf) = cs := by
  induction cs with
  | nil => simp [ofUnits]
  | cons c cs ih => rw [List.flatMap_cons, ofUnits_unitsOf, ih]

lemma decodeByUnits_encode (text : String) : decodeByUnits (encode text) = some text := by
  have hunits : encode text = (text.toList.flatMap unitsOf).flatMap encodeUnit := by
    rw [List.flatMap_assoc]
    rfl
  have hlt : ∀ unit ∈ text.toList.flatMap unitsOf, unit < 0x10000 := by
    intro unit h
    obtain ⟨c, -, hc⟩ := List.mem_flatMap.mp h
    exact unitsOf_lt hc
  rw [decodeByUnits, hunits, units_flatMap_encodeUnit hlt, Option.map_some, ofUnits_flatMap_unitsOf,
    String.ofList_toList]

/-! ## As plain UTF-8 -/

lemma encodeChar_nul {c : Char} (h : c.toNat = 0) : encodeChar c = [0xC0, 0x80] := by
  rw [encodeChar, unitsOf, h]
  rfl

lemma encodeChar_pair {c : Char} (h : 0x10000 ≤ c.toNat) :
    ∃ second more, encodeChar c = 0xED :: second :: more ∧ ¬ second ≤ 0x9F := by
  have hvalid := char_valid c
  have hlead : ∀ half < 0x400, 0xE0 + (0xD800 + half) / 4096 = 0xED := by omega
  rw [encodeChar, unitsOf, if_neg (by omega), List.flatMap_cons, encodeUnit, if_neg (by omega),
    if_neg (by omega), if_neg (by omega), hlead _ (by omega), List.cons_append, List.cons_append]
  refine ⟨_, _, rfl, ?_⟩
  rw [UInt8.le_iff_toNat_le, toNat_byte (by omega), show (0x9F : UInt8).toNat = 0x9F from rfl]
  omega

/-- A character beyond the basic plane takes three bytes for each of its surrogates. -/
lemma encodeChar_surrogates {c : Char} (h : 0x10000 ≤ c.toNat) :
    ∃ high low, encodeChar c = high ++ low ∧ high.length = 3 ∧ low.length = 3 ∧
      Group high (0xD800 + (c.toNat - 0x10000) / 0x400) ∧ Group low (0xDC00 + (c.toNat - 0x10000) % 0x400) := by
  have hvalid := char_valid c
  have hlength : ∀ unit, 0x800 ≤ unit → (encodeUnit unit).length = 3 := by
    intro unit hunit
    rw [encodeUnit, if_neg (by omega), if_neg (by omega), if_neg (by omega)]
    rfl
  refine ⟨_, _, ?_, hlength _ ?_, hlength _ ?_, group_encodeUnit ?_, group_encodeUnit ?_⟩
  · rw [encodeChar, unitsOf, if_neg (by omega), List.flatMap_cons, List.flatMap_singleton]
  all_goals omega

lemma piece_surrogate {second : UInt8} (h : ¬ second ≤ 0x9F) (rest : List UInt8) :
    Utf8.piece 0xED (second :: rest) = .invalid 1 := by
  rw [Utf8.piece, show Utf8.lead 0xED = some ⟨2, 0x80, 0x9F, 13⟩ from rfl]
  simp only [Utf8.follow, h, and_false, if_false]

/-- The bytes of NUL and of a surrogate pair begin no character of plain UTF-8. -/
lemma piece_encodeChar_special {c : Char} (h : c.toNat = 0 ∨ 0x10000 ≤ c.toNat) :
    ∃ byte more, encodeChar c = byte :: more ∧ ∀ rest, Utf8.piece byte (more ++ rest) = .invalid 1 := by
  rcases h with h | h
  · exact ⟨0xC0, [0x80], encodeChar_nul h, fun rest => rfl⟩
  · obtain ⟨second, more, hbytes, hsecond⟩ := encodeChar_pair h
    exact ⟨0xED, second :: more, hbytes, fun rest => piece_surrogate hsecond (more ++ rest)⟩

/-- Every other character has the bytes of plain UTF-8. -/
lemma encodeChar_plain {c : Char} (hzero : c.toNat ≠ 0) (hbasic : c.toNat < 0x10000) :
    encodeChar c = String.utf8EncodeChar c := by
  have hv : c.val.toNat = c.toNat := rfl
  rw [encodeChar, unitsOf, if_pos hbasic, List.flatMap_singleton, encodeUnit, String.utf8EncodeChar, hv,
    if_neg hzero]
  by_cases hone : c.toNat < 0x80
  · rw [if_pos hone, if_pos (show c.toNat ≤ 127 by omega)]
  rw [if_neg hone, if_neg (show ¬ c.toNat ≤ 127 by omega)]
  by_cases htwo : c.toNat < 0x800
  · rw [if_pos htwo, if_pos (show c.toNat ≤ 2047 by omega), Nat.add_comm 0xC0, Nat.add_comm 0x80,
      Nat.mod_eq_of_lt (show c.toNat / 64 < 32 by omega)]
  · rw [if_neg htwo, if_neg (show ¬ c.toNat ≤ 2047 by omega), if_pos (show c.toNat ≤ 65535 by omega),
      Nat.add_comm 0xE0, Nat.add_comm 0x80, Nat.add_comm 0x80,
      Nat.mod_eq_of_lt (show c.toNat / 4096 < 16 by omega)]

/-- **What the plain reader accepts is the text that was written.** -/
lemma eq_of_decodeFrom_encode {seen : List Char} {index : Nat} {cs found : List Char}
    (h : Utf8.decodeFrom seen index 0 (cs.flatMap encodeChar) = .ok found) :
    found = seen.reverse ++ cs := by
  induction cs generalizing seen index with
  | nil => simpa [Utf8.decodeFrom, eq_comm] using h
  | cons c cs ih =>
      rw [List.flatMap_cons] at h
      by_cases hspecial : c.toNat = 0 ∨ 0x10000 ≤ c.toNat
      · obtain ⟨byte, more, hbytes, hpiece⟩ := piece_encodeChar_special hspecial
        rw [hbytes, List.cons_append, Utf8.decodeFrom, hpiece] at h
        exact absurd h (by simp)
      · obtain ⟨byte, more, hbytes, hpiece⟩ := Utf8.piece_encode c (cs.flatMap encodeChar)
        rw [encodeChar_plain (by omega) (by omega), hbytes, List.cons_append, Utf8.decodeFrom,
          hpiece] at h
        simp only [Nat.add_sub_cancel] at h
        rw [Utf8.decodeFrom_skip] at h
        rw [ih h]
        simp

/-- **Every text comes back from its bytes**, whichever reader answers. -/
lemma decode_encode (text : String) : decode (encode text) = some text := by
  unfold decode Utf8.decode
  cases h : Utf8.decodeFrom [] 0 0 (encode text) with
  | ok found =>
      rw [eq_of_decodeFrom_encode h]
      simp [Except.map]
  | error fault => exact decodeByUnits_encode text

/-! ## Where both readers answer -/

lemma Group.toNat_lt {group : List UInt8} {unit : Nat} (h : Group group unit) {byte : UInt8} (hbyte : byte ∈ group) :
    byte.toNat < 0xF0 := by
  cases h with
  | one ha =>
      simp only [List.mem_singleton] at hbyte
      subst hbyte
      omega
  | two ha hb =>
      simp only [List.mem_cons, List.not_mem_nil, or_false] at hbyte
      rw [Continues] at hb
      rcases hbyte with rfl | rfl <;> omega
  | three ha hb hc =>
      simp only [List.mem_cons, List.not_mem_nil, or_false] at hbyte
      rw [Continues] at hb hc
      rcases hbyte with rfl | rfl | rfl <;> omega

lemma toNat_lt_of_groups {groups : List (List UInt8)} {us : List Nat} (h : List.Forall₂ Group groups us)
    {byte : UInt8} (hbyte : byte ∈ groups.flatten) : byte.toNat < 0xF0 := by
  induction h with
  | nil => cases hbyte
  | cons hgroup _ ih =>
      rw [List.flatten_cons, List.mem_append] at hbyte
      exact hbyte.elim hgroup.toNat_lt ih

/-- In plain UTF-8, too, a character of the basic plane is a group, NUL included. -/
lemma group_utf8EncodeChar {c : Char} (h : c.toNat < 0x10000) : Group (String.utf8EncodeChar c) c.toNat := by
  by_cases hzero : c.toNat = 0
  · have hc : c = '\x00' := Char.toNat_inj.mp hzero
    subst hc
    exact .one (by decide)
  · rw [← encodeChar_plain hzero h, encodeChar, unitsOf, if_pos h, List.flatMap_singleton]
    exact group_encodeUnit h

/-- Any other character takes four bytes, the first of which stands in no group. -/
lemma toNat_lt_of_utf8EncodeChar {c : Char} (h : ∀ byte ∈ String.utf8EncodeChar c, byte.toNat < 0xF0) :
    c.toNat < 0x10000 := by
  by_contra hwide
  have hv : c.val.toNat = c.toNat := rfl
  rw [String.utf8EncodeChar, hv, if_neg (by omega), if_neg (by omega), if_neg (by omega)] at h
  have hfirst := h _ List.mem_cons_self
  rw [toNat_byte (by omega)] at hfirst
  omega

/-- **On plain UTF-8 the readers agree exactly if there is no sequence of four bytes.** -/
lemma decodeByUnits_utf8_iff (text : String) :
    decodeByUnits (Utf8.encode text) = some text ↔ ∀ byte ∈ Utf8.encode text, byte.toNat < 0xF0 := by
  constructor
  · intro h byte hbyte
    obtain ⟨us, hunits, -⟩ := Option.map_eq_some_iff.mp h
    obtain ⟨groups, hflatten, hgroups⟩ := units_eq_some_iff.mp hunits
    exact toNat_lt_of_groups hgroups (hflatten ▸ hbyte)
  · intro h
    rw [Utf8.encode_eq_flatMap] at h ⊢
    have hbasic : ∀ c ∈ text.toList, c.toNat < 0x10000 := fun c hc =>
      toNat_lt_of_utf8EncodeChar fun byte hbyte => h byte (List.mem_flatMap.mpr ⟨c, hc, hbyte⟩)
    have hunits : units (text.toList.flatMap String.utf8EncodeChar) = some (text.toList.flatMap unitsOf) := by
      refine units_eq_some_iff.mpr ⟨text.toList.map String.utf8EncodeChar, rfl, ?_⟩
      have hsingle : text.toList.flatMap unitsOf = text.toList.map Char.toNat := by
        rw [List.map_eq_flatMap]
        exact List.flatMap_congr fun c hc => if_pos (hbasic c hc)
      rw [hsingle, List.forall₂_map_left_iff, List.forall₂_map_right_iff, List.forall₂_same]
      exact fun c hc => group_utf8EncodeChar (hbasic c hc)
    rw [decodeByUnits, hunits, Option.map_some, ofUnits_flatMap_unitsOf, String.ofList_toList]

end JarSurvey.Text.ModifiedUtf8
