import JarSurvey.Proofs.ClassFile.Decoding

/-!
# Text constants

The bytes of a text constant are read as plain UTF-8 first and unit by unit if that fails.  What the second reader
does with any bytes is known from their groups (`units_eq_some_iff`, `units_eq_none_iff`); here it is seen through the
reader of the pool, which **takes all of the bytes or refuses them** for the slot of the constant, and looks at nothing
that follows.
-/

namespace JarSurvey.ClassFile

open Layout Text

namespace Reader

variable {bytes : List UInt8}

lemma refuses_readText (slot : Nat) (htext : ModifiedUtf8.decode bytes = none) (h : bytes.length < 0x10000) :
    Refuses (ConstantPool.readText slot) (.badUtf8 (UInt16.ofNat slot)) (u2 bytes.length ++ bytes) := by
  refine (takes_count h).bind_refuses ?_
  rw [UInt16.toNat_ofNat_of_lt' h]
  refine (takes_take _).bind_throw ?_
  rw [htext]

/-- **The bytes of a text constant are all taken, or refused for its slot.** -/
lemma takes_or_refuses_text (index : Index) (h : bytes.length < 0x10000) :
    (∃ text, ModifiedUtf8.decode bytes = some text ∧
      Takes (ConstantPool.readConstant index.toNat) (.utf8 text) (1 :: (u2 bytes.length ++ bytes))) ∨
    ModifiedUtf8.decode bytes = none ∧
      Refuses (ConstantPool.readConstant index.toNat) (.badUtf8 index) (1 :: (u2 bytes.length ++ bytes)) := by
  cases htext : ModifiedUtf8.decode bytes with
  | some text => exact Or.inl ⟨text, rfl, takes_tag ((takes_readText _ htext h).bind_pure _)⟩
  | none =>
      have hrefuses := refuses_readText index.toNat htext h
      rw [UInt16.ofNat_toNat] at hrefuses
      exact Or.inr ⟨rfl, (takes_u8 1).bind_refuses (hrefuses.bind _)⟩

end Reader

/-- **Reading texts undoes writing them, and the two readers agree.**

* Every text comes back from its modified UTF-8, which has the bytes of plain UTF-8 but for NUL in two bytes and
  surrogates in three bytes each.
* On the plain UTF-8 of a text, the plain reader gives the text.  Reading by units gives it, too, exactly if no byte
  begins a sequence of four.
* Reading by units succeeds on bytes that are groups to their end, and gives their units; it fails on all others, where
  behind some groups there are bytes with no group at the front.
* A constant with bytes that are not plain UTF-8 is the text of all their units, and the reader of the pool stands
  right behind them, or it is refused with its index.  What follows the bytes makes no difference to this. -/
theorem text_constants_decoded :
    (∀ text, ModifiedUtf8.decode (ModifiedUtf8.encode text) = some text ∧
      ModifiedUtf8.encode text = text.toList.flatMap ModifiedUtf8.encodeChar) ∧
    (∀ c : Char, (c.toNat = 0 → ModifiedUtf8.encodeChar c = [0xC0, 0x80]) ∧
      (c.toNat ≠ 0 → c.toNat < 0x10000 → ModifiedUtf8.encodeChar c = String.utf8EncodeChar c) ∧
      (0x10000 ≤ c.toNat → ∃ high low, ModifiedUtf8.encodeChar c = high ++ low ∧ high.length = 3 ∧ low.length = 3 ∧
        ModifiedUtf8.Group high (0xD800 + (c.toNat - 0x10000) / 0x400) ∧
        ModifiedUtf8.Group low (0xDC00 + (c.toNat - 0x10000) % 0x400))) ∧
    (∀ text, Utf8.decode (Utf8.encode text) = .ok text ∧
      (ModifiedUtf8.decodeByUnits (Utf8.encode text) = some text ↔
        ∀ byte ∈ Utf8.encode text, byte.toNat < 0xF0)) ∧
    (∀ bytes us, ModifiedUtf8.units bytes = some us ↔
      ∃ groups, groups.flatten = bytes ∧ List.Forall₂ ModifiedUtf8.Group groups us) ∧
    (∀ bytes, ModifiedUtf8.units bytes = none ↔
      ∃ groups us rest, List.Forall₂ ModifiedUtf8.Group groups us ∧ groups.flatten ++ rest = bytes ∧
        ModifiedUtf8.Stuck rest) ∧
    (∀ (index : Index) (bytes : List UInt8) (fault : Utf8.Fault), bytes.length < 0x10000 →
      Utf8.decode bytes = .error fault →
        (∃ us, ModifiedUtf8.units bytes = some us ∧
          Reader.Takes (ConstantPool.readConstant index.toNat) (.utf8 (String.ofList (ModifiedUtf8.ofUnits us)))
            (1 :: (u2 bytes.length ++ bytes))) ∨
        ModifiedUtf8.units bytes = none ∧
          Reader.Refuses (ConstantPool.readConstant index.toNat) (.badUtf8 index)
            (1 :: (u2 bytes.length ++ bytes))) := by
  refine ⟨fun text => ⟨ModifiedUtf8.decode_encode text, rfl⟩,
    fun _ => ⟨ModifiedUtf8.encodeChar_nul, ModifiedUtf8.encodeChar_plain, ModifiedUtf8.encodeChar_surrogates⟩,
    fun text => ⟨Utf8.decode_encode text, ModifiedUtf8.decodeByUnits_utf8_iff text⟩, fun _ _ => ModifiedUtf8.units_eq_some_iff, fun _ => ModifiedUtf8.units_eq_none_iff, ?_⟩
  intro index bytes fault hlength hfault
  have hdecode : ModifiedUtf8.decode bytes = ModifiedUtf8.decodeByUnits bytes := by
    rw [ModifiedUtf8.decode, hfault]
  rcases Reader.takes_or_refuses_text index hlength with ⟨text, htext, htakes⟩ | ⟨hnone, hrefuses⟩
  · rw [hdecode] at htext
    obtain ⟨us, hunits, rfl⟩ := Option.map_eq_some_iff.mp htext
    exact Or.inl ⟨us, hunits, htakes⟩
  · rw [hdecode] at hnone
    exact Or.inr ⟨Option.map_eq_none_iff.mp hnone, hrefuses⟩

/-! A text with NUL, a letter of two bytes and a character beyond the basic plane comes back.  Without the last of them
both readers take its plain UTF-8.  NUL in two bytes is read, and so is a surrogate without its partner; a group that
the end cuts off is refused. -/

theorem text_constants_decoded_nul :
    ModifiedUtf8.decode (ModifiedUtf8.encode "\x00é😀") = some "\x00é😀" ∧
    ModifiedUtf8.encodeChar '\x00' = [0xC0, 0x80] ∧ ModifiedUtf8.encodeChar 'é' = [0xC3, 0xA9] ∧
    (∃ high low, ModifiedUtf8.encodeChar '😀' = high ++ low ∧ ModifiedUtf8.Group high 0xD83D ∧
      ModifiedUtf8.Group low 0xDE00) ∧
    ModifiedUtf8.decodeByUnits (Utf8.encode "\x00é") = some "\x00é" ∧
    Utf8.decode [0xC0, 0x80, 0xED, 0xA0, 0x80] = .error ⟨0, some 1⟩ ∧
    Reader.Takes (ConstantPool.readConstant 7) (.utf8 "\x00\uFFFD") [1, 0, 5, 0xC0, 0x80, 0xED, 0xA0, 0x80] ∧
    Utf8.decode [0x41, 0xE0, 0x80] = .error ⟨1, some 1⟩ ∧
    Reader.Refuses (ConstantPool.readConstant 7) (.badUtf8 7) [1, 0, 3, 0x41, 0xE0, 0x80] := by
  obtain ⟨hback, hformat, hplain, -, -, hpool⟩ := text_constants_decoded
  have hnul : Utf8.decode [0xC0, 0x80, 0xED, 0xA0, 0x80] = .error ⟨0, some 1⟩ := by decide
  have hcut : Utf8.decode [0x41, 0xE0, 0x80] = .error ⟨1, some 1⟩ := by decide
  refine ⟨(hback _).1, (hformat _).1 rfl, (hformat _).2.1 (by decide) (by decide), ?_, ?_, hnul, ?_, hcut, ?_⟩
  · obtain ⟨high, low, hbytes, -, -, hhigh, hlow⟩ := (hformat '😀').2.2 (by decide)
    exact ⟨high, low, hbytes, hhigh, hlow⟩
  · have hlow : (Utf8.encode "\x00é").all (fun byte => byte.toNat < 0xF0) = true := by decide
    exact (hplain _).2.mpr fun byte hbyte => of_decide_eq_true (List.all_eq_true.mp hlow byte hbyte)
  · rcases hpool 7 _ _ (by decide) hnul with ⟨us, hunits, htakes⟩ | ⟨hunits, -⟩
    · cases hunits
      exact htakes
    · cases hunits
  · rcases hpool 7 _ _ (by decide) hcut with ⟨us, hunits, -⟩ | ⟨-, hrefuses⟩
    · cases hunits
    · exact hrefuses

end JarSurvey.ClassFile
