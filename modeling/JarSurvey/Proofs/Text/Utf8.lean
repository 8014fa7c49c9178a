import JarSurvey.Text.Utf8
import Mathlib.Tactic

/-!
# Reading UTF-8 undoes writing it

Both readers give back a text from its bytes.  `piece_encode` is the step: **at the front of the bytes of a
character stands that character**, whatever follows.  The four lengths of a character are told apart by its
code point, and each range of the first byte that `lead` distinguishes is one range of code points.

* `decode_encode` — the strict reader gives back every text;
* `decodeLossy_encode` — so does the lossy reader, which replaces nothing then;
* `mem_encode_iff` — a byte below `0x80` is a character of its own, never a part of another;
* `encode_of_decode` — the strict reader accepts nothing but the bytes of a text.  A character is read from its
  own bytes only (`encode_of_piece`): for each promise of a first byte this is arithmetic on what it stands for.
-/

namespace JarSurvey.Text.Utf8

/-! ## The bytes of a text -/

lemma toList_loop (bytes : ByteArray) (i : Nat) (seen : List UInt8) :
    ByteArray.toList.loop bytes i seen = seen.reverse ++ bytes.data.toList.drop i := by
  rw [ByteArray.toList.loop]
  split_ifs with h
  · have hi : i < bytes.data.toList.length := by simpa using h
    have hget : bytes.get! i = bytes.data.toList[i] := by
      simp [ByteArray.get!, h]
    rw [toList_loop bytes (i + 1), List.drop_eq_getElem_cons hi, hget]
    simp
  · rw [List.drop_eq_nil_of_le (by simpa using h)]
    simp
termination_by bytes.size - i

/-- The bytes of a text. -/
def encode (text : String) : List UInt8 :=
  text.toByteArray.data.toList

lemma toList_toUTF8 (text : String) : text.toUTF8.toList = encode text := by
  rw [ByteArray.toList, toList_loop]
  rfl

/-- The bytes of a text are those of its characters, one after the other. -/
lemma encode_eq_flatMap (text : String) : encode text = text.toList.flatMap String.utf8EncodeChar := by
  rw [encode, ← String.utf8Encode_toList]
  simp [List.utf8Encode]

lemma encode_append (a b : String) : encode (a ++ b) = encode a ++ encode b := by
  simp [encode]

lemma encode_join (texts : List String) : encode (String.join texts) = texts.flatMap encode := by
  rw [encode_eq_flatMap, String.toList_join, List.flatMap_assoc]
  exact List.flatMap_congr fun text _ => (encode_eq_flatMap text).symm

lemma encode_intercalate (separator : String) (texts : List String) :
    encode (separator.intercalate texts) = (encode separator).intercalate (texts.map encode) := by
  induction texts with
  | nil => rfl
  | cons text texts ih =>
      cases texts with
      | nil => simp
      | cons next texts =>
          rw [String.intercalate_cons_cons, encode_append, encode_append, ih]
          simp [List.intercalate_cons_cons]

/-! ## The piece of a character -/

lemma follow_cons {left value width n : Nat} {low high : UInt8} {rest : List UInt8} (hn : n < 256)
    (hlow : low.toNat ≤ n) (hhigh : n ≤ high.toNat) :
    follow (left + 1) low high value width (UInt8.ofNat n :: rest) =
      follow left 0x80 0xBF (value * 64 + n % 64) (width + 1) rest := by
  have hbyte : (UInt8.ofNat n).toNat = n := UInt8.toNat_ofNat_of_lt' hn
  rw [follow, if_pos]
  · rw [hbyte]
  · rw [UInt8.le_iff_toNat_le, UInt8.le_iff_toNat_le, hbyte]
    exact ⟨hlow, hhigh⟩

/-- **The piece at the front of the bytes of a character is the character.** -/
lemma piece_encode (c : Char) (rest : List UInt8) :
    ∃ byte more, String.utf8EncodeChar c = byte :: more ∧
      piece byte (more ++ rest) = .char c (more.length + 1) := by
  have hc : Char.ofNat c.toNat = c := Char.ofNat_toNat c
  have hvalid : c.toNat < 0xD800 ∨ 0xDFFF < c.toNat ∧ c.toNat < 0x110000 := c.valid
  have hv : c.val.toNat = c.toNat := rfl
  have hbyte : ∀ n < 256, (UInt8.ofNat n).toNat = n := fun n hn => UInt8.toNat_ofNat_of_lt' hn
  have h80 : (0x80 : UInt8).toNat = 0x80 := rfl
  have hBF : (0xBF : UInt8).toNat = 0xBF := rfl
  rw [String.utf8EncodeChar, hv]
  generalize c.toNat = v at hc hvalid
  subst hc
  split_ifs with h1 h2 h3
  · refine ⟨_, _, rfl, ?_⟩
    rw [piece, lead, hbyte _ (by omega), if_pos (by omega)]
    rfl
  · refine ⟨_, _, rfl, ?_⟩
    rw [piece, lead, hbyte _ (by omega), if_neg (by omega), if_neg (by omega), if_pos (by omega)]
    simp only [List.cons_append, List.nil_append]
    rw [follow_cons (by omega) (by omega) (by omega), follow]
    congr 2
    omega
  · refine ⟨_, _, rfl, ?_⟩
    have hA0 : (0xA0 : UInt8).toNat = 0xA0 := rfl
    have h9F : (0x9F : UInt8).toNat = 0x9F := rfl
    have hfollow : ∀ low high : UInt8, low.toNat ≤ v / 64 % 64 + 128 → v / 64 % 64 + 128 ≤ high.toNat →
        follow 2 low high ((v / 4096 % 16 + 224) % 16) 1
          (UInt8.ofNat (v / 64 % 64 + 128) :: UInt8.ofNat (v % 64 + 128) :: rest) =
            .char (Char.ofNat v) 3 := by
      intro low high hlow hhigh
      rw [follow_cons (by omega) hlow hhigh, follow_cons (by omega) (by omega) (by omega), follow]
      congr 2
      omega
    rw [piece, lead, hbyte _ (by omega), if_neg (by omega), if_neg (by omega), if_neg (by omega)]
    -- The first byte narrows the second one where an overlong form or a surrogate would be meant.
    by_cases hE0 : v / 4096 % 16 + 224 = 0xE0
    · rw [if_pos hE0]
      exact hfollow 0xA0 0xBF (by omega) (by omega)
    rw [if_neg hE0]
    by_cases hED : v / 4096 % 16 + 224 = 0xED
    · rw [if_pos hED]
      exact hfollow 0x80 0x9F (by omega) (by omega)
    · rw [if_neg hED, if_pos (by omega)]
      exact hfollow 0x80 0xBF (by omega) (by omega)
  · refine ⟨_, _, rfl, ?_⟩
    have h90 : (0x90 : UInt8).toNat = 0x90 := rfl
    have h8F : (0x8F : UInt8).toNat = 0x8F := rfl
    have hfollow : ∀ low high : UInt8, low.toNat ≤ v / 4096 % 64 + 128 →
        v / 4096 % 64 + 128 ≤ high.toNat →
        follow 3 low high ((v / 262144 % 8 + 240) % 8) 1
          (UInt8.ofNat (v / 4096 % 64 + 128) :: UInt8.ofNat (v / 64 % 64 + 128) ::
            UInt8.ofNat (v % 64 + 128) :: rest) = .char (Char.ofNat v) 4 := by
      intro low high hlow hhigh
      rw [follow_cons (by omega) hlow hhigh, follow_cons (by omega) (by omega) (by omega),
        follow_cons (by omega) (by omega) (by omega), follow]
      congr 2
      omega
    rw [piece, lead, hbyte _ (by omega), if_neg (by omega), if_neg (by omega), if_neg (by omega),
      if_neg (by omega), if_neg (by omega), if_neg (by omega)]
    by_cases hF0 : v / 262144 % 8 + 240 = 0xF0
    · rw [if_pos hF0]
      exact hfollow 0x90 0xBF (by omega) (by omega)
    rw [if_neg hF0]
    by_cases hF4 : v / 262144 % 8 + 240 < 0xF4
    · rw [if_pos hF4]
      exact hfollow 0x80 0xBF (by omega) (by omega)
    · rw [if_neg hF4, if_pos (by omega)]
      exact hfollow 0x80 0x8F (by omega) (by omega)

/-! ## Whole texts -/

lemma decodeFrom_skip (seen : List Char) (index : Nat) (skipped rest : List UInt8) :
    decodeFrom seen index skipped.length (skipped ++ rest) =
      decodeFrom seen (index + skipped.length) 0 rest := by
  induction skipped generalizing index with
  | nil => rfl
  | cons byte skipped ih =>
      rw [List.length_cons, List.cons_append, decodeFrom, ih, Nat.add_assoc, Nat.add_comm 1]

lemma decodeLossyFrom_skip (seen : List Char) (skipped rest : List UInt8) :
    decodeLossyFrom seen skipped.length (skipped ++ rest) = decodeLossyFrom seen 0 rest := by
  induction skipped with
  | nil => rfl
  | cons byte skipped ih => rw [List.length_cons, List.cons_append, decodeLossyFrom, ih]

lemma decodeFrom_encode (seen : List Char) (index : Nat) (cs : List Char) :
    decodeFrom seen index 0 (cs.flatMap String.utf8EncodeChar) = .ok (seen.reverse ++ cs) := by
  induction cs generalizing seen index with
  | nil => simp [decodeFrom]
  | cons c cs ih =>
      obtain ⟨byte, more, henc, hpiece⟩ := piece_encode c (cs.flatMap String.utf8EncodeChar)
      rw [List.flatMap_cons, henc, List.cons_append, decodeFrom, hpiece]
      simp only [Nat.add_sub_cancel]
      rw [decodeFrom_skip, ih]
      simp

lemma decodeLossyFrom_encode (seen : List Char) (cs : List Char) :
    decodeLossyFrom seen 0 (cs.flatMap String.utf8EncodeChar) = seen.reverse ++ cs := by
  induction cs generalizing seen with
  | nil => simp [decodeLossyFrom]
  | cons c cs ih =>
      obtain ⟨byte, more, henc, hpiece⟩ := piece_encode c (cs.flatMap String.utf8EncodeChar)
      rw [List.flatMap_cons, henc, List.cons_append, decodeLossyFrom, hpiece]
      simp only [Nat.add_sub_cancel]
      rw [decodeLossyFrom_skip, ih]
      simp

/-- **The strict reader gives back every text from its bytes.** -/
lemma decode_encode (text : String) : decode (encode text) = .ok text := by
  rw [decode, encode_eq_flatMap, decodeFrom_encode]
  exact congrArg Except.ok (String.ofList_toList)

/-- **The lossy reader gives back every text from its bytes.** -/
lemma decodeLossy_encode (text : String) : decodeLossy (encode text) = text := by
  rw [decodeLossy, encode_eq_flatMap, decodeLossyFrom_encode]
  exact String.ofList_toList

/-! ## Bytes below the first bit -/

lemma toNat_eq_of_mem_utf8EncodeChar {c : Char} {byte : UInt8} (h : byte ∈ String.utf8EncodeChar c)
    (hbyte : byte.toNat < 128) : c.toNat = byte.toNat := by
  have hv : c.val.toNat = c.toNat := rfl
  have hhigh : ∀ n, 128 ≤ n → n < 256 → byte ≠ UInt8.ofNat n := by
    rintro n hlow hn rfl
    rw [UInt8.toNat_ofNat_of_lt' hn] at hbyte
    omega
  rw [String.utf8EncodeChar, hv] at h
  generalize c.toNat = v at h
  split_ifs at h <;> simp only [List.mem_cons, List.not_mem_nil, or_false] at h
  · subst h
    rw [UInt8.toNat_ofNat_of_lt' (show v < 256 by omega)]
  · rcases h with h | h <;> exact absurd h (hhigh _ (by omega) (by omega))
  · rcases h with h | h | h <;> exact absurd h (hhigh _ (by omega) (by omega))
  · rcases h with h | h | h | h <;> exact absurd h (hhigh _ (by omega) (by omega))

/-- **A byte below `0x80` is in a text exactly if its character is.** -/
lemma mem_encode_iff {text : String} {c : Char} (hc : c.toNat < 128) :
    UInt8.ofNat c.toNat ∈ encode text ↔ c ∈ text.toList := by
  have hbyte : (UInt8.ofNat c.toNat).toNat = c.toNat :=
    UInt8.toNat_ofNat_of_lt' (show c.toNat < 256 by omega)
  rw [encode_eq_flatMap, List.mem_flatMap]
  constructor
  · rintro ⟨other, hother, hmem⟩
    have heq := toNat_eq_of_mem_utf8EncodeChar hmem (by omega)
    rw [hbyte] at heq
    rwa [← Char.ext (UInt32.toNat_inj.mp heq)]
  · intro h
    refine ⟨c, h, ?_⟩
    rw [String.utf8EncodeChar, if_pos (show c.val.toNat ≤ 127 from Nat.le_of_lt_succ hc)]
    exact List.mem_singleton.mpr rfl

/-! ## Only the bytes of a text are read -/

lemma of_follow_eq_char {left value width total : Nat} {low high : UInt8} {rest : List UInt8} {c : Char}
    (h : follow (left + 1) low high value width rest = .char c total) :
    ∃ byte tail, rest = byte :: tail ∧ low.toNat ≤ byte.toNat ∧ byte.toNat ≤ high.toNat ∧
      follow left 0x80 0xBF (value * 64 + byte.toNat % 64) (width + 1) tail = .char c total := by
  cases rest with
  | nil => simp [follow] at h
  | cons byte tail =>
      rw [follow] at h
      split_ifs at h with hrange
      rw [UInt8.le_iff_toNat_le, UInt8.le_iff_toNat_le] at hrange
      exact ⟨byte, tail, rfl, hrange.1, hrange.2, h⟩

lemma toNat_val_ofNat {v : Nat} (hv : v < 0xD800 ∨ 0xDFFF < v ∧ v < 0x110000) :
    (Char.ofNat v).val.toNat = v := by
  rw [Char.ofNat, dif_pos hv]
  rfl

lemma ofNat_eq_of_toNat {n : Nat} {byte : UInt8} (h : n = byte.toNat) : UInt8.ofNat n = byte := by
  rw [h, UInt8.ofNat_toNat]

/-- A character that is read behind the first byte has the bytes that were read. -/
def Follows (byte : UInt8) (promise : Lead) : Prop :=
  ∀ {rest : List UInt8} {c : Char} {width : Nat},
    follow promise.following promise.low promise.high promise.bits 1 rest = .char c width →
      ∃ more tail, rest = more ++ tail ∧ width = more.length + 1 ∧ String.utf8EncodeChar c = byte :: more

lemma follows_one {byte : UInt8} (hbyte : byte.toNat < 0x80) : Follows byte ⟨0, 0x80, 0xBF, byte.toNat⟩ := by
  intro rest c width h
  dsimp only at h
  cases h
  refine ⟨[], rest, rfl, rfl, ?_⟩
  rw [String.utf8EncodeChar, toNat_val_ofNat (by omega), if_pos (by omega), ofNat_eq_of_toNat rfl]

lemma follows_two {byte : UInt8} (hlow : 0xC2 ≤ byte.toNat) (hhigh : byte.toNat < 0xE0) :
    Follows byte ⟨1, 0x80, 0xBF, byte.toNat % 32⟩ := by
  intro rest c width h
  dsimp only at h
  have h80 : (0x80 : UInt8).toNat = 0x80 := rfl
  have hBF : (0xBF : UInt8).toNat = 0xBF := rfl
  obtain ⟨second, tail, rfl, hs, hs', h⟩ := of_follow_eq_char h
  cases h
  refine ⟨[second], tail, rfl, rfl, ?_⟩
  rw [String.utf8EncodeChar, toNat_val_ofNat (by omega), if_neg (by omega), if_pos (by omega),
    @ofNat_eq_of_toNat _ byte (by omega), @ofNat_eq_of_toNat _ second (by omega)]

lemma follows_three {byte low high : UInt8} (hE0 : 0xE0 ≤ byte.toNat) (hF0 : byte.toNat < 0xF0)
    (hlow : 0x80 ≤ low.toNat) (hhigh : high.toNat ≤ 0xBF)
    (hoverlong : byte.toNat = 0xE0 → 0xA0 ≤ low.toNat) (hsurrogate : byte.toNat = 0xED → high.toNat ≤ 0x9F) :
    Follows byte ⟨2, low, high, byte.toNat % 16⟩ := by
  intro rest c width h
  dsimp only at h
  have h80 : (0x80 : UInt8).toNat = 0x80 := rfl
  have hBF : (0xBF : UInt8).toNat = 0xBF := rfl
  obtain ⟨second, rest, rfl, hs, hs', h⟩ := of_follow_eq_char h
  obtain ⟨third, tail, rfl, ht, ht', h⟩ := of_follow_eq_char h
  cases h
  refine ⟨[second, third], tail, rfl, rfl, ?_⟩
  rw [String.utf8EncodeChar, toNat_val_ofNat (by omega), if_neg (by omega), if_neg (by omega),
    if_pos (by omega), @ofNat_eq_of_toNat _ byte (by omega), @ofNat_eq_of_toNat _ second (by omega),
    @ofNat_eq_of_toNat _ third (by omega)]

lemma follows_four {byte low high : UInt8} (hF0 : 0xF0 ≤ byte.toNat) (hF4 : byte.toNat ≤ 0xF4)
    (hlow : 0x80 ≤ low.toNat) (hhigh : high.toNat ≤ 0xBF)
    (hoverlong : byte.toNat = 0xF0 → 0x90 ≤ low.toNat) (hlast : byte.toNat = 0xF4 → high.toNat ≤ 0x8F) :
    Follows byte ⟨3, low, high, byte.toNat % 8⟩ := by
  intro rest c width h
  dsimp only at h
  have h80 : (0x80 : UInt8).toNat = 0x80 := rfl
  have hBF : (0xBF : UInt8).toNat = 0xBF := rfl
  obtain ⟨second, rest, rfl, hs, hs', h⟩ := of_follow_eq_char h
  obtain ⟨third, rest, rfl, ht, ht', h⟩ := of_follow_eq_char h
  obtain ⟨fourth, tail, rfl, hf, hf', h⟩ := of_follow_eq_char h
  cases h
  refine ⟨[second, third, fourth], tail, rfl, rfl, ?_⟩
  rw [String.utf8EncodeChar, toNat_val_ofNat (by omega), if_neg (by omega), if_neg (by omega),
    if_neg (by omega), @ofNat_eq_of_toNat _ byte (by omega), @ofNat_eq_of_toNat _ second (by omega),
    @ofNat_eq_of_toNat _ third (by omega), @ofNat_eq_of_toNat _ fourth (by omega)]

lemma follows_of_lead {byte : UInt8} {promise : Lead} (h : lead byte = some promise) :
    Follows byte promise := by
  simp only [lead] at h
  split_ifs at h with h1 h2 h3 h4 h5 h6 h7 h8 h9 <;> cases h
  · exact follows_one h1
  · exact follows_two (by omega) h3
  · exact follows_three (by omega) (by omega) (by decide) (by decide) (fun _ => by decide) (by omega)
  · exact follows_three (by omega) (by omega) (by decide) (by decide) (by omega) (fun _ => by decide)
  · exact follows_three (by omega) (by omega) (by decide) (by decide) (by omega) (by omega)
  · exact follows_four (by omega) (by omega) (by decide) (by decide) (fun _ => by decide) (by omega)
  · exact follows_four (by omega) (by omega) (by decide) (by decide) (by omega) (by omega)
  · exact follows_four (by omega) (by omega) (by decide) (by decide) (by omega) (fun _ => by decide)

/-- **A character is read from its own bytes only.** -/
lemma encode_of_piece {byte : UInt8} {rest : List UInt8} {c : Char} {width : Nat}
    (h : piece byte rest = .char c width) :
    ∃ more tail, rest = more ++ tail ∧ width = more.length + 1 ∧
      String.utf8EncodeChar c = byte :: more := by
  rw [piece] at h
  split at h
  · cases h
  · next promise hlead => exact follows_of_lead hlead h

lemma encode_of_decodeFrom {seen cs : List Char} {index : Nat} {bytes : List UInt8}
    (h : decodeFrom seen index 0 bytes = .ok cs) :
    ∃ read, cs = seen.reverse ++ read ∧ read.flatMap String.utf8EncodeChar = bytes := by
  induction hlength : bytes.length using Nat.strong_induction_on generalizing bytes seen index with
  | h length ih =>
      cases bytes with
      | nil =>
          cases h
          exact ⟨[], by simp⟩
      | cons byte rest =>
          rw [decodeFrom] at h
          split at h
          · next c width hpiece =>
              obtain ⟨more, tail, rfl, rfl, henc⟩ := encode_of_piece hpiece
              rw [Nat.add_sub_cancel, decodeFrom_skip] at h
              have hlt : tail.length < length := by
                simp only [List.length_cons, List.length_append] at hlength
                omega
              obtain ⟨read, rfl, hread⟩ := ih _ hlt h rfl
              refine ⟨c :: read, by simp, ?_⟩
              rw [List.flatMap_cons, henc, hread, List.cons_append]
          · cases h
          · cases h

/-- **The strict reader accepts the bytes of texts only.** -/
lemma encode_of_decode {bytes : List UInt8} {text : String} (h : decode bytes = .ok text) :
    encode text = bytes := by
  rw [decode] at h
  cases hread : decodeFrom [] 0 0 bytes with
  | error fault =>
      rw [hread] at h
      cases h
  | ok cs =>
      rw [hread] at h
      cases h
      obtain ⟨read, rfl, hbytes⟩ := encode_of_decodeFrom hread
      rw [encode_eq_flatMap, String.toList_ofList]
      exact hbytes

end JarSurvey.Text.Utf8
