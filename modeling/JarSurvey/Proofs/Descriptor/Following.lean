import JarSurvey.Proofs.Descriptor.Bytewise
import JarSurvey.Proofs.Descriptor.Reading

/-!
# A cursor in bytes follows a reader of characters

`Stands text offset rest` says where the cursor of a bytewise reader is: between two characters, with the characters
`rest` behind it.  `Follows text n reader scan` says that from wherever the cursor stands, with fewer than `n`
characters behind it, both readers come to the same end: the same value or a failure, and the cursor **stands** again.
So it is never inside of a character when something else begins, and a reader that follows another one cannot crash.

Following is kept along readers in a row (`Follows.bind`), and the rest is about bytes:

* all characters that the grammars name are below `0x80`, and such a character shows in its first byte (`Begins`), so
  looking at a byte tells the same as looking at a character (`follows_peek`, `follows_eat`);
* no byte of another character is such a byte either, so a name that is passed byte by byte ends between two characters
  and can be cut out (`cut?_eq`, `follows_name`).

The bounds of loops are counted in bytes on one side and in characters on the other.  An item that takes something
(`Shrinks`) keeps both of them large enough.
-/

namespace JarSurvey.Descriptor

open Text.Utf8 (encode encode_eq_flatMap mem_encode_iff)

/-! ## Bytes and characters -/

/-- A character that is a byte of its own. -/
def IsAscii (c : Char) : Prop := c.toNat < 128

instance (c : Char) : Decidable (IsAscii c) := inferInstanceAs (Decidable (c.toNat < 128))

def AllAscii (chars : List Char) : Prop := ∀ a ∈ chars, IsAscii a

instance (chars : List Char) : Decidable (AllAscii chars) :=
  decidable_of_iff (chars.all fun a => decide (IsAscii a)) (by simp [AllAscii])

/-- The byte is the first one of the character. -/
def Begins (first : UInt8) (c : Char) : Prop :=
  ∃ more, String.utf8EncodeChar c = first :: more

section Bytes

variable {c a : Char} {first : UInt8}

lemma exists_begins (c : Char) : ∃ first, Begins first c :=
  List.exists_cons_of_ne_nil String.utf8EncodeChar_ne_nil

lemma utf8EncodeChar_of_isAscii (h : IsAscii a) : String.utf8EncodeChar a = [ascii a] := by
  rw [String.utf8EncodeChar, if_pos (show a.val.toNat ≤ 127 from Nat.le_of_lt_succ h)]
  rfl

lemma ascii_mem_utf8EncodeChar_iff (h : IsAscii a) : ascii a ∈ String.utf8EncodeChar c ↔ c = a := by
  have hmem : ascii a ∈ encode (String.ofList [c]) ↔ a ∈ (String.ofList [c]).toList := mem_encode_iff h
  rw [encode_eq_flatMap, String.toList_ofList, List.flatMap_singleton, List.mem_singleton] at hmem
  rw [hmem, eq_comm]

/-- The first byte of a character tells whether it is the character `a`. -/
lemma Begins.eq_ascii_iff (hfirst : Begins first c) (a : Char) (h : IsAscii a) : first = ascii a ↔ c = a := by
  obtain ⟨more, hmore⟩ := hfirst
  constructor
  · rintro rfl
    rw [← ascii_mem_utf8EncodeChar_iff h, hmore]
    exact List.mem_cons_self
  · rintro rfl
    rw [utf8EncodeChar_of_isAscii h] at hmore
    exact (List.cons.inj hmore).1.symm

lemma Begins.mem_map_ascii_iff (hfirst : Begins first c) {chars : List Char} (hchars : AllAscii chars) :
    first ∈ chars.map ascii ↔ c ∈ chars := by
  rw [List.mem_map]
  constructor
  · rintro ⟨a, hmem, ha⟩
    rwa [(hfirst.eq_ascii_iff a (hchars a hmem)).mp ha.symm]
  · intro hmem
    exact ⟨c, hmem, ((hfirst.eq_ascii_iff c (hchars c hmem)).mpr rfl).symm⟩

end Bytes

lemma byteLength_cons (c : Char) (rest : List Char) : byteLength (c :: rest) = c.utf8Size + byteLength rest := rfl

lemma byteLength_append (a b : List Char) : byteLength (a ++ b) = byteLength a + byteLength b := by
  induction a with
  | nil => exact (Nat.zero_add _).symm
  | cons c a ih => rw [List.cons_append, byteLength_cons, byteLength_cons, ih, Nat.add_assoc]

lemma length_le_byteLength (chars : List Char) : chars.length ≤ byteLength chars := by
  induction chars with
  | nil => rfl
  | cons c chars ih =>
      have hpos := c.utf8Size_pos
      rw [List.length_cons, byteLength_cons]
      omega

lemma byteLength_eq_zero_iff {chars : List Char} : byteLength chars = 0 ↔ chars = [] := by
  constructor
  · intro h
    exact List.length_eq_zero_iff.mp (Nat.le_zero.mp (h ▸ length_le_byteLength chars))
  · rintro rfl
    rfl

lemma length_flatMap_utf8EncodeChar (chars : List Char) :
    (chars.flatMap String.utf8EncodeChar).length = byteLength chars := by
  induction chars with
  | nil => rfl
  | cons c chars ih => rw [List.flatMap_cons, List.length_append, String.length_utf8EncodeChar, ih, byteLength_cons]

/-! ## Where the cursor stands -/

/-- **The cursor stands between two characters**, and these are the characters behind it. -/
def Stands (text : String) (offset : Nat) (rest : List Char) : Prop :=
  ∃ front, text.toList = front ++ rest ∧ offset = byteLength front

namespace Stands

variable {text : String} {offset : Nat} {c : Char} {run rest : List Char}

lemma start (text : String) : Stands text 0 text.toList :=
  ⟨[], rfl, rfl⟩

lemma atEnd (text : String) : Stands text (byteLength text.toList) [] :=
  ⟨text.toList, (List.append_nil _).symm, rfl⟩

lemma bytes (h : Stands text offset rest) : (encode text).drop offset = rest.flatMap String.utf8EncodeChar := by
  obtain ⟨front, htext, rfl⟩ := h
  rw [encode_eq_flatMap, htext, List.flatMap_append, ← length_flatMap_utf8EncodeChar, List.drop_left]

lemma offset_eq (h : Stands text offset rest) : offset = byteLength text.toList - byteLength rest := by
  obtain ⟨front, htext, rfl⟩ := h
  rw [htext, byteLength_append, Nat.add_sub_cancel]

lemma isBoundary (h : Stands text offset rest) : IsBoundary text offset := by
  obtain ⟨front, htext, rfl⟩ := h
  refine String.Pos.Raw.isValid_iff_exists_append.mpr ⟨String.ofList front, String.ofList rest, ?_, ?_⟩
  · rw [← String.ofList_append, ← htext, String.ofList_toList]
  · have hsize : (String.ofList front).utf8ByteSize = (encode (String.ofList front)).length := rfl
    rw [String.rawEndPos, hsize, encode_eq_flatMap, String.toList_ofList, length_flatMap_utf8EncodeChar]

lemma pass (h : Stands text offset (run ++ rest)) : Stands text (offset + byteLength run) rest := by
  obtain ⟨front, htext, rfl⟩ := h
  exact ⟨front ++ run, by rw [htext, List.append_assoc], (byteLength_append front run).symm⟩

/-- Behind a character that is a byte of its own the cursor stands between characters again. -/
lemma step (h : Stands text offset (c :: rest)) (hc : IsAscii c) : Stands text (offset + 1) rest := by
  have hsize : byteLength [c] = 1 := by
    rw [← length_flatMap_utf8EncodeChar, List.flatMap_singleton, utf8EncodeChar_of_isAscii hc, List.length_singleton]
  have hone : Stands text offset ([c] ++ rest) := h
  rw [← hsize]
  exact hone.pass

lemma getElem?_offset (h : Stands text offset rest) :
    (encode text)[offset]? = (rest.flatMap String.utf8EncodeChar).head? := by
  rw [← h.bytes, List.head?_drop]

/-- At a character the cursor sees its first byte. -/
lemma exists_first (h : Stands text offset (c :: rest)) :
    ∃ first, Begins first c ∧ (encode text)[offset]? = some first := by
  obtain ⟨first, more, hfirst⟩ := exists_begins c
  refine ⟨first, ⟨more, hfirst⟩, ?_⟩
  rw [h.getElem?_offset, List.flatMap_cons, hfirst]
  rfl

lemma length_lt_bound (h : Stands text offset rest) : rest.length < Bytewise.bound text := by
  have hle := length_le_byteLength rest
  have hdrop := congrArg List.length h.bytes
  rw [List.length_drop, length_flatMap_utf8EncodeChar] at hdrop
  rw [Bytewise.bound]
  omega

end Stands

/-- A run of characters is cut out between its two ends. -/
lemma cut?_eq {text : String} {start : Nat} {run rest : List Char} (h : Stands text start (run ++ rest)) :
    Bytewise.cut? text start (start + byteLength run) = some (String.ofList run) := by
  have hends : start ≤ start + byteLength run ∧ IsBoundary text start ∧ IsBoundary text (start + byteLength run) :=
    ⟨Nat.le_add_right _ _, h.isBoundary, h.pass.isBoundary⟩
  have hbytes : ((encode text).drop start).take (byteLength run) = encode (String.ofList run) := by
    rw [h.bytes, List.flatMap_append, ← length_flatMap_utf8EncodeChar, List.take_left, encode_eq_flatMap,
      String.toList_ofList]
  rw [Bytewise.cut?, dif_pos hends, Option.some.injEq, ← String.toByteArray_inj, String.toByteArray_extract]
  apply ByteArray.ext
  apply Array.ext'
  rw [ByteArray.data_extract, Array.toList_extract, List.extract_eq_take_drop, Nat.add_sub_cancel_left]
  exact hbytes

-- The first byte of a character is no run of characters.
example : Bytewise.cut? "é" 0 1 = none := by decide

/-! ## Following -/

/-- The outcome of reading bytes and that of reading characters: the same value with the cursor before the same
characters, at most `limit` of them, or a failure there. -/
inductive Agree {α : Type} (text : String) (limit : Nat) :
    Except Halt (α × Nat) → Except (List Char) (α × List Char) → Prop
  | value {a : α} {offset : Nat} {rest : List Char} (h : Stands text offset rest) (hle : rest.length ≤ limit) :
      Agree text limit (.ok (a, offset)) (.ok (a, rest))
  | failure {offset : Nat} {rest : List Char} (h : Stands text offset rest) (hle : rest.length ≤ limit) :
      Agree text limit (.error (.malformed offset)) (.error rest)

/-- **From wherever there are fewer than `n` characters left, both readers agree.** -/
def Follows {α : Type} (text : String) (n : Nat) (reader : Bytewise α) (scan : Scan α) : Prop :=
  ∀ offset rest, Stands text offset rest → rest.length < n → Agree text rest.length (reader offset) (scan rest)

section Combinators

variable {α β : Type} {text : String} {n limit : Nat} {reader : Bytewise α} {scan : Scan α}

lemma Agree.mono {x : Except Halt (α × Nat)} {y : Except (List Char) (α × List Char)} (h : Agree text limit x y)
    {larger : Nat} (hle : limit ≤ larger) : Agree text larger x y := by
  cases h with
  | value h hrest => exact .value h (hrest.trans hle)
  | failure h hrest => exact .failure h (hrest.trans hle)

lemma Agree.bind {x : Except Halt (α × Nat)} {y : Except (List Char) (α × List Char)}
    {f : α × Nat → Except Halt (β × Nat)} {g : α × List Char → Except (List Char) (β × List Char)}
    (h : Agree text limit x y)
    (hnext : ∀ a offset rest, Stands text offset rest → y = .ok (a, rest) → rest.length ≤ limit →
      Agree text limit (f (a, offset)) (g (a, rest))) : Agree text limit (x >>= f) (y >>= g) := by
  cases h with
  | value h hle => exact hnext _ _ _ h rfl hle
  | failure h hle => exact .failure h hle

lemma follows_of_eq_zero (hn : n = 0) : Follows text n reader scan := by
  intro offset rest _ hlt
  exact absurd hlt (by omega)

lemma follows_pure (a : α) : Follows text n (pure a) fun rest => pure (a, rest) :=
  fun _ _ h _ => .value h le_rfl

lemma follows_fail : Follows text n (Bytewise.fail : Bytewise α) .error :=
  fun _ _ h _ => .failure h le_rfl

lemma Follows.mono (h : Follows text n reader scan) {m : Nat} (hle : m ≤ n) : Follows text m reader scan :=
  fun offset rest hstands hlt => h offset rest hstands (hlt.trans_le hle)

/-- **Readers in a row follow if each of them does.** -/
lemma Follows.bind (h : Follows text n reader scan) {next : α → Bytewise β} {later : α → Scan β}
    (hnext : ∀ a, Follows text n (next a) (later a)) :
    Follows text n (reader >>= next) fun rest => scan rest >>= fun x => later x.1 x.2 := by
  intro offset rest hstands hlt
  refine (h offset rest hstands hlt).bind fun a offset' rest' hstands' _ hle => ?_
  exact (hnext a offset' rest' hstands' (hle.trans_lt hlt)).mono hle

lemma Follows.bind_pure (h : Follows text n reader scan) (f : α → β) :
    Follows text n (reader >>= fun a => pure (f a)) fun rest => scan rest >>= fun x => pure (f x.1, x.2) :=
  h.bind fun a => follows_pure (f a)

/-- Behind a character that is a byte of its own. -/
lemma Follows.after (h : Follows text n reader scan) {c : Char} {rest : List Char} {offset : Nat}
    (hstands : Stands text offset (c :: rest)) (hc : IsAscii c) (hlt : rest.length < n) :
    Agree text (c :: rest).length (reader (offset + 1)) (scan rest) :=
  (h (offset + 1) rest (hstands.step hc) hlt).mono (Nat.le_succ _)

/-! ### Readers that take something -/

/-- Whenever the reader succeeds on fewer than `n` characters, it takes some of them. -/
def Shrinks (n : Nat) (scan : Scan α) : Prop :=
  ∀ text, text.length < n → ∀ a rest, scan text = .ok (a, rest) → rest.length < text.length

lemma Shrinks.mono (h : Shrinks n scan) {m : Nat} (hle : m ≤ n) : Shrinks m scan :=
  fun text hlt => h text (hlt.trans_le hle)

lemma shrinks_of_reads {spelling : α → List Char} {fits : α → List Char → Prop}
    (h : Scan.Reads n scan (Scan.Spelled spelling fits)) (hne : ∀ a more, fits a more → spelling a ≠ []) :
    Shrinks n scan := by
  intro text hlt a rest hscan
  obtain ⟨rfl, hfits⟩ := (h text hlt a rest).mp hscan
  have hpos := List.length_pos_iff.mpr (hne a rest hfits)
  rw [List.length_append]
  omega

lemma shrinks_of_head {spelling : α → List Char} {fits : α → List Char → Prop} {kind : Char → Prop}
    (h : Scan.Reads n scan (Scan.Spelled spelling fits))
    (hhead : ∀ a more, fits a more → ∃ c later, spelling a = c :: later ∧ kind c) : Shrinks n scan := by
  refine shrinks_of_reads h fun a more hfits => ?_
  obtain ⟨c, later, hc, -⟩ := hhead a more hfits
  rw [hc]
  exact List.cons_ne_nil c later

/-- Behind a reader that takes something there are fewer characters left. -/
lemma Follows.bind_of_shrinks (h : Follows text n reader scan) (hshrinks : Shrinks n scan) {m : Nat} (hm : n ≤ m + 1)
    {next : α → Bytewise β} {later : α → Scan β} (hnext : ∀ a, Follows text m (next a) (later a)) :
    Follows text n (reader >>= next) fun rest => scan rest >>= fun x => later x.1 x.2 := by
  intro offset rest hstands hlt
  refine (h offset rest hstands hlt).bind fun a offset' rest' hstands' hscan hle => ?_
  have hless := hshrinks rest hlt a rest' hscan
  exact (hnext a offset' rest' hstands' (by omega)).mono hle

/-- At the end of the text such a reader fails. -/
lemma Follows.scan_nil (h : Follows text n reader scan) (hshrinks : Shrinks n scan) (hn : 0 < n) :
    scan [] = .error [] := by
  have hend := h _ [] (.atEnd text) hn
  have hless := hshrinks [] hn
  generalize reader (byteLength text.toList) = x, scan [] = y at hend hless
  cases hend with
  | failure _ hle => rw [List.length_eq_zero_iff.mp (Nat.le_zero.mp hle)]
  | value _ _ => exact absurd (hless _ _ rfl) (Nat.not_lt_zero _)

end Combinators

namespace Bytewise

variable {α : Type} {text : String} {n : Nat} {c : Char}

/-! ## Single characters -/

/-- Two ways to go on, by whether there is a byte at the cursor. -/
lemma follows_peek {next : Option UInt8 → Bytewise α} {scan : Scan α}
    (hnil : ∀ offset, Stands text offset [] → 0 < n → Agree text 0 (next none offset) (scan []))
    (hcons : ∀ offset d rest, Stands text offset (d :: rest) → (d :: rest).length < n → ∀ first, Begins first d →
      Agree text (d :: rest).length (next (some first) offset) (scan (d :: rest))) :
    Follows text n (peek text >>= next) scan := by
  rintro offset (_ | ⟨d, rest⟩) h hlt
  · have hnext := hnil offset h hlt
    rwa [show none = (encode text)[offset]? from h.getElem?_offset.symm] at hnext
  · obtain ⟨first, hfirst, hpeek⟩ := h.exists_first
    have hnext := hcons offset d rest h hlt first hfirst
    rwa [← hpeek] at hnext

/-- A byte is taken even if it is not a whole character: what follows has to see to that. -/
lemma follows_bump {next : UInt8 → Bytewise α} {scan : Scan α} (hnil : scan [] = .error [])
    (hcons : ∀ offset d rest, Stands text offset (d :: rest) → (d :: rest).length < n → ∀ first, Begins first d →
      Agree text (d :: rest).length (next first (offset + 1)) (scan (d :: rest))) :
    Follows text n (bump text >>= next) scan := by
  rw [bump, bind_assoc]
  refine follows_peek ?_ hcons
  intro offset h _
  rw [hnil]
  exact .failure h le_rfl

/-- There is a byte before the cursor, so the step back does not crash, and the failure is where the byte begins. -/
lemma stepBack_fail (offset : Nat) :
    (stepBack >>= fun _ => fail : Bytewise α) (offset + 1) = .error (.malformed offset) := rfl

/-- Two ways to go on, by whether the character `c` was there. -/
lemma follows_eat (hc : IsAscii c) {next : Bool → Bytewise α} {found missing scan : Scan α}
    (hfound : Follows text (n - 1) (next true) found) (hmissing : Follows text n (next false) missing)
    (hself : ∀ rest, scan (c :: rest) = found rest) (hother : ∀ d rest, d ≠ c → scan (d :: rest) = missing (d :: rest))
    (hnil : scan [] = missing []) : Follows text n (eat text c >>= next) scan := by
  rw [eat, bind_assoc]
  refine follows_peek ?_ ?_
  · intro offset h hn
    rw [hnil]
    exact hmissing offset [] h hn
  · intro offset d rest h hlt first hfirst
    simp only [Option.some.injEq, hfirst.eq_ascii_iff c hc]
    split_ifs with heq
    · subst heq
      rw [hself]
      exact hfound.after h hc (Nat.lt_sub_of_add_lt hlt)
    · rw [hother d rest heq]
      exact hmissing offset _ h hlt

lemma follows_expect (hc : IsAscii c) : Follows text n (expect text c) (Scan.expect c) := by
  refine follows_eat hc (follows_pure ()) follows_fail ?_ ?_ rfl
  · intro rest
    exact if_pos rfl
  · intro d rest hne
    exact if_neg hne

/-! ## Names -/

lemma pass_append {stops bytes more : List UInt8} (h : ∀ byte ∈ bytes, byte ∉ stops) (offset : Nat) :
    pass stops (bytes ++ more) offset = pass stops more (offset + bytes.length) := by
  induction bytes generalizing offset with
  | nil => rfl
  | cons byte bytes ih =>
      rw [List.forall_mem_cons] at h
      rw [List.cons_append, pass, if_neg (by simpa using h.1), ih h.2, List.length_cons, Nat.add_assoc, Nat.add_comm 1]

/-- No byte of a character that is no stop is one, so a run of such characters is passed byte by byte. -/
lemma pass_chars {stops : List Char} (hstops : AllAscii stops) (chars : List Char) (offset : Nat) :
    pass (stops.map ascii) (chars.flatMap String.utf8EncodeChar) offset =
      offset + byteLength (chars.takeWhile fun c => !stops.contains c) := by
  induction chars generalizing offset with
  | nil => rfl
  | cons c chars ih =>
      rw [List.flatMap_cons]
      by_cases hc : c ∈ stops
      · obtain ⟨first, more, hmore⟩ := exists_begins c
        have hfirst : first ∈ stops.map ascii := (Begins.mem_map_ascii_iff ⟨more, hmore⟩ hstops).mpr hc
        rw [hmore, List.cons_append, pass, if_pos (List.contains_iff_mem.mpr hfirst),
          List.takeWhile_cons_of_neg (by simpa using hc)]
        rfl
      · have hbytes : ∀ byte ∈ String.utf8EncodeChar c, byte ∉ stops.map ascii := by
          intro byte hbyte hstop
          obtain ⟨a, ha, rfl⟩ := List.mem_map.mp hstop
          rw [ascii_mem_utf8EncodeChar_iff (hstops a ha)] at hbyte
          exact hc (hbyte ▸ ha)
        rw [pass_append hbytes, ih, List.takeWhile_cons_of_pos (by simpa using hc), byteLength_cons,
          String.length_utf8EncodeChar, Nat.add_assoc]

/-- **A name is cut out of the text at boundaries.** -/
lemma follows_name {stops : List Char} (hstops : AllAscii stops) :
    Follows text n (name text stops) (Scan.name stops) := by
  intro start rest h _
  have hcut : rest.takeWhile (fun c => !stops.contains c) ++ rest.dropWhile (fun c => !stops.contains c) = rest :=
    List.takeWhile_append_dropWhile
  have hstop : pass (stops.map ascii) ((encode text).drop start) start =
      start + byteLength (rest.takeWhile fun c => !stops.contains c) := by
    rw [h.bytes, pass_chars hstops]
  rw [← hcut] at h
  have hend : (encode text).length ≤ start + byteLength (rest.takeWhile fun c => !stops.contains c) ↔
      rest.dropWhile (fun c => !stops.contains c) = [] := by
    rw [← List.drop_eq_nil_iff, h.pass.bytes, ← List.length_eq_zero_iff, length_flatMap_utf8EncodeChar,
      byteLength_eq_zero_iff]
  have hle : (rest.dropWhile fun c => !stops.contains c).length ≤ rest.length := List.length_dropWhile_le _ _
  simp only [name, Scan.name, hstop, hend, Nat.add_eq_left, byteLength_eq_zero_iff, Bool.or_eq_true, List.isEmpty_iff,
    cut?_eq h]
  split_ifs
  · exact .failure h.pass hle
  · exact .value h.pass hle

lemma follows_enclosedName (f : String → α) :
    Follows text n (enclosedName text >>= fun found => pure (f found)) fun rest =>
      Scan.name [';'] rest >>= fun x => Scan.expect ';' x.2 >>= fun y => pure (f x.1, y.2) := by
  simp only [enclosedName, bind_assoc, pure_bind]
  exact (follows_name (by decide)).bind fun found => (follows_expect (by decide)).bind_pure fun _ => f found

/-! ## Lists -/

section Lists

variable {item : Bytewise α} {scan : Scan α}

lemma follows_itemsUpTo {stop : Char} (hstop : IsAscii stop) (hitem : Follows text n item scan)
    (hshrinks : Shrinks n scan) (turns turns' : Nat) :
    Follows text (min n (min turns turns')) (itemsUpTo text stop item turns) (Scan.itemsUpTo stop scan turns') := by
  rcases Nat.eq_zero_or_pos n with hn | hn
  · exact follows_of_eq_zero (by omega)
  induction turns generalizing turns' with
  | zero => exact follows_of_eq_zero (by omega)
  | succ turns ih =>
      cases turns' with
      | zero => exact follows_of_eq_zero (by omega)
      | succ turns' =>
          -- A turn takes a character, so the turns that are left are enough for the rest.
          have hle : min n (min (turns + 1) (turns' + 1)) ≤ n := Nat.min_le_left _ _
          have hturn := (hitem.mono hle).bind_of_shrinks (hshrinks.mono hle) (m := min n (min turns turns')) (by omega)
            fun x => (ih turns').bind_pure (x :: ·)
          refine follows_eat hstop (follows_pure []) hturn ?_ ?_ ?_
          · intro rest
            exact if_pos rfl
          · intro d rest hne
            exact if_neg hne
          · rw [hitem.scan_nil hshrinks hn]
            rfl

lemma follows_markedUpTo {mark : Char} (hmark : IsAscii mark) (hitem : Follows text n item scan) (turns turns' : Nat) :
    Follows text (min n (min turns turns')) (markedUpTo text mark item turns) (Scan.markedUpTo mark scan turns') := by
  induction turns generalizing turns' with
  | zero => exact follows_of_eq_zero (by omega)
  | succ turns ih =>
      cases turns' with
      | zero => exact follows_of_eq_zero (by omega)
      | succ turns' =>
          -- The mark takes a character.
          have hturn := (hitem.mono (m := min n (min (turns + 1) (turns' + 1)) - 1) (by omega)).bind fun x =>
            ((ih turns').mono (by omega)).bind_pure (x :: ·)
          refine follows_eat hmark hturn (follows_pure []) ?_ ?_ rfl
          · intro rest
            exact if_pos rfl
          · intro d rest hne
            exact if_neg hne

lemma follows_items {stop : Char} (hstop : IsAscii stop) (hitem : Follows text n item scan)
    (hshrinks : Shrinks n scan) : Follows text n (items text stop item) (Scan.items stop scan) := by
  intro offset rest h hlt
  have hbound := h.length_lt_bound
  exact follows_itemsUpTo hstop hitem hshrinks _ _ offset rest h (by omega)

lemma follows_marked {mark : Char} (hmark : IsAscii mark) (hitem : Follows text n item scan) :
    Follows text n (marked text mark item) (Scan.marked mark scan) := by
  intro offset rest h hlt
  have hbound := h.length_lt_bound
  exact follows_markedUpTo hmark hitem _ _ offset rest h (by omega)

lemma follows_bracketed (hitem : Follows text n item scan) (hshrinks : Shrinks n scan) :
    Follows text n (bracketed text item) (Scan.bracketed scan) := by
  have hnonempty : ∀ xs : List α, Follows text n (if xs.isEmpty then fail else pure xs : Bytewise (List α))
      fun rest => if xs.isEmpty then .error rest else .ok (xs, rest) := by
    intro xs
    split
    · exact follows_fail
    · exact follows_pure xs
  have hlist := (follows_items (show IsAscii '>' by decide) hitem hshrinks).bind hnonempty
  refine follows_eat (by decide) (hlist.mono (Nat.sub_le n 1)) (follows_pure []) (fun _ => rfl) ?_ rfl
  intro d rest hne
  simp [Scan.bracketed, hne, pure, Except.pure]

lemma follows_result (hitem : Follows text n item scan) :
    Follows text n (result text item) (Scan.result scan) := by
  refine follows_eat (by decide) (follows_pure none) (hitem.bind_pure some) (fun _ => rfl) ?_ rfl
  intro d rest hne
  simp [Scan.result, hne]

end Lists

end Bytewise

end JarSurvey.Descriptor
