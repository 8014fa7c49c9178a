import JarSurvey.Proofs.ClassFile.Layout

/-!
# What a reader takes

`Takes reader value bytes` says that the reader takes exactly these bytes off the front of the data,
**whatever follows them**, and yields the value.  It composes: what one reader takes and what the next one
takes stand one after the other (`Takes.bind`), and a sequence takes what its items take, after their
number (`takes_counted`).

`Refuses reader error bytes` says that the reader fails on these bytes, whatever follows them, and `LaidOut reader
layout` goes the other way: whatever the reader takes, a value and its bytes, is laid out in this way.
-/

namespace JarSurvey.ClassFile.Reader

open Layout

/-- The reader takes these bytes off the front of the data, and yields the value. -/
def Takes {α : Type} (reader : Reader α) (value : α) (bytes : List UInt8) : Prop :=
  ∀ position rest, reader ⟨position, bytes ++ rest⟩ = .ok (value, ⟨position + bytes.length, rest⟩)

section Combinators

variable {α β : Type} {reader : Reader α} {a : α} {as : List UInt8}

lemma bind_apply (reader : Reader α) (next : α → Reader β) (cursor : Cursor) :
    (reader >>= next) cursor = reader cursor >>= fun x => next x.1 x.2 := rfl

lemma takes_pure (a : α) : Takes (pure a) a [] :=
  fun _ _ => rfl

lemma Takes.bind {next : α → Reader β} {b : β} {bs : List UInt8} (h : Takes reader a as)
    (hnext : Takes (next a) b bs) : Takes (reader >>= next) b (as ++ bs) := by
  intro position rest
  have hfirst := h position (bs ++ rest)
  have hsecond := hnext (position + as.length) rest
  rw [List.append_assoc, List.length_append, ← Nat.add_assoc]
  change (reader ⟨position, as ++ (bs ++ rest)⟩ >>= fun p => next p.1 p.2) = _
  rw [hfirst]
  exact hsecond

/-- The last part of a reader may take nothing. -/
lemma Takes.bind_nil {next : α → Reader β} {b : β} (h : Takes reader a as)
    (hnext : Takes (next a) b []) : Takes (reader >>= next) b as := by
  have hbind := h.bind hnext
  rwa [List.append_nil] at hbind

lemma Takes.bind_pure (h : Takes reader a as) (f : α → β) :
    Takes (reader >>= fun x => pure (f x)) (f a) as :=
  h.bind_nil (takes_pure (f a))

lemma Takes.map (h : Takes reader a as) (f : α → β) : Takes (f <$> reader) (f a) as := by
  intro position rest
  change (reader ⟨position, as ++ rest⟩ >>= fun p => pure (f p.1, p.2)) = _
  rw [h]
  rfl

lemma takes_lift {x : Except FormatError α} (h : x = .ok a) : Takes (liftM x) a [] := by
  intro position rest
  subst h
  rfl

end Combinators

/-! ## Numbers and sequences -/

lemma takes_u8 (n : UInt8) : Takes Reader.u8 n [n] :=
  fun _ _ => rfl

/-- The first byte decides how to go on. -/
lemma takes_tag {β : Type} {next : UInt8 → Reader β} {tag : UInt8} {b : β} {bs : List UInt8}
    (h : Takes (next tag) b bs) : Takes (Reader.u8 >>= next) b (tag :: bs) :=
  (takes_u8 tag).bind h

lemma takes_take (bytes : List UInt8) : Takes (take bytes.length) bytes bytes := by
  intro position rest
  simp [take, List.splitAt_eq]

lemma takes_skip {count : Nat} {bytes : List UInt8} (h : bytes.length = count) :
    Takes (skip count) () bytes := by
  subst h
  exact (takes_take bytes).bind_pure fun _ => ()

lemma toNat_low_byte (n : Nat) : (UInt8.ofNat n).toNat = n % 256 :=
  UInt8.toNat_ofNat'

lemma word16_bytes (n : UInt16) : word16 (UInt8.ofNat (n.toNat / 0x100)) (UInt8.ofNat n.toNat) = n := by
  have hn : n.toNat < 65536 := n.toNat_lt
  rw [word16, toNat_low_byte, toNat_low_byte,
    show n.toNat / 0x100 % 256 * 256 + n.toNat % 256 = n.toNat by omega, UInt16.ofNat_toNat]

lemma takes_u16 (n : UInt16) : Takes u16 n (u2 n.toNat) := by
  intro position rest
  change Except.ok (word16 (UInt8.ofNat (n.toNat / 0x100)) (UInt8.ofNat n.toNat),
    (⟨position + 2, rest⟩ : Cursor)) = _
  rw [word16_bytes]
  rfl

lemma word32_bytes (n : UInt32) :
    word32 (UInt8.ofNat (n.toNat / 0x10000 / 0x100)) (UInt8.ofNat (n.toNat / 0x10000))
      (UInt8.ofNat (n.toNat / 0x100)) (UInt8.ofNat n.toNat) = n := by
  have hn : n.toNat < 4294967296 := n.toNat_lt
  rw [word32, toNat_low_byte, toNat_low_byte, toNat_low_byte, toNat_low_byte,
    show ((n.toNat / 0x10000 / 0x100 % 256 * 256 + n.toNat / 0x10000 % 256) * 256 +
      n.toNat / 0x100 % 256) * 256 + n.toNat % 256 = n.toNat by omega, UInt32.ofNat_toNat]

lemma takes_u32 (n : UInt32) : Takes u32 n (u4 n.toNat) := by
  intro position rest
  change Except.ok (word32 (UInt8.ofNat (n.toNat / 0x10000 / 0x100)) (UInt8.ofNat (n.toNat / 0x10000))
    (UInt8.ofNat (n.toNat / 0x100)) (UInt8.ofNat n.toNat), (⟨position + 4, rest⟩ : Cursor)) = _
  rw [word32_bytes]
  rfl

/-- The low half of a number does not depend on its high half. -/
lemma u4_mod (n : Nat) : u4 (n % 0x100000000) = u4 n := by
  have hbyte : ∀ a b : Nat, a % 256 = b % 256 → UInt8.ofNat a = UInt8.ofNat b := by
    intro a b h
    rw [← UInt8.toNat_inj, toNat_low_byte, toNat_low_byte, h]
  simp only [u4, u2, List.cons_append, List.nil_append, List.cons.injEq, and_true]
  exact ⟨hbyte _ _ (by omega), hbyte _ _ (by omega), hbyte _ _ (by omega), hbyte _ _ (by omega)⟩

lemma takes_u64 (n : UInt64) : Takes u64 n (Layout.u8 n.toNat) := by
  have hn : n.toNat < 18446744073709551616 := n.toNat_lt
  have hhigh : (UInt32.ofNat (n.toNat / 0x100000000)).toNat = n.toNat / 0x100000000 :=
    UInt32.toNat_ofNat_of_lt' (show n.toNat / 0x100000000 < 4294967296 by omega)
  have hlow : (UInt32.ofNat n.toNat).toNat = n.toNat % 0x100000000 := UInt32.toNat_ofNat'
  have hbytes : Layout.u8 n.toNat =
      u4 (UInt32.ofNat (n.toNat / 0x100000000)).toNat ++ u4 (UInt32.ofNat n.toNat).toNat := by
    rw [hhigh, hlow, u4_mod]
    rfl
  have hvalue : n = UInt64.ofNat ((UInt32.ofNat (n.toNat / 0x100000000)).toNat * 2 ^ 32 +
      (UInt32.ofNat n.toNat).toNat) := by
    rw [hhigh, hlow, show n.toNat / 0x100000000 * 2 ^ 32 + n.toNat % 0x100000000 = n.toNat by omega,
      UInt64.ofNat_toNat]
  rw [hbytes]
  nth_rewrite 1 [hvalue]
  exact (takes_u32 _).bind ((takes_u32 _).bind_pure _)

section Sequences

variable {ι α : Type} {item : Reader α} {layout : α → List UInt8 → Prop} {values : List α}
  {bytes : List UInt8}

lemma takes_many {xs : List ι} {value : ι → α} {bytesOf : ι → List UInt8}
    (h : ∀ x ∈ xs, Takes item (value x) (bytesOf x)) :
    Takes (many item xs.length) (xs.map value) (xs.flatMap bytesOf) := by
  induction xs with
  | nil => exact takes_pure []
  | cons x xs ih =>
      have htail := ih fun y hy => h y (List.mem_cons_of_mem x hy)
      exact (h x List.mem_cons_self).bind (htail.bind_pure _)

lemma takes_count {n : Nat} (h : n < 0x10000) : Takes u16 (.ofNat n) (u2 n) := by
  have htakes := takes_u16 (.ofNat n)
  rwa [UInt16.toNat_ofNat_of_lt' h] at htakes

lemma takes_counted {xs : List ι} {value : ι → α} {bytesOf : ι → List UInt8}
    (h : ∀ x ∈ xs, Takes item (value x) (bytesOf x)) (hcount : xs.length < 0x10000) :
    Takes (counted item) (xs.map value) (u2 xs.length ++ xs.flatMap bytesOf) := by
  refine (takes_count hcount).bind ?_
  rw [UInt16.toNat_ofNat_of_lt' hcount]
  exact takes_many h

lemma takes_many_of_layout (hitem : ∀ value ∈ values, ∀ bytes, layout value bytes → Takes item value bytes)
    (h : Many layout values bytes) : Takes (many item values.length) values bytes := by
  obtain ⟨pieces, hpieces, rfl, rfl⟩ := h
  rw [List.length_map]
  exact takes_many fun piece hp => hitem _ (List.mem_map_of_mem hp) _ (hpieces piece hp)

lemma takes_counted_of_layout
    (hitem : ∀ value ∈ values, ∀ bytes, layout value bytes → Takes item value bytes)
    (h : Counted layout values bytes) : Takes (counted item) values bytes := by
  obtain ⟨content, hmany, hcount, rfl⟩ := h
  refine (takes_count hcount).bind ?_
  rw [UInt16.toNat_ofNat_of_lt' hcount]
  exact takes_many_of_layout hitem hmany

lemma takes_shortCounted_of_layout
    (hitem : ∀ value ∈ values, ∀ bytes, layout value bytes → Takes item value bytes)
    (h : ShortCounted layout values bytes) : Takes (shortCounted item) values bytes := by
  obtain ⟨content, hmany, hcount, rfl⟩ := h
  refine (takes_u8 _).bind ?_
  rw [UInt8.toNat_ofNat_of_lt' hcount]
  exact takes_many_of_layout hitem hmany

end Sequences

lemma takes_sized {bytes : List UInt8} (h : bytes.length < 0x100000000) :
    Takes sized bytes (u4 bytes.length ++ bytes) := by
  have hlength : (UInt32.ofNat bytes.length).toNat = bytes.length := UInt32.toNat_ofNat_of_lt' h
  have hfirst := takes_u32 (.ofNat bytes.length)
  rw [hlength] at hfirst
  refine hfirst.bind ?_
  rw [hlength]
  exact takes_take bytes

/-! ## What a reader refuses -/

/-- The reader fails on these bytes at the front of the data, whatever follows them. -/
def Refuses {α : Type} (reader : Reader α) (error : FormatError) (bytes : List UInt8) : Prop :=
  ∀ position rest, reader ⟨position, bytes ++ rest⟩ = .error error

section Refusing

variable {α β : Type} {reader : Reader α} {error : FormatError} {bytes : List UInt8}

lemma refuses_throw (error : FormatError) (bytes : List UInt8) : Refuses (throw error : Reader α) error bytes :=
  fun _ _ => rfl

lemma Refuses.append (h : Refuses reader error bytes) (more : List UInt8) : Refuses reader error (bytes ++ more) := by
  intro position rest
  rw [List.append_assoc]
  exact h position (more ++ rest)

lemma Refuses.bind (h : Refuses reader error bytes) (next : α → Reader β) : Refuses (reader >>= next) error bytes := by
  intro position rest
  rw [bind_apply, h]
  rfl

lemma Takes.bind_refuses {next : α → Reader β} {a : α} {as bs : List UInt8} (h : Takes reader a as)
    (hnext : Refuses (next a) error bs) : Refuses (reader >>= next) error (as ++ bs) := by
  intro position rest
  rw [bind_apply, List.append_assoc, h]
  exact hnext _ _

/-- The last part of a reader may fail without a look at any byte. -/
lemma Takes.bind_throw {next : α → Reader β} {a : α} {as : List UInt8} (h : Takes reader a as)
    (hnext : next a = throw error) : Refuses (reader >>= next) error as := by
  have hbind := h.bind_refuses (hnext ▸ refuses_throw error [])
  rwa [List.append_nil] at hbind

/-- A sequence is refused at the first of its items that is refused. -/
lemma refuses_many {ι : Type} {item : Reader α} {xs : List ι} {value : ι → α} {bytesOf : ι → List UInt8}
    (h : ∀ x ∈ xs, Takes item (value x) (bytesOf x) ∨ Refuses item error (bytesOf x))
    (hrefused : ∃ x ∈ xs, Refuses item error (bytesOf x)) :
    Refuses (many item xs.length) error (xs.flatMap bytesOf) := by
  obtain ⟨refused, hmem, hrefuses⟩ := hrefused
  induction xs with
  | nil => cases hmem
  | cons x xs ih =>
      rw [List.forall_mem_cons] at h
      rw [List.flatMap_cons]
      rcases List.mem_cons.mp hmem with rfl | hlater
      · exact (hrefuses.append _).bind _
      · rcases h.1 with htakes | hfirst
        · exact htakes.bind_refuses ((ih h.2 hlater).bind _)
        · exact (hfirst.append _).bind _

end Refusing

/-! ## What was taken

The other direction: from the success of a reader to what it took.
-/

/-- Whatever the reader takes, it is laid out like this. -/
def LaidOut {α : Type} (reader : Reader α) (layout : α → List UInt8 → Prop) : Prop :=
  ∀ position bytes value cursor, reader ⟨position, bytes⟩ = .ok (value, cursor) →
    ∃ used, bytes = used ++ cursor.rest ∧ layout value used

section LaidOut

variable {α β : Type} {reader : Reader α} {layout layout' : α → List UInt8 → Prop}

lemma LaidOut.mono (h : LaidOut reader layout) (hlayout : ∀ a bytes, layout a bytes → layout' a bytes) :
    LaidOut reader layout' := by
  intro position bytes value cursor hread
  obtain ⟨used, hused, hvalue⟩ := h _ _ _ _ hread
  exact ⟨used, hused, hlayout _ _ hvalue⟩

/-- A reader that has to take all there is succeeds if nothing is left. -/
lemma whole_eq_ok_iff (reader : Reader α) (bytes : List UInt8) (error : FormatError) {a : α} :
    (reader (Cursor.start bytes) >>= fun x => if x.2.atEnd then pure x.1 else throw error) = .ok a ↔
      ∃ position, reader (Cursor.start bytes) = .ok (a, ⟨position, []⟩) := by
  rw [bind_eq_ok_iff]
  constructor
  · rintro ⟨⟨found, position, rest⟩, hread, hend⟩
    cases rest with
    | nil =>
        cases hend
        exact ⟨position, hread⟩
    | cons byte rest => exact absurd hend throw_ne_ok
  · rintro ⟨position, hread⟩
    exact ⟨_, hread, rfl⟩

/-- What a reader takes when it takes all there is. -/
lemma LaidOut.whole (h : LaidOut reader layout) {bytes : List UInt8} {a : α} {position : Nat}
    (hread : reader (Cursor.start bytes) = .ok (a, ⟨position, []⟩)) : layout a bytes := by
  obtain ⟨used, hused, ha⟩ := h _ _ _ _ hread
  rwa [show bytes = used by simpa using hused]

lemma laidOut_lift (x : Except FormatError α) : LaidOut (liftM x : Reader α) fun a bytes => bytes = [] ∧ x = .ok a := by
  intro position bytes value cursor hread
  obtain ⟨a, rfl, ⟨⟩⟩ := bind_eq_ok_iff.mp hread
  exact ⟨[], rfl, rfl, rfl⟩

lemma laidOut_pure (a : α) : LaidOut (pure a : Reader α) fun b bytes => bytes = [] ∧ b = a := by
  refine (laidOut_lift (.ok a)).mono fun b bytes h => ?_
  exact ⟨h.1, (Except.ok.inj h.2).symm⟩

lemma laidOut_throw (error : FormatError) : LaidOut (throw error : Reader α) layout :=
  fun _ _ _ _ hread => absurd hread throw_ne_ok

lemma LaidOut.bind {next : α → Reader β} {second : α → β → List UInt8 → Prop} (h : LaidOut reader layout)
    (hnext : ∀ a, LaidOut (next a) (second a)) :
    LaidOut (reader >>= next) fun b bytes => ∃ a as bs, bytes = as ++ bs ∧ layout a as ∧ second a b bs := by
  intro position bytes b cursor hread
  rw [bind_apply, bind_eq_ok_iff] at hread
  obtain ⟨⟨a, ⟨middle, rest⟩⟩, hfirst, hsecond⟩ := hread
  obtain ⟨as, rfl, ha⟩ := h _ _ _ _ hfirst
  obtain ⟨bs, rfl, hb⟩ := hnext a _ _ _ _ hsecond
  exact ⟨as ++ bs, (List.append_assoc _ _ _).symm, a, as, bs, rfl, ha, hb⟩

/-- The same, where the layout of the second part has to be told. -/
lemma LaidOut.bind_with {next : α → Reader β} (h : LaidOut reader layout) (second : α → β → List UInt8 → Prop)
    (hnext : ∀ a, LaidOut (next a) (second a)) :
    LaidOut (reader >>= next) fun b bytes => ∃ a as bs, bytes = as ++ bs ∧ layout a as ∧ second a b bs :=
  h.bind hnext

/-- The last part of a reader only puts values together. -/
lemma LaidOut.bind_pure (h : LaidOut reader layout) (f : α → β) :
    LaidOut (reader >>= fun a => pure (f a)) fun b bytes => ∃ a, layout a bytes ∧ b = f a := by
  refine (h.bind fun a => laidOut_pure (f a)).mono ?_
  rintro b bytes ⟨a, as, bs, rfl, ha, rfl, rfl⟩
  exact ⟨a, by rwa [List.append_nil], rfl⟩

end LaidOut

lemma laidOut_u8 : LaidOut Reader.u8 fun n bytes => bytes = [n] := by
  rintro position (_ | ⟨a, bytes⟩) value cursor hread
  · cases hread
  · cases hread
    exact ⟨[a], rfl, rfl⟩

lemma laidOut_u16 : LaidOut u16 fun n bytes => bytes = u2 n.toNat := by
  have hword : ∀ a b : UInt8, [a, b] = u2 (word16 a b).toNat := by
    intro a b
    have ha := a.toNat_lt
    have hb := b.toNat_lt
    have hvalue : (word16 a b).toNat = a.toNat * 256 + b.toNat :=
      UInt16.toNat_ofNat_of_lt' (show a.toNat * 256 + b.toNat < 65536 by omega)
    simp only [u2, hvalue, List.cons.injEq, and_true, ← UInt8.toNat_inj, toNat_low_byte]
    omega
  rintro position (_ | ⟨a, _ | ⟨b, bytes⟩⟩) value cursor hread
  · cases hread
  · cases hread
  · cases hread
    exact ⟨[a, b], rfl, hword a b⟩

lemma laidOut_u32 : LaidOut u32 fun n bytes => bytes = u4 n.toNat := by
  have hword : ∀ a b c d : UInt8, [a, b, c, d] = u4 (word32 a b c d).toNat := by
    intro a b c d
    have ha := a.toNat_lt
    have hb := b.toNat_lt
    have hc := c.toNat_lt
    have hd := d.toNat_lt
    have hvalue : (word32 a b c d).toNat = ((a.toNat * 256 + b.toNat) * 256 + c.toNat) * 256 + d.toNat :=
      UInt32.toNat_ofNat_of_lt'
        (show ((a.toNat * 256 + b.toNat) * 256 + c.toNat) * 256 + d.toNat < 4294967296 by omega)
    simp only [u4, u2, hvalue, List.cons_append, List.nil_append, List.cons.injEq, and_true, ← UInt8.toNat_inj,
      toNat_low_byte]
    omega
  rintro position (_ | ⟨a, _ | ⟨b, _ | ⟨c, _ | ⟨d, bytes⟩⟩⟩⟩) value cursor hread
  · cases hread
  · cases hread
  · cases hread
  · cases hread
  · cases hread
    exact ⟨[a, b, c, d], rfl, hword a b c d⟩

lemma laidOut_u64 : LaidOut u64 fun n bytes => bytes = Layout.u8 n.toNat := by
  refine (laidOut_u32.bind fun high => laidOut_u32.bind_pure _).mono ?_
  rintro n bytes ⟨high, _, _, rfl, rfl, low, rfl, rfl⟩
  have hhigh := high.toNat_lt
  have hlow := low.toNat_lt
  have hvalue : (UInt64.ofNat (high.toNat * 0x100000000 + low.toNat)).toNat = high.toNat * 0x100000000 + low.toNat :=
    UInt64.toNat_ofNat_of_lt' (show high.toNat * 0x100000000 + low.toNat < 18446744073709551616 by omega)
  rw [hvalue, Layout.u8, ← u4_mod (high.toNat * 0x100000000 + low.toNat)]
  congr 2
  · omega
  · omega

lemma laidOut_take (count : Nat) : LaidOut (take count) fun taken bytes => bytes = taken ∧ taken.length = count := by
  intro position bytes taken cursor hread
  simp only [take, List.splitAt_eq] at hread
  split_ifs at hread with hshort
  · cases hread
  · cases hread
    refine ⟨_, (List.take_append_drop count bytes).symm, rfl, ?_⟩
    rw [List.length_take] at hshort ⊢
    omega

lemma laidOut_sized :
    LaidOut sized fun body bytes => bytes = u4 body.length ++ body ∧ body.length < 0x100000000 := by
  refine (laidOut_u32.bind fun length => laidOut_take length.toNat).mono ?_
  rintro body bytes ⟨length, _, _, rfl, rfl, rfl, hlength⟩
  exact ⟨by rw [hlength], hlength ▸ length.toNat_lt⟩

lemma laidOut_lookup {α : Type} (lookup : Index → Except FormatError α) :
    LaidOut (u16 >>= fun i => (liftM (lookup i) : Reader α)) fun a bytes =>
      ∃ index, bytes = u2 index.toNat ∧ lookup index = .ok a := by
  refine (laidOut_u16.bind fun index => laidOut_lift (lookup index)).mono ?_
  rintro a bytes ⟨index, _, _, rfl, rfl, rfl, hlookup⟩
  exact ⟨index, List.append_nil _, hlookup⟩

section Sequences

variable {ι α : Type} {item : Reader α} {bytesOf : ι → List UInt8} {fits : ι → Prop}

lemma laidOut_many (h : LaidOut item fun _ bytes => ∃ x, fits x ∧ bytes = bytesOf x) (count : Nat) :
    LaidOut (many item count) fun _ bytes =>
      ∃ xs : List ι, xs.length = count ∧ (∀ x ∈ xs, fits x) ∧ bytes = xs.flatMap bytesOf := by
  induction count with
  | zero =>
      refine (laidOut_pure []).mono ?_
      rintro values bytes ⟨rfl, -⟩
      exact ⟨[], rfl, by simp, rfl⟩
  | succ count ih =>
      refine (h.bind fun value => ih.bind_pure (value :: ·)).mono ?_
      rintro values bytes ⟨value, _, _, rfl, ⟨x, hx, rfl⟩, _, ⟨xs, hcount, hxs, rfl⟩, rfl⟩
      exact ⟨x :: xs, by rw [List.length_cons, hcount], List.forall_mem_cons.mpr ⟨hx, hxs⟩, rfl⟩

lemma laidOut_counted (h : LaidOut item fun _ bytes => ∃ x, fits x ∧ bytes = bytesOf x) :
    LaidOut (counted item) fun _ bytes =>
      ∃ xs : List ι, xs.length < 0x10000 ∧ (∀ x ∈ xs, fits x) ∧ bytes = u2 xs.length ++ xs.flatMap bytesOf := by
  refine (laidOut_u16.bind fun count => laidOut_many h count.toNat).mono ?_
  rintro values bytes ⟨count, _, _, rfl, rfl, xs, hcount, hxs, rfl⟩
  exact ⟨xs, hcount ▸ count.toNat_lt, hxs, by rw [hcount]⟩

end Sequences

end JarSurvey.ClassFile.Reader
