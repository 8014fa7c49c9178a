import JarSurvey.Proofs.ClassFile.Cursor

/-!
# No class file is the front of another

A reader is *self-delimiting* if the bytes it takes tell where it stops: whatever follows them it takes the same
bytes, and if any of them are missing at the end it fails for lack of data and for nothing else.  Readers in a row are
self-delimiting if each of them is (`SelfDelimiting.bind`), so it is enough to look at numbers and runs of bytes.

Two things need a word.

* **Bodies.**  The content of an attribute is read from its body alone, and the body is taken as a whole before.  A cut
  within a body is noticed there, whatever the content is.
* **Levels.**  A list of attributes is read with more levels than there are bytes left, so a cut changes their number.
  Any number that is large enough does the same (`attributesUpTo_agree`).

The result is **`parse_prefix_free`**.
-/

namespace JarSurvey.ClassFile.Reader

/-- The reader takes these bytes for the value, and finds every shorter piece of them to be cut short. -/
structure Delimits {α : Type} (reader : Reader α) (value : α) (used : List UInt8) : Prop where
  takes : Takes reader value used
  cut_short : ∀ cut more, used = cut ++ more → more ≠ [] → ∀ position,
    ∃ offset ≤ position + cut.length, reader ⟨position, cut⟩ = .error (.truncated offset)

/-- Whatever the reader accepts, it was the bytes it took that told it where to stop. -/
def SelfDelimiting {α : Type} (reader : Reader α) : Prop :=
  LaidOut reader (Delimits reader)

section Combinators

variable {α β : Type} {reader : Reader α}

lemma selfDelimiting_throw (error : FormatError) : SelfDelimiting (throw error : Reader α) :=
  laidOut_throw error

lemma delimits_nil {value : α} (h : Takes reader value []) : Delimits reader value [] := by
  refine ⟨h, ?_⟩
  intro cut more hcut hmore
  exact absurd (List.append_eq_nil_iff.mp hcut.symm).2 hmore

lemma selfDelimiting_lift (x : Except FormatError α) : SelfDelimiting (liftM x : Reader α) := by
  refine (laidOut_lift x).mono ?_
  rintro value bytes ⟨rfl, hx⟩
  exact delimits_nil (takes_lift hx)

lemma selfDelimiting_pure (a : α) : SelfDelimiting (pure a : Reader α) :=
  selfDelimiting_lift (.ok a)

/-- **Readers in a row**: a cut lies within what the first one takes, or behind it. -/
lemma Delimits.bind {next : α → Reader β} {a : α} {b : β} {as bs : List UInt8} (h : Delimits reader a as)
    (hnext : Delimits (next a) b bs) : Delimits (reader >>= next) b (as ++ bs) := by
  refine ⟨h.takes.bind hnext.takes, ?_⟩
  intro cut more hcut hmore position
  rw [bind_apply]
  -- A cut right behind the first part counts as one behind it.
  obtain ⟨later, rfl, rfl⟩ | ⟨short, rfl, hshort⟩ :
      (∃ later, cut = as ++ later ∧ bs = later ++ more) ∨ ∃ short, as = cut ++ short ∧ short ≠ [] := by
    rcases List.append_eq_append_iff.mp hcut with hbehind | ⟨short, rfl, hmore'⟩
    · exact Or.inl hbehind
    · rcases eq_or_ne short [] with rfl | hne
      · exact Or.inl ⟨[], by simp, by simpa using hmore'.symm⟩
      · exact Or.inr ⟨short, rfl, hne⟩
  · obtain ⟨offset, hle, herror⟩ := hnext.cut_short later more rfl hmore (position + as.length)
    refine ⟨offset, by simpa [Nat.add_assoc] using hle, ?_⟩
    rw [h.takes]
    exact herror
  · obtain ⟨offset, hle, herror⟩ := h.cut_short cut short rfl hshort position
    refine ⟨offset, hle, ?_⟩
    rw [herror]
    rfl

lemma SelfDelimiting.bind {next : α → Reader β} (h : SelfDelimiting reader)
    (hnext : ∀ a, SelfDelimiting (next a)) : SelfDelimiting (reader >>= next) := by
  refine (LaidOut.bind h hnext).mono ?_
  rintro b bytes ⟨a, as, bs, rfl, has, hbs⟩
  exact has.bind hbs

end Combinators

/-! ## Numbers and sequences -/

/-- A reader of a fixed number of bytes, which looks at nothing else to tell whether they are there. -/
lemma selfDelimiting_of_width {α : Type} {reader : Reader α} (width : Nat)
    (htakes : ∀ used, used.length = width → ∃ value, Takes reader value used)
    (hshort : ∀ position bytes, bytes.length < width → reader ⟨position, bytes⟩ = .error (.truncated position)) :
    SelfDelimiting reader := by
  intro position bytes value cursor h
  have hwidth : width ≤ bytes.length := by
    by_contra hlt
    rw [hshort position bytes (by omega)] at h
    exact absurd h (by simp)
  have hlength : (bytes.take width).length = width := List.length_take_of_le hwidth
  obtain ⟨found, hfound⟩ := htakes (bytes.take width) hlength
  have hread := hfound position (bytes.drop width)
  rw [List.take_append_drop, h] at hread
  obtain ⟨rfl, rfl⟩ := Prod.mk.inj (Except.ok.inj hread)
  refine ⟨bytes.take width, (List.take_append_drop width bytes).symm, hfound, ?_⟩
  intro cut more hcut hmore start
  have hpos := List.length_pos_iff.mpr hmore
  rw [hcut, List.length_append] at hlength
  exact ⟨start, Nat.le_add_right _ _, hshort start cut (by omega)⟩

lemma selfDelimiting_take (count : Nat) : SelfDelimiting (take count) := by
  refine selfDelimiting_of_width count ?_ ?_
  · rintro used rfl
    exact ⟨used, takes_take used⟩
  · intro position bytes hlen
    have htaken : (bytes.take count).length < count := by
      rw [List.length_take]
      omega
    simp only [take, List.splitAt_eq, if_pos htaken]
    rfl

lemma selfDelimiting_u8 : SelfDelimiting u8 := by
  refine selfDelimiting_of_width 1 ?_ ?_
  · intro used hlen
    obtain ⟨a, rfl⟩ := List.length_eq_one_iff.mp hlen
    exact ⟨a, fun _ _ => rfl⟩
  · rintro position (_ | ⟨a, bytes⟩) hlen
    · rfl
    · simp at hlen

lemma selfDelimiting_u16 : SelfDelimiting u16 := by
  refine selfDelimiting_of_width 2 ?_ ?_
  · intro used hlen
    obtain ⟨a, b, rfl⟩ := List.length_eq_two.mp hlen
    exact ⟨word16 a b, fun _ _ => rfl⟩
  · rintro position (_ | ⟨a, _ | ⟨b, bytes⟩⟩) hlen
    · rfl
    · rfl
    · simp at hlen

lemma selfDelimiting_u32 : SelfDelimiting u32 := by
  refine selfDelimiting_of_width 4 ?_ ?_
  · rintro (_ | ⟨a, _ | ⟨b, _ | ⟨c, _ | ⟨d, _ | ⟨e, used⟩⟩⟩⟩⟩) hlen <;> simp at hlen
    exact ⟨word32 a b c d, fun _ _ => rfl⟩
  · rintro position (_ | ⟨a, _ | ⟨b, _ | ⟨c, _ | ⟨d, bytes⟩⟩⟩⟩) hlen
    · rfl
    · rfl
    · rfl
    · rfl
    · simp only [List.length_cons] at hlen
      omega

lemma selfDelimiting_u64 : SelfDelimiting u64 :=
  selfDelimiting_u32.bind fun _ => selfDelimiting_u32.bind fun _ => selfDelimiting_pure _

lemma selfDelimiting_sized : SelfDelimiting sized :=
  selfDelimiting_u32.bind fun _ => selfDelimiting_take _

section Sequences

variable {α : Type} {item : Reader α}

lemma selfDelimiting_many (h : SelfDelimiting item) (count : Nat) : SelfDelimiting (many item count) := by
  induction count with
  | zero => exact selfDelimiting_pure []
  | succ count ih => exact h.bind fun x => ih.bind fun xs => selfDelimiting_pure (x :: xs)

lemma selfDelimiting_counted (h : SelfDelimiting item) : SelfDelimiting (counted item) :=
  selfDelimiting_u16.bind fun _ => selfDelimiting_many h _

end Sequences

/-! ## The constant pool -/

lemma selfDelimiting_readText (slot : Nat) : SelfDelimiting (ConstantPool.readText slot) := by
  refine selfDelimiting_u16.bind fun length => (selfDelimiting_take _).bind fun bytes => ?_
  split
  · exact selfDelimiting_pure _
  · exact selfDelimiting_throw _

lemma selfDelimiting_readConstant (slot : Nat) : SelfDelimiting (ConstantPool.readConstant slot) := by
  have hone : ∀ f : Index → Constant, SelfDelimiting (u16 >>= fun a => pure (f a)) :=
    fun f => selfDelimiting_u16.bind fun a => selfDelimiting_pure (f a)
  have htwo : ∀ f : Index → Index → Constant, SelfDelimiting (u16 >>= fun a => u16 >>= fun b => pure (f a b)) :=
    fun f => selfDelimiting_u16.bind fun a => hone (f a)
  refine selfDelimiting_u8.bind fun tag => ?_
  split
  · exact (selfDelimiting_readText slot).bind fun text => selfDelimiting_pure _
  · exact (selfDelimiting_u32.bind fun _ => selfDelimiting_pure _).bind fun value => selfDelimiting_pure _
  · exact selfDelimiting_u32.bind fun bits => selfDelimiting_pure _
  · exact selfDelimiting_u64.bind fun value => selfDelimiting_pure _
  · exact selfDelimiting_u64.bind fun bits => selfDelimiting_pure _
  · exact hone _
  · exact hone _
  · exact htwo _
  · exact htwo _
  · exact htwo _
  · exact htwo _
  · exact selfDelimiting_u8.bind fun kind => hone (.methodHandle kind)
  · exact hone _
  · exact htwo _
  · exact htwo _
  · exact hone _
  · exact hone _
  · exact selfDelimiting_throw _

lemma selfDelimiting_readSlots (slot left : Nat) : SelfDelimiting (ConstantPool.readSlots slot left) := by
  fun_induction ConstantPool.readSlots slot left with
  | case1 => exact selfDelimiting_pure []
  | case2 slot left ihwide ih =>
      refine (selfDelimiting_readConstant slot).bind fun constant => ?_
      split
      · exact ihwide.bind fun rest => selfDelimiting_pure _
      · exact ih.bind fun rest => selfDelimiting_pure _

lemma selfDelimiting_pool : SelfDelimiting ConstantPool.read :=
  selfDelimiting_u16.bind fun _ => (selfDelimiting_readSlots _ _).bind fun _ => selfDelimiting_pure _

section Attributes

variable (pool : ConstantPool)

lemma selfDelimiting_utf8 : SelfDelimiting (utf8 pool) :=
  selfDelimiting_u16.bind fun _ => selfDelimiting_lift _

lemma selfDelimiting_className : SelfDelimiting (className pool) :=
  selfDelimiting_u16.bind fun _ => selfDelimiting_lift _

lemma selfDelimiting_optionalClassName : SelfDelimiting (className? pool) :=
  selfDelimiting_u16.bind fun _ => selfDelimiting_lift _

lemma selfDelimiting_exceptionHandler : SelfDelimiting (exceptionHandler pool) :=
  selfDelimiting_u16.bind fun _ => selfDelimiting_u16.bind fun _ => selfDelimiting_u16.bind fun _ =>
    (selfDelimiting_optionalClassName pool).bind fun _ => selfDelimiting_pure _

/-! ## Attributes

The content of an attribute does not matter here: it is read from a body that was taken as a whole.
-/

lemma selfDelimiting_attributeWith (attributes : Reader (List Attribute)) :
    SelfDelimiting (attributeWith pool attributes) := by
  refine (selfDelimiting_utf8 pool).bind fun name => selfDelimiting_sized.bind fun body => ?_
  split
  · exact selfDelimiting_lift _
  · exact selfDelimiting_pure _

lemma selfDelimiting_attributesUpTo (levels : Nat) : SelfDelimiting (attributesUpTo pool levels) := by
  cases levels with
  | zero =>
      intro position bytes value cursor hread
      cases hread
  | succ levels => exact selfDelimiting_counted (selfDelimiting_attributeWith pool _)

end Attributes

/-! ## How deep code may nest

An attribute list is read with more levels than there are bytes.  How many more makes no difference.
-/

section Levels

variable {α β : Type} {n : Nat}

/-- The readers do the same on data of less than `n` bytes. -/
def AgreeBelow (n : Nat) (reader other : Reader α) : Prop :=
  ∀ cursor, cursor.rest.length < n → reader cursor = other cursor

lemma SelfDelimiting.length_rest_le {reader : Reader α} (h : SelfDelimiting reader) {cursor cursor' : Cursor}
    {value : α} (hread : reader cursor = .ok (value, cursor')) : cursor'.rest.length ≤ cursor.rest.length := by
  obtain ⟨used, hused, -⟩ := h _ _ _ _ hread
  rw [hused, List.length_append]
  omega

lemma AgreeBelow.refl (reader : Reader α) : AgreeBelow n reader reader :=
  fun _ _ => rfl

lemma bind_congr_at {reader : Reader α} {next next' : α → Reader β} {cursor : Cursor}
    (h : ∀ a cursor', reader cursor = .ok (a, cursor') → next a cursor' = next' a cursor') :
    (reader >>= next) cursor = (reader >>= next') cursor := by
  rw [bind_apply, bind_apply]
  cases hread : reader cursor with
  | error error => rfl
  | ok found => exact h found.1 found.2 hread

lemma AgreeBelow.bind {reader reader' : Reader α} {next next' : α → Reader β} (h : AgreeBelow n reader reader')
    (hreader : SelfDelimiting reader) (hnext : ∀ a, AgreeBelow n (next a) (next' a)) :
    AgreeBelow n (reader >>= next) (reader' >>= next') := by
  intro cursor hlen
  rw [bind_apply reader', ← h cursor hlen, ← bind_apply]
  exact bind_congr_at fun a cursor' hread => hnext a cursor' ((hreader.length_rest_le hread).trans_lt hlen)

lemma AgreeBelow.many {item item' : Reader α} (h : AgreeBelow n item item') (hitem : SelfDelimiting item)
    (count : Nat) : AgreeBelow n (many item count) (many item' count) := by
  induction count with
  | zero => exact .refl _
  | succ count ih =>
      exact h.bind hitem fun x => ih.bind (selfDelimiting_many hitem count) fun xs => .refl _

lemma AgreeBelow.counted {item item' : Reader α} (h : AgreeBelow n item item') (hitem : SelfDelimiting item) :
    AgreeBelow n (counted item) (counted item') :=
  (AgreeBelow.refl u16).bind selfDelimiting_u16 fun _ => h.many hitem _

variable {pool : ConstantPool} {attributes attributes' : Reader (List Attribute)}

lemma AgreeBelow.code (h : AgreeBelow n attributes attributes') (hself : SelfDelimiting attributes) :
    AgreeBelow n (code pool attributes) (code pool attributes') := by
  have hhandlers := selfDelimiting_counted (selfDelimiting_exceptionHandler pool)
  refine (AgreeBelow.refl u16).bind selfDelimiting_u16 fun maxStack => ?_
  refine (AgreeBelow.refl u16).bind selfDelimiting_u16 fun maxLocals => ?_
  refine (AgreeBelow.refl sized).bind selfDelimiting_sized fun bytecode => ?_
  refine (AgreeBelow.refl _).bind hhandlers fun handlers => ?_
  exact h.bind hself fun inner => .refl _

lemma selfDelimiting_code (pool : ConstantPool) (hself : SelfDelimiting attributes) :
    SelfDelimiting (code pool attributes) :=
  selfDelimiting_u16.bind fun _ => selfDelimiting_u16.bind fun _ => selfDelimiting_sized.bind fun _ =>
    (selfDelimiting_counted (selfDelimiting_exceptionHandler pool)).bind fun _ =>
      hself.bind fun _ => selfDelimiting_pure _

/-- Only the content of code is read by `attributes`. -/
lemma content?_eq {name : String} (h : name ≠ "Code") :
    content? pool attributes name = content? pool attributes' name := by
  unfold content?
  split
  case h_4 => exact absurd rfl h
  all_goals rfl

/-- A body lies behind the index of its name. -/
lemma length_body_lt {cursor middle cursor' : Cursor} {name : String} {body : List UInt8}
    (hname : utf8 pool cursor = .ok (name, middle)) (hbody : sized middle = .ok (body, cursor')) :
    body.length < cursor.rest.length := by
  obtain ⟨_, hused, index, rfl, -⟩ := laidOut_lookup pool.utf8 _ _ _ _ hname
  obtain ⟨_, hused', rfl, -⟩ := laidOut_sized _ _ _ _ hbody
  rw [hused, hused']
  simp only [List.length_append, Layout.u2, List.length_cons, List.length_nil]
  omega

lemma AgreeBelow.attributeWith (h : AgreeBelow n attributes attributes') (hself : SelfDelimiting attributes) :
    AgreeBelow (n + 1) (attributeWith pool attributes) (attributeWith pool attributes') := by
  intro cursor hlen
  refine bind_congr_at fun name middle hname => bind_congr_at fun body cursor' hbody => ?_
  have hshort := length_body_lt hname hbody
  by_cases hcode : name = "Code"
  · subst hcode
    have hcontent : wholeBody "Code" (Attribute.code <$> Reader.code pool attributes) body =
        wholeBody "Code" (Attribute.code <$> Reader.code pool attributes') body := by
      have hmap := (h.code hself).bind (selfDelimiting_code pool hself) fun inner => .refl (pure (Attribute.code inner))
      rw [wholeBody, wholeBody]
      exact congrArg (· >>= _) (hmap (Cursor.start body) (by simp only [Cursor.start]; omega))
    exact congrArg (fun content => (liftM content : Reader Attribute) cursor') hcontent
  · rw [content?_eq hcode]

lemma attributesUpTo_agree (pool : ConstantPool) (levels levels' : Nat) :
    AgreeBelow (min levels levels') (attributesUpTo pool levels) (attributesUpTo pool levels') := by
  induction levels generalizing levels' with
  | zero =>
      intro cursor hlen
      simp at hlen
  | succ levels ih =>
      cases levels' with
      | zero =>
          intro cursor hlen
          simp at hlen
      | succ levels' =>
          rw [Nat.succ_min_succ]
          exact ((ih levels').attributeWith (selfDelimiting_attributesUpTo pool levels)).counted
            (selfDelimiting_attributeWith pool _)

lemma attributes_eq {cursor : Cursor} {levels : Nat} (h : cursor.rest.length < levels) :
    Reader.attributes pool cursor = attributesUpTo pool levels cursor :=
  attributesUpTo_agree pool _ _ cursor (by omega)

end Levels

section Classes

variable (pool : ConstantPool)

/-- The number of levels changes with the data, but what is read and where reading fails do not. -/
lemma selfDelimiting_attributes : SelfDelimiting (attributes pool) := by
  intro position bytes value cursor h
  have hlevels : ∀ levels, bytes.length < levels → ∀ used, bytes = used ++ cursor.rest →
      Delimits (attributesUpTo pool levels) value used := by
    intro levels hlen used hused
    rw [attributes_eq hlen] at h
    obtain ⟨used', hused', hdelimits⟩ := selfDelimiting_attributesUpTo pool levels _ _ _ _ h
    rwa [List.append_cancel_right (hused.symm.trans hused')]
  obtain ⟨used, hused, -⟩ := selfDelimiting_attributesUpTo pool _ _ _ _ _ h
  refine ⟨used, hused, ?_, ?_⟩
  · intro start rest
    rw [attributes_eq (Nat.lt_succ_of_le (Nat.le_max_right bytes.length _))]
    exact (hlevels _ (by omega) used hused).takes start rest
  · intro cut more hcut hmore start
    rw [attributes_eq (Nat.lt_succ_of_le (Nat.le_max_right bytes.length _))]
    exact (hlevels _ (by omega) used hused).cut_short cut more hcut hmore start

lemma selfDelimiting_member : SelfDelimiting (member pool) :=
  selfDelimiting_u16.bind fun _ => (selfDelimiting_utf8 pool).bind fun _ => (selfDelimiting_utf8 pool).bind fun _ =>
    (selfDelimiting_attributes pool).bind fun _ => selfDelimiting_pure _

lemma selfDelimiting_header : SelfDelimiting header := by
  refine selfDelimiting_u32.bind fun found => ?_
  split
  · exact selfDelimiting_throw _
  · exact selfDelimiting_pure _

lemma selfDelimiting_classFile : SelfDelimiting classFile := by
  refine selfDelimiting_header.bind fun _ => selfDelimiting_u16.bind fun _ => selfDelimiting_u16.bind fun _ => ?_
  refine selfDelimiting_pool.bind fun pool => selfDelimiting_u16.bind fun _ => ?_
  have hmembers := selfDelimiting_counted (selfDelimiting_member pool)
  refine (selfDelimiting_className pool).bind fun _ => (selfDelimiting_optionalClassName pool).bind fun _ => ?_
  refine (selfDelimiting_counted (selfDelimiting_className pool)).bind fun _ => hmembers.bind fun _ => ?_
  exact hmembers.bind fun _ => (selfDelimiting_attributes pool).bind fun _ => selfDelimiting_pure _

end Classes

end JarSurvey.ClassFile.Reader

namespace JarSurvey.ClassFile

lemma parse_eq_ok_iff {bytes : List UInt8} {file : ClassFile} :
    parse bytes = .ok file ↔ ∃ position, Reader.classFile (Cursor.start bytes) = .ok (file, ⟨position, []⟩) :=
  Reader.whole_eq_ok_iff Reader.classFile bytes .trailingBytes

/-- **Class files form a prefix-free code.**  A class that lacks bytes at its end is refused for lack of data, at an
offset within the bytes that are left, and a class with more bytes behind it is refused for these. -/
theorem parse_prefix_free {bytes : List UInt8} {file : ClassFile} (h : parse bytes = .ok file) :
    (∀ cut more, bytes = cut ++ more → more ≠ [] →
      ∃ offset ≤ cut.length, parse cut = .error (.truncated offset)) ∧
    ∀ more, more ≠ [] → parse (bytes ++ more) = .error .trailingBytes := by
  obtain ⟨position, hread⟩ := parse_eq_ok_iff.mp h
  have hdelimits := Reader.selfDelimiting_classFile.whole hread
  constructor
  · intro cut more hcut hmore
    obtain ⟨offset, hle, herror⟩ := hdelimits.cut_short cut more hcut hmore 0
    refine ⟨offset, by omega, ?_⟩
    rw [parse, Cursor.start, herror]
    rfl
  · intro more hmore
    obtain ⟨byte, later, rfl⟩ := List.exists_cons_of_ne_nil hmore
    rw [parse, Cursor.start, hdelimits.takes]
    rfl

/-! The class `A` with an attribute that is cut in the middle of its body. -/

def attributedClass : List UInt8 :=
  [0xCA, 0xFE, 0xBA, 0xBE, 0, 0, 0, 52, 0, 3, 1, 0, 1, 65, 7, 0, 1, 0, 0x21, 0, 2, 0, 0, 0, 0, 0, 0, 0, 0] ++
    [0, 1, 0, 1, 0, 0, 0, 2, 7, 7]

theorem parse_prefix_free_attributed :
    ∃ file, parse attributedClass = .ok file ∧
      (∃ offset ≤ 38, parse (attributedClass.take 38) = .error (.truncated offset)) ∧
      parse (attributedClass ++ [0]) = .error .trailingBytes := by
  have hok : (parse attributedClass).isOk = true := by decide +kernel
  obtain ⟨file, hfile⟩ : ∃ file, parse attributedClass = .ok file := by
    cases hparse : parse attributedClass with
    | ok file => exact ⟨file, rfl⟩
    | error error => simp [hparse, Except.isOk, Except.toBool] at hok
  obtain ⟨hcut, hmore⟩ := parse_prefix_free hfile
  exact ⟨file, hfile, hcut (attributedClass.take 38) [7] rfl (by simp), hmore [0] (by simp)⟩

end JarSurvey.ClassFile
