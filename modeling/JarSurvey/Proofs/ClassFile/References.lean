import JarSurvey.Proofs.ClassFile.Selection

/-!
# The references of a class are those of its selected sites

A site either is a text or stands for a constant, which leads to further sites.  Following constants may
go round in circles, because the arguments of a bootstrap method may be dynamic constants in turn; the
walk cuts that off at `maxDynamicDepth`.  Nothing in the relations below knows of that bound:

* `Site.Mentions` — the names in a site that is a text, by the grammar of the text;
* `LeadsTo` — the sites that a site leads to through the constant pool;
* `Yields` — the names of a site in reading order: those of its text, or those of the sites it leads to;
* `Read` — the sites that come up: the selected ones, and all that they lead to;
* `Sound` — what a site needs: a text has to parse, an index has to resolve;
* `DynamicChain` — how many dynamic constants follow one another from a constant on.

**`references_exact`** puts them together.  The walk of a class succeeds exactly if the code decodes, every
site that comes up is sound, and no chain of dynamic constants is longer than the bound; and then each name
occurs in the result as often as it occurs at the selected sites.
-/

namespace JarSurvey.ClassFile

variable {file : ClassFile} {depth : Nat}

/-! ## Texts -/

/-- The names in a site that is a text. -/
inductive Site.Mentions : Site → List String → Prop
  | className {name names} (h : Descriptor.classConstantNames name = .ok names) :
      Mentions (.className name) names
  | fieldDescriptor {text type} (h : Descriptor.fieldDescriptor text = .ok type) :
      Mentions (.fieldDescriptor text) type.names
  | methodDescriptor {text type} (h : Descriptor.methodDescriptor text = .ok type) :
      Mentions (.methodDescriptor text) type.names
  | classSignature {text type} (h : Descriptor.classSignature text = .ok type) :
      Mentions (.classSignature text) type.names
  | fieldSignature {text type} (h : Descriptor.fieldSignature text = .ok type) :
      Mentions (.fieldSignature text) type.names
  | methodSignature {text type} (h : Descriptor.methodSignature text = .ok type) :
      Mentions (.methodSignature text) type.namesWithoutThrows
  | voidLiteral {descriptor} (h : Descriptor.returnDescriptor descriptor = .ok none) :
      Mentions (.classLiteral descriptor) []
  | classLiteral {descriptor type} (h : Descriptor.returnDescriptor descriptor = .ok (some type)) :
      Mentions (.classLiteral descriptor) type.names

/-- Whether a site is a text. -/
def Site.isText : Site → Bool
  | .className _ => true
  | .fieldDescriptor _ => true
  | .methodDescriptor _ => true
  | .classSignature _ => true
  | .fieldSignature _ => true
  | .methodSignature _ => true
  | .classLiteral _ => true
  | _ => false

lemma Site.Mentions.isText {site : Site} {names : List String} (h : site.Mentions names) :
    site.isText = true := by
  cases h <;> rfl

lemma Site.Mentions.unique {site : Site} {a b : List String} (ha : site.Mentions a)
    (hb : site.Mentions b) : a = b := by
  cases ha <;> cases hb <;> simp_all

/-! ## Constants -/

/-- The sites of a method handle: the owner of its member and the type of the member. -/
def Handle.sites (handle : Handle) : List Site :=
  [.className handle.member.owner,
    if handle.isField then .fieldDescriptor handle.member.descriptor
    else .methodDescriptor handle.member.descriptor]

/-- The sites of bootstrap method `index`: those of its handle, and its arguments. -/
def LinksTo (file : ClassFile) (index : Index) (parts : List Site) : Prop :=
  ∃ method handle, file.bootstrapMethods[index.toNat]? = some method ∧
    file.pool.HandleAt method.handle handle ∧
    parts = handle.sites ++ method.arguments.map .constant

/-- Whether a constant is computed by a bootstrap method when it is loaded. -/
def Constant.isDynamic : Constant → Bool
  | dynamic _ _ => true
  | _ => false

/-- The sites that a constant leads to when it is loaded.  Numbers and texts lead to none. -/
def Constant.LeadsTo (file : ClassFile) : Constant → List Site → Prop
  | .classRef text, parts => ∃ name, file.pool.TextAt text name ∧ parts = [.className name]
  | .methodType text, parts =>
    ∃ descriptor, file.pool.TextAt text descriptor ∧ parts = [.methodDescriptor descriptor]
  | .methodHandle kind index, parts =>
    ∃ member, file.pool.MemberAt index member ∧ parts = Handle.sites ⟨kind, member⟩
  | .dynamic bootstrap typed, parts =>
    ∃ name descriptor linked, file.pool.NameAndTypeAt typed name descriptor ∧
      LinksTo file bootstrap linked ∧ parts = .fieldDescriptor descriptor :: linked
  | _, parts => parts = []

/-- The sites that a site leads to through the constant pool. -/
inductive LeadsTo (file : ClassFile) : Site → List Site → Prop
  | constant {index constant parts} (h : file.pool.Holds index constant)
      (hc : constant.LeadsTo file parts) : LeadsTo file (.constant index) parts
  | classOperand {index name} (h : file.pool.ClassAt index name) :
      LeadsTo file (.classOperand index) [.className name]
  -- The owner of a field has to resolve, but it is no site.
  | fieldOperand {index member} (h : file.pool.MemberAt index member) :
      LeadsTo file (.fieldOperand index) [.fieldDescriptor member.descriptor]
  | methodOperand {index member} (h : file.pool.MemberAt index member) :
      LeadsTo file (.methodOperand index)
        [.className member.owner, .methodDescriptor member.descriptor]
  | callSite {index bootstrap nameAndType name descriptor linked}
      (h : file.pool.Holds index (.invokeDynamic bootstrap nameAndType))
      (hn : file.pool.NameAndTypeAt nameAndType name descriptor) (hl : LinksTo file bootstrap linked) :
      LeadsTo file (.callSite index) (.methodDescriptor descriptor :: linked)

mutual

/-- The names of a site, in reading order. -/
inductive Yields (file : ClassFile) : Site → List String → Prop
  | text {site names} (h : site.Mentions names) : Yields file site names
  | linked {site parts names} (h : LeadsTo file site parts) (hp : YieldsAll file parts names) :
      Yields file site names

/-- The names of sites, one after the other. -/
inductive YieldsAll (file : ClassFile) : List Site → List String → Prop
  | nil : YieldsAll file [] []
  | cons {site sites names later} (h : Yields file site names) (hs : YieldsAll file sites later) :
      YieldsAll file (site :: sites) (names ++ later)

end

/-- One site leads to another through any number of constants. -/
def Reaches (file : ClassFile) : Site → Site → Prop :=
  Relation.ReflTransGen fun site part => ∃ parts, LeadsTo file site parts ∧ part ∈ parts

/-- The sites that come up when a class is walked. -/
def Read (file : ClassFile) (site : Site) : Prop :=
  ∃ start ∈ file.selected, Reaches file start site

/-- The text of the site parses, or its index resolves. -/
def Sound (file : ClassFile) (site : Site) : Prop :=
  (∃ names, site.Mentions names) ∨ ∃ parts, LeadsTo file site parts

/-- The slot holds a dynamic constant. -/
def IsDynamic (file : ClassFile) (index : Index) : Prop :=
  ∃ constant, file.pool.Holds index constant ∧ constant.isDynamic = true

/-- From the constant on, `length` dynamic constants follow one another, each an argument of the
bootstrap method of the one before. -/
inductive DynamicChain (file : ClassFile) : Nat → Index → Prop
  | last {index} (h : IsDynamic file index) : DynamicChain file 1 index
  | link {index parts argument length} (h : LeadsTo file (.constant index) parts)
      (ha : .constant argument ∈ parts) (hc : DynamicChain file length argument) :
      DynamicChain file (length + 1) index

/-! ## What sites lead to is determined -/

lemma not_isText_of_leadsTo {site : Site} {parts : List Site} (h : LeadsTo file site parts) :
    site.isText = false := by
  cases h <;> rfl

lemma LinksTo.unique {index : Index} {a b : List Site} (ha : LinksTo file index a)
    (hb : LinksTo file index b) : a = b := by
  obtain ⟨method, handle, hm, hh, rfl⟩ := ha
  obtain ⟨method', handle', hm', hh', rfl⟩ := hb
  cases Option.some.inj (hm.symm.trans hm')
  rw [hh.unique hh']

lemma Constant.LeadsTo.unique {constant : Constant} {a b : List Site}
    (ha : constant.LeadsTo file a) (hb : constant.LeadsTo file b) : a = b := by
  cases constant with
  | classRef text =>
      obtain ⟨_, ht, rfl⟩ := ha
      obtain ⟨_, ht', rfl⟩ := hb
      rw [ht.unique ht']
  | methodType text =>
      obtain ⟨_, ht, rfl⟩ := ha
      obtain ⟨_, ht', rfl⟩ := hb
      rw [ht.unique ht']
  | methodHandle kind index =>
      obtain ⟨_, hm, rfl⟩ := ha
      obtain ⟨_, hm', rfl⟩ := hb
      rw [hm.unique hm']
  | dynamic bootstrap nameAndType =>
      obtain ⟨_, _, _, hn, hl, rfl⟩ := ha
      obtain ⟨_, _, _, hn', hl', rfl⟩ := hb
      cases hn.unique hn'
      rw [hl.unique hl']
  | _ => exact Eq.trans ha (Eq.symm hb)

lemma LeadsTo.unique {site : Site} {a b : List Site} (ha : LeadsTo file site a)
    (hb : LeadsTo file site b) : a = b := by
  cases ha with
  | constant h hc =>
      cases hb with
      | constant h' hc' =>
          cases h.unique h'
          exact hc.unique hc'
  | classOperand h => cases hb with | classOperand h' => rw [h.unique h']
  | fieldOperand h => cases hb with | fieldOperand h' => rw [h.unique h']
  | methodOperand h => cases hb with | methodOperand h' => rw [h.unique h']
  | callSite h hn hl =>
      cases hb with
      | callSite h' hn' hl' =>
          cases h.unique h'
          cases hn.unique hn'
          rw [hl.unique hl']

mutual

lemma Yields.unique {site : Site} {a b : List String} :
    Yields file site a → Yields file site b → a = b
  | .text h, .text h' => h.unique h'
  | .text h, .linked h' _ => by
      have := not_isText_of_leadsTo h'
      simp [h.isText] at this
  | .linked h _, .text h' => by
      have := not_isText_of_leadsTo h
      simp [h'.isText] at this
  | .linked h hp, .linked h' hp' => by
      cases h.unique h'
      exact hp.unique hp'

lemma YieldsAll.unique {sites : List Site} {a b : List String} :
    YieldsAll file sites a → YieldsAll file sites b → a = b
  | .nil, .nil => rfl
  | .cons h hs, .cons h' hs' => by rw [h.unique h', hs.unique hs']

end

/-! ## What a site leads to

Only two kinds of sites come after the selected ones: texts, at which every path ends, and further
constants, which stand behind dynamic constants and call sites.
-/

lemma Handle.isText_of_mem_sites {handle : Handle} {part : Site} (h : part ∈ handle.sites) :
    part.isText = true := by
  simp only [Handle.sites, List.mem_cons, List.not_mem_nil, or_false] at h
  rcases h with rfl | rfl
  · rfl
  · split_ifs <;> rfl

lemma LinksTo.isText_or_constant {index : Index} {parts : List Site} (h : LinksTo file index parts)
    {part : Site} (hp : part ∈ parts) :
    part.isText = true ∨ ∃ argument, part = .constant argument := by
  obtain ⟨method, handle, _, _, rfl⟩ := h
  simp only [List.mem_append, List.mem_map] at hp
  rcases hp with hp | ⟨argument, _, rfl⟩
  · exact Or.inl (Handle.isText_of_mem_sites hp)
  · exact Or.inr ⟨argument, rfl⟩

lemma LeadsTo.isText_or_constant {site : Site} {parts : List Site} (h : LeadsTo file site parts)
    {part : Site} (hp : part ∈ parts) :
    part.isText = true ∨ ∃ argument, part = .constant argument := by
  cases h with
  | @constant index constant parts h hc =>
      cases constant with
      | classRef text => obtain ⟨_, _, rfl⟩ := hc; simp_all [Site.isText]
      | methodType text => obtain ⟨_, _, rfl⟩ := hc; simp_all [Site.isText]
      | methodHandle kind index =>
          obtain ⟨_, _, rfl⟩ := hc
          exact Or.inl (Handle.isText_of_mem_sites hp)
      | dynamic bootstrap nameAndType =>
          obtain ⟨_, _, _, _, hl, rfl⟩ := hc
          rcases List.mem_cons.mp hp with rfl | hp
          · exact Or.inl rfl
          · exact hl.isText_or_constant hp
      | _ => simp_all [Constant.LeadsTo]
  | callSite h hn hl =>
      rcases List.mem_cons.mp hp with rfl | hp
      · exact Or.inl rfl
      · exact hl.isText_or_constant hp
  | methodOperand h =>
      simp only [List.mem_cons, List.not_mem_nil, or_false] at hp
      rcases hp with rfl | rfl <;> exact Or.inl rfl
  | _ => simp_all [Site.isText]

/-- Only a dynamic constant leads to a constant. -/
lemma LeadsTo.isDynamic {index argument : Index} {parts : List Site}
    (h : LeadsTo file (.constant index) parts) (ha : .constant argument ∈ parts) :
    IsDynamic file index := by
  cases h with
  | @constant _ constant _ h hc =>
      cases constant with
      | dynamic bootstrap typed => exact ⟨_, h, rfl⟩
      | classRef text => obtain ⟨_, _, rfl⟩ := hc; simp at ha
      | methodType text => obtain ⟨_, _, rfl⟩ := hc; simp at ha
      | methodHandle kind member =>
          obtain ⟨_, _, rfl⟩ := hc
          cases Handle.isText_of_mem_sites ha
      | _ => cases hc; cases ha

/-! ## Names one after the other -/

section ConcatNames

variable {α : Type} {names : α → Except FormatError (List String)} {found : List String}

lemma concatNames_cons_eq_ok_iff {x : α} {xs : List α} :
    concatNames names (x :: xs) = .ok found ↔
      ∃ first later, names x = .ok first ∧ concatNames names xs = .ok later ∧
        first ++ later = found := by
  simp only [concatNames, bind_eq_ok_iff, pure_eq_ok_iff]
  constructor
  · rintro ⟨first, hf, later, hl, h⟩
    exact ⟨first, later, hf, hl, h⟩
  · rintro ⟨first, later, hf, hl, h⟩
    exact ⟨first, hf, later, hl, h⟩

lemma concatNames_singleton_eq_ok_iff {x : α} :
    concatNames names [x] = .ok found ↔ names x = .ok found := by
  rw [concatNames_cons_eq_ok_iff]
  simp [concatNames]

lemma concatNames_pair_eq_ok_iff {x y : α} :
    concatNames names [x, y] = .ok found ↔
      ∃ first later, names x = .ok first ∧ names y = .ok later ∧ first ++ later = found := by
  rw [concatNames_cons_eq_ok_iff]
  simp only [concatNames_singleton_eq_ok_iff]

lemma concatNames_append_eq_ok_iff {xs ys : List α} :
    concatNames names (xs ++ ys) = .ok found ↔
      ∃ first later, concatNames names xs = .ok first ∧ concatNames names ys = .ok later ∧
        first ++ later = found := by
  induction xs generalizing found with
  | nil => simp [concatNames]
  | cons x xs ih =>
      simp only [List.cons_append, concatNames_cons_eq_ok_iff, ih]
      constructor
      · rintro ⟨first, _, hf, ⟨middle, later, hm, hl, rfl⟩, rfl⟩
        exact ⟨first ++ middle, later, ⟨first, middle, hf, hm, rfl⟩, hl, by simp⟩
      · rintro ⟨_, later, ⟨first, middle, hf, hm, rfl⟩, hl, rfl⟩
        exact ⟨first, middle ++ later, hf, ⟨middle, later, hm, hl, rfl⟩, by simp⟩

lemma concatNames_map {β : Type} (f : β → α) (ys : List β) :
    concatNames names (ys.map f) = concatNames (fun y => names (f y)) ys := by
  induction ys with
  | nil => rfl
  | cons y ys ih => rw [List.map_cons, concatNames, concatNames, ih]

/-- The walk of a list succeeds if it succeeds at each item. -/
lemma concatNames_ok_iff {xs : List α} :
    (∃ found, concatNames names xs = .ok found) ↔ ∀ x ∈ xs, ∃ found, names x = .ok found := by
  induction xs with
  | nil => simp [concatNames]
  | cons x xs ih =>
      simp only [concatNames_cons_eq_ok_iff, List.forall_mem_cons, ← ih]
      constructor
      · rintro ⟨_, first, later, hf, hl, _⟩
        exact ⟨⟨first, hf⟩, later, hl⟩
      · rintro ⟨⟨first, hf⟩, later, hl⟩
        exact ⟨_, first, later, hf, hl, rfl⟩

/-- The walk of a list finds a name as often as it finds it at the items. -/
lemma count_concatNames {at_ : α → List String} {xs : List α}
    (hat : ∀ x ∈ xs, names x = .ok (at_ x)) (h : concatNames names xs = .ok found) (name : String) :
    found.count name = (xs.map fun x => (at_ x).count name).sum := by
  induction xs generalizing found with
  | nil =>
      cases h
      rfl
  | cons x xs ih =>
      obtain ⟨first, later, hf, hl, rfl⟩ := concatNames_cons_eq_ok_iff.mp h
      have hx : first = at_ x := Except.ok.inj (hf.symm.trans (hat x (by simp)))
      rw [List.count_append, List.map_cons, List.sum_cons, hx,
        ih (fun y hy => hat y (List.mem_cons_of_mem _ hy)) hl]

end ConcatNames

/-! ## The walk follows the relations -/

/-- The names of a site, where a constant may lead through at most `depth` dynamic constants. -/
def namesBelow (file : ClassFile) (depth : Nat) : Site → Except FormatError (List String)
  | .constant index => constantNames file depth index
  | site => file.namesAt site

lemma namesBelow_maxDynamicDepth : namesBelow file maxDynamicDepth = file.namesAt := by
  funext site
  cases site <;> rfl

lemma ofDescriptor_eq_ok_iff {α : Type} {x : Except Descriptor.Malformed α} {value : α} :
    ofDescriptor x = .ok value ↔ x = .ok value := by
  cases x <;> simp [ofDescriptor]

/-- A text names what it mentions, at any depth. -/
lemma namesBelow_text_eq_ok_iff {site : Site} {names : List String} (hsite : site.isText = true) :
    namesBelow file depth site = .ok names ↔ site.Mentions names := by
  constructor
  · intro h
    cases site with
    | className name => exact .className (ofDescriptor_eq_ok_iff.mp h)
    | fieldDescriptor text =>
        obtain ⟨type, ht, rfl⟩ := map_eq_ok_iff.mp (ofDescriptor_eq_ok_iff.mp h)
        exact .fieldDescriptor ht
    | methodDescriptor text =>
        obtain ⟨type, ht, rfl⟩ := map_eq_ok_iff.mp (ofDescriptor_eq_ok_iff.mp h)
        exact .methodDescriptor ht
    | classSignature text =>
        obtain ⟨type, ht, rfl⟩ := map_eq_ok_iff.mp (ofDescriptor_eq_ok_iff.mp h)
        exact .classSignature ht
    | fieldSignature text =>
        obtain ⟨type, ht, rfl⟩ := map_eq_ok_iff.mp (ofDescriptor_eq_ok_iff.mp h)
        exact .fieldSignature ht
    | methodSignature text =>
        obtain ⟨type, ht, rfl⟩ := map_eq_ok_iff.mp (ofDescriptor_eq_ok_iff.mp h)
        exact .methodSignature ht
    | classLiteral descriptor =>
        obtain ⟨type, ht, rfl⟩ := map_eq_ok_iff.mp (ofDescriptor_eq_ok_iff.mp h)
        cases type with
        | none => exact .voidLiteral ht
        | some type =>
            rw [Option.toList_some, List.flatMap_singleton]
            exact .classLiteral ht
    | _ => cases hsite
  · intro h
    cases h with
    | className h => exact ofDescriptor_eq_ok_iff.mpr h
    | _ h => simp [namesBelow, namesAt, fieldNames, methodNames, h, ofDescriptor, Except.map]

lemma handleNames_eq_ok_iff {handle : Handle} {names : List String} :
    handleNames handle = .ok names ↔ concatNames (namesBelow file depth) handle.sites = .ok names := by
  have hsite : (if handle.isField then fieldNames handle.member.descriptor
      else methodNames handle.member.descriptor) =
      namesBelow file depth (if handle.isField then .fieldDescriptor handle.member.descriptor
        else .methodDescriptor handle.member.descriptor) := by
    split_ifs <;> rfl
  rw [Handle.sites, concatNames_pair_eq_ok_iff, ← hsite, handleNames]
  split_ifs <;> simp only [bind_eq_ok_iff, pure_eq_ok_iff] <;>
  · constructor
    · rintro ⟨first, hf, later, hl, h⟩
      exact ⟨first, later, hf, hl, h⟩
    · rintro ⟨first, later, hf, hl, h⟩
      exact ⟨first, hf, later, hl, h⟩

/-- A bootstrap method names what the sites name that it links to. -/
lemma bootstrapNames_eq_ok_iff {index : Index} {names : List String} :
    bootstrapNames file (constantNames file depth) index = .ok names ↔
      ∃ parts, LinksTo file index parts ∧ concatNames (namesBelow file depth) parts = .ok names := by
  simp only [bootstrapNames, LinksTo]
  cases hm : file.bootstrapMethods[index.toNat]? with
  | none => simp [throw_ne_ok]
  | some method =>
      simp only [bind_eq_ok_iff, pure_eq_ok_iff, ConstantPool.handle_eq_ok_iff]
      constructor
      · rintro ⟨handle, hh, first, hf, later, hl, rfl⟩
        refine ⟨_, ⟨method, handle, rfl, hh, rfl⟩, ?_⟩
        rw [concatNames_append_eq_ok_iff, concatNames_map]
        exact ⟨first, later, handleNames_eq_ok_iff.mp hf, hl, rfl⟩
      · rintro ⟨_, ⟨_, handle, hm', hh, rfl⟩, h⟩
        cases hm'
        rw [concatNames_append_eq_ok_iff, concatNames_map] at h
        obtain ⟨first, later, hf, hl, rfl⟩ := h
        exact ⟨handle, hh, first, handleNames_eq_ok_iff.mpr hf, later, hl, rfl⟩

/-- What a constant names, and what it needs of the bootstrap method of a dynamic constant. -/
lemma loadedNames_eq_ok_iff {link : Index → Except FormatError (List String)} {index : Index}
    {constant : Constant} {names : List String} (hc : file.pool.Holds index constant)
    (hlink : ∀ bootstrap found, link bootstrap = .ok found ↔
      depth ≠ 0 ∧ ∃ parts, LinksTo file bootstrap parts ∧
        concatNames (namesBelow file (depth - 1)) parts = .ok found) :
    loadedNames file link index = .ok names ↔
      ∃ parts, constant.LeadsTo file parts ∧ (constant.isDynamic = true → depth ≠ 0) ∧
        concatNames (namesBelow file (depth - 1)) parts = .ok names := by
  rw [loadedNames, ConstantPool.get_eq_ok_iff.mpr hc]
  cases constant with
  | classRef text =>
      show (do classNames (← file.pool.utf8 text)) = .ok names ↔ _
      simp only [bind_eq_ok_iff, ConstantPool.utf8_eq_ok_iff]
      constructor
      · rintro ⟨name, ht, h⟩
        exact ⟨_, ⟨name, ht, rfl⟩, fun hd => absurd hd Bool.false_ne_true, concatNames_singleton_eq_ok_iff.mpr h⟩
      · rintro ⟨_, ⟨name, ht, rfl⟩, _, h⟩
        exact ⟨name, ht, concatNames_singleton_eq_ok_iff.mp h⟩
  | methodType text =>
      show (do methodNames (← file.pool.utf8 text)) = .ok names ↔ _
      simp only [bind_eq_ok_iff, ConstantPool.utf8_eq_ok_iff]
      constructor
      · rintro ⟨descriptor, ht, h⟩
        exact ⟨_, ⟨descriptor, ht, rfl⟩, fun hd => absurd hd Bool.false_ne_true, concatNames_singleton_eq_ok_iff.mpr h⟩
      · rintro ⟨_, ⟨descriptor, ht, rfl⟩, _, h⟩
        exact ⟨descriptor, ht, concatNames_singleton_eq_ok_iff.mp h⟩
  | methodHandle kind member =>
      show (do handleNames (← file.pool.handle index)) = .ok names ↔ _
      simp only [bind_eq_ok_iff, ConstantPool.handle_eq_ok_iff]
      constructor
      · rintro ⟨handle, ⟨_, hh, hm⟩, h⟩
        cases hc.unique hh
        exact ⟨_, ⟨handle.member, hm, rfl⟩, fun hd => absurd hd Bool.false_ne_true, handleNames_eq_ok_iff.mp h⟩
      · rintro ⟨_, ⟨found, hm, rfl⟩, _, h⟩
        exact ⟨⟨kind, found⟩, ⟨member, hc, hm⟩, handleNames_eq_ok_iff.mpr h⟩
  | dynamic bootstrap typed =>
      show (do
        let found ← file.pool.nameAndType typed
        let type ← fieldNames found.2
        let linked ← link bootstrap
        return type ++ linked) = .ok names ↔ _
      simp only [bind_eq_ok_iff, pure_eq_ok_iff, hlink]
      constructor
      · rintro ⟨⟨name, descriptor⟩, hn, type, ht, later, ⟨hdepth, linked, hl, hlater⟩, rfl⟩
        refine ⟨_, ⟨name, descriptor, linked, ConstantPool.nameAndType_eq_ok_iff.mp hn, hl, rfl⟩,
          fun _ => hdepth, ?_⟩
        exact concatNames_cons_eq_ok_iff.mpr ⟨type, later, ht, hlater, rfl⟩
      · rintro ⟨_, ⟨name, descriptor, linked, hn, hl, rfl⟩, hdepth, h⟩
        obtain ⟨type, later, ht, hlater, rfl⟩ := concatNames_cons_eq_ok_iff.mp h
        exact ⟨(name, descriptor), ConstantPool.nameAndType_eq_ok_iff.mpr hn, type, ht, later,
          ⟨hdepth rfl, linked, hl, hlater⟩, rfl⟩
  | _ =>
      constructor
      · intro h
        cases pure_eq_ok_iff.mp h
        exact ⟨[], rfl, fun hd => absurd hd Bool.false_ne_true, rfl⟩
      · rintro ⟨_, rfl, _, h⟩
        exact h

/-- A constant names what the sites name that it leads to.  Behind a dynamic constant one level less is
left, and at level zero it is refused. -/
lemma constantNames_eq_ok_iff {index : Index} {names : List String} :
    constantNames file depth index = .ok names ↔
      ∃ parts, LeadsTo file (.constant index) parts ∧ (IsDynamic file index → depth ≠ 0) ∧
        concatNames (namesBelow file (depth - 1)) parts = .ok names := by
  obtain ⟨link, hlink, heq⟩ : ∃ link, (∀ bootstrap found, link bootstrap = .ok found ↔
      depth ≠ 0 ∧ ∃ parts, LinksTo file bootstrap parts ∧
        concatNames (namesBelow file (depth - 1)) parts = .ok found) ∧
      constantNames file depth = loadedNames file link := by
    cases depth with
    | zero => exact ⟨_, by simp [throw_ne_ok], rfl⟩
    | succ below => exact ⟨_, by simp [bootstrapNames_eq_ok_iff], rfl⟩
  rw [heq]
  constructor
  · intro h
    obtain ⟨constant, hc, -⟩ := bind_eq_ok_iff.mp h
    rw [ConstantPool.get_eq_ok_iff] at hc
    obtain ⟨parts, hp, hdepth, h⟩ := (loadedNames_eq_ok_iff hc hlink).mp h
    refine ⟨parts, .constant hc hp, ?_, h⟩
    rintro ⟨other, ho, hd⟩
    exact hdepth (hc.unique ho ▸ hd)
  · rintro ⟨parts, hp, hdepth, h⟩
    cases hp with
    | @constant _ constant _ hc hp =>
        exact (loadedNames_eq_ok_iff hc hlink).mpr
          ⟨parts, hp, fun hd => hdepth ⟨constant, hc, hd⟩, h⟩

/-- An operand names what the sites name that it leads to. -/
lemma namesAt_eq_ok_iff {site : Site} {names : List String} (htext : site.isText = false)
    (hconstant : ∀ index, site ≠ .constant index) :
    file.namesAt site = .ok names ↔
      ∃ parts, LeadsTo file site parts ∧ concatNames file.namesAt parts = .ok names := by
  cases site with
  | constant index => exact absurd rfl (hconstant index)
  | classOperand index =>
      simp only [namesAt, bind_eq_ok_iff, ConstantPool.className_eq_ok_iff]
      constructor
      · rintro ⟨name, hn, h⟩
        exact ⟨_, .classOperand hn, concatNames_singleton_eq_ok_iff.mpr h⟩
      · rintro ⟨_, hp, h⟩
        cases hp with
        | classOperand hn => exact ⟨_, hn, concatNames_singleton_eq_ok_iff.mp h⟩
  | fieldOperand index =>
      simp only [namesAt, bind_eq_ok_iff, ConstantPool.member_eq_ok_iff]
      constructor
      · rintro ⟨member, hm, h⟩
        exact ⟨_, .fieldOperand hm, concatNames_singleton_eq_ok_iff.mpr h⟩
      · rintro ⟨_, hp, h⟩
        cases hp with
        | fieldOperand hm => exact ⟨_, hm, concatNames_singleton_eq_ok_iff.mp h⟩
  | methodOperand index =>
      simp only [namesAt, methodOperandNames, bind_eq_ok_iff, pure_eq_ok_iff,
        ConstantPool.member_eq_ok_iff]
      constructor
      · rintro ⟨member, hm, first, hf, later, hl, h⟩
        exact ⟨_, .methodOperand hm, concatNames_pair_eq_ok_iff.mpr ⟨first, later, hf, hl, h⟩⟩
      · rintro ⟨_, hp, h⟩
        cases hp with
        | methodOperand hm =>
            obtain ⟨first, later, hf, hl, h⟩ := concatNames_pair_eq_ok_iff.mp h
            exact ⟨_, hm, first, hf, later, hl, h⟩
  | callSite index =>
      rw [namesAt, callSiteNames, bind_eq_ok_iff, ← namesBelow_maxDynamicDepth]
      simp only [ConstantPool.get_eq_ok_iff]
      constructor
      · rintro ⟨constant, hc, h⟩
        cases constant with
        | invokeDynamic bootstrap typed =>
            simp only [bind_eq_ok_iff, pure_eq_ok_iff, bootstrapNames_eq_ok_iff] at h
            obtain ⟨⟨name, descriptor⟩, hn, type, ht, later, ⟨linked, hl, hlater⟩, rfl⟩ := h
            exact ⟨_, .callSite hc (ConstantPool.nameAndType_eq_ok_iff.mp hn) hl,
              concatNames_cons_eq_ok_iff.mpr ⟨type, later, ht, hlater, rfl⟩⟩
        | _ => exact absurd h throw_ne_ok
      · rintro ⟨_, hp, h⟩
        cases hp with
        | callSite hc hn hl =>
            obtain ⟨type, later, ht, hlater, rfl⟩ := concatNames_cons_eq_ok_iff.mp h
            refine ⟨_, hc, ?_⟩
            simp only [bind_eq_ok_iff, pure_eq_ok_iff, bootstrapNames_eq_ok_iff]
            exact ⟨_, ConstantPool.nameAndType_eq_ok_iff.mpr hn, type, ht, later, ⟨_, hl, hlater⟩, rfl⟩
  | undecodable error =>
      constructor
      · intro h
        cases h
      · rintro ⟨_, h, _⟩
        cases h
  | _ => cases htext

/-! ## What the walk finds at a site -/

lemma yieldsAll_of_concatNames {names : Site → Except FormatError (List String)} {sites : List Site}
    {found : List String}
    (hat : ∀ site ∈ sites, ∀ found, names site = .ok found → Yields file site found)
    (h : concatNames names sites = .ok found) : YieldsAll file sites found := by
  induction sites generalizing found with
  | nil =>
      cases h
      exact .nil
  | cons site sites ih =>
      obtain ⟨first, later, hf, hl, rfl⟩ := concatNames_cons_eq_ok_iff.mp h
      exact .cons (hat site (by simp) first hf)
        (ih (fun other hother => hat other (List.mem_cons_of_mem _ hother)) hl)

/-- The bound on the depth does not show in what is found at a constant. -/
lemma yields_of_constantNames {index : Index} {names : List String}
    (h : constantNames file depth index = .ok names) : Yields file (.constant index) names := by
  induction depth using Nat.strong_induction_on generalizing index names with
  | _ depth ih =>
      obtain ⟨parts, hp, hdepth, h⟩ := constantNames_eq_ok_iff.mp h
      refine .linked hp (yieldsAll_of_concatNames (fun part hpart found hfound => ?_) h)
      rcases hp.isText_or_constant hpart with htext | ⟨argument, rfl⟩
      · exact .text ((namesBelow_text_eq_ok_iff htext).mp hfound)
      · have hne := hdepth (hp.isDynamic hpart)
        exact ih (depth - 1) (by omega) hfound

/-- **What the walk finds at a site is what the site yields.** -/
lemma yields_of_namesAt {site : Site} {names : List String} (h : file.namesAt site = .ok names) :
    Yields file site names := by
  have hfirst : ∀ part : Site, part.isText = true ∨ (∃ argument, part = .constant argument) →
      ∀ found, file.namesAt part = .ok found → Yields file part found := by
    rintro part (htext | ⟨argument, rfl⟩) found hfound
    · rw [← namesBelow_maxDynamicDepth] at hfound
      exact .text ((namesBelow_text_eq_ok_iff htext).mp hfound)
    · exact yields_of_constantNames hfound
  by_cases hsite : site.isText = true ∨ ∃ argument, site = .constant argument
  · exact hfirst site hsite names h
  · simp only [not_or, not_exists, Bool.not_eq_true] at hsite
    obtain ⟨parts, hp, h⟩ := (namesAt_eq_ok_iff hsite.1 hsite.2).mp h
    exact .linked hp (yieldsAll_of_concatNames
      (fun part hpart => hfirst part (hp.isText_or_constant hpart)) h)

/-! ## When the walk succeeds at a site

`Fine` collects what is needed at a site and at all that it reaches.
-/

/-- All sites that a site reaches are sound, and chains of dynamic constants from them have at most
`depth` links. -/
def Fine (file : ClassFile) (depth : Nat) (site : Site) : Prop :=
  (∀ part, Reaches file site part → Sound file part) ∧
    ∀ index length, Reaches file site (.constant index) → DynamicChain file length index →
      length ≤ depth

lemma Fine.sound {site : Site} (h : Fine file depth site) : Sound file site :=
  h.1 site Relation.ReflTransGen.refl

lemma Fine.of_leadsTo {site part : Site} {parts : List Site} (h : Fine file depth site)
    (hp : LeadsTo file site parts) (hpart : part ∈ parts) : Fine file depth part := by
  have hstep : ∀ other, Reaches file part other → Reaches file site other :=
    fun other hother => Relation.ReflTransGen.head ⟨parts, hp, hpart⟩ hother
  exact ⟨fun other hother => h.1 other (hstep other hother),
    fun index length hother hc => h.2 index length (hstep _ hother) hc⟩

/-- A site is fine if it is sound, all it leads to is fine, and no long chain begins at it. -/
lemma Fine.intro {site : Site} (hs : Sound file site)
    (hp : ∀ parts, LeadsTo file site parts → ∀ part ∈ parts, Fine file depth part)
    (hc : ∀ index length, site = .constant index → DynamicChain file length index → length ≤ depth) :
    Fine file depth site := by
  constructor
  · intro part hpart
    rcases hpart.cases_head with rfl | ⟨next, ⟨parts, hl, hnext⟩, hpart⟩
    · exact hs
    · exact (hp parts hl next hnext).1 part hpart
  · intro index length hpart hchain
    rcases hpart.cases_head with h | ⟨next, ⟨parts, hl, hnext⟩, hpart⟩
    · exact hc index length h hchain
    · exact (hp parts hl next hnext).2 index length hpart hchain

lemma Fine.mono {site : Site} {more : Nat} (h : Fine file depth site) (hle : depth ≤ more) :
    Fine file more site :=
  ⟨h.1, fun index length hr hc => (h.2 index length hr hc).trans hle⟩

/-- The walk succeeds at a text exactly if the text is fine, which does not depend on the depth. -/
lemma namesBelow_text_ok_iff {site : Site} {more : Nat} (htext : site.isText = true) :
    (∃ names, namesBelow file depth site = .ok names) ↔ Fine file more site := by
  simp only [namesBelow_text_eq_ok_iff htext]
  have hno : ∀ parts, ¬ LeadsTo file site parts := by
    intro parts hp
    rw [not_isText_of_leadsTo hp] at htext
    cases htext
  constructor
  · intro h
    refine Fine.intro (Or.inl h) (fun parts hp => absurd hp (hno parts)) ?_
    rintro index length rfl
    cases htext
  · intro h
    rcases h.sound with h | ⟨parts, hp⟩
    · exact h
    · exact absurd hp (hno parts)

/-- A site that is not a text is sound if it leads somewhere. -/
lemma Sound.leadsTo {site : Site} (h : Sound file site) (htext : site.isText = false) :
    ∃ parts, LeadsTo file site parts := by
  rcases h with ⟨names, hm⟩ | h
  · rw [hm.isText] at htext
    cases htext
  · exact h

/-- A chain from a constant that another constant reaches lengthens to a chain from that other one. -/
lemma DynamicChain.of_reaches {index other : Index} {length : Nat}
    (hr : Reaches file (.constant index) (.constant other)) (hc : DynamicChain file length other) :
    ∃ more, length ≤ more ∧ DynamicChain file more index := by
  have hextend : ∀ site, Reaches file site (.constant other) → ∀ start, site = .constant start →
      ∃ more, length ≤ more ∧ DynamicChain file more start := by
    intro site hsite
    induction hsite using Relation.ReflTransGen.head_induction_on with
    | refl =>
        intro start heq
        cases heq
        exact ⟨length, le_rfl, hc⟩
    | @head site next hstep hrest ih =>
        rintro start rfl
        obtain ⟨parts, hp, hnext⟩ := hstep
        rcases hp.isText_or_constant hnext with htext | ⟨argument, rfl⟩
        · -- Nothing comes after a text.
          rcases hrest.cases_head with rfl | ⟨_, ⟨_, hl, _⟩, _⟩
          · cases htext
          · rw [not_isText_of_leadsTo hl] at htext
            cases htext
        · obtain ⟨more, hle, hmore⟩ := ih argument rfl
          exact ⟨more + 1, by omega, .link hp hnext hmore⟩
  exact hextend _ hr index rfl

/-- Behind a constant, chains are shorter by one link. -/
lemma Fine.below {index argument : Index} {parts : List Site}
    (h : Fine file (depth + 1) (.constant index)) (hp : LeadsTo file (.constant index) parts)
    (ha : .constant argument ∈ parts) : Fine file depth (.constant argument) := by
  refine ⟨(h.of_leadsTo hp ha).1, ?_⟩
  intro other length hother hc
  obtain ⟨more, hle, hmore⟩ := DynamicChain.of_reaches hother hc
  have hlong := h.2 index (more + 1) Relation.ReflTransGen.refl (.link hp ha hmore)
  omega

/-- One level of the walk: if it goes right behind dynamic constants, it goes right. -/
lemma constantNames_ok_iff_of_below {index : Index}
    (hbelow : depth ≠ 0 → ∀ argument, (∃ names, constantNames file (depth - 1) argument = .ok names) ↔
      Fine file (depth - 1) (.constant argument)) :
    (∃ names, constantNames file depth index = .ok names) ↔ Fine file depth (.constant index) := by
  constructor
  · rintro ⟨names, h⟩
    obtain ⟨parts, hp, hdepth, h⟩ := constantNames_eq_ok_iff.mp h
    have hparts := concatNames_ok_iff.mp ⟨names, h⟩
    have hfine : ∀ argument, .constant argument ∈ parts →
        depth ≠ 0 ∧ Fine file (depth - 1) (.constant argument) := by
      intro argument ha
      have hne := hdepth (hp.isDynamic ha)
      exact ⟨hne, (hbelow hne argument).mp (hparts _ ha)⟩
    refine Fine.intro (Or.inr ⟨parts, hp⟩) ?_ ?_
    · intro parts' hp' part hpart
      cases hp.unique hp'
      rcases hp.isText_or_constant hpart with htext | ⟨argument, rfl⟩
      · exact (namesBelow_text_ok_iff htext).mp (hparts part hpart)
      · exact (hfine argument hpart).2.mono (by omega)
    · rintro other length heq hc
      cases heq
      cases hc with
      | last hd =>
          have hne := hdepth hd
          omega
      | link hl ha hc =>
          cases hp.unique hl
          obtain ⟨hne, hf⟩ := hfine _ ha
          have hle := hf.2 _ _ Relation.ReflTransGen.refl hc
          omega
  · intro h
    obtain ⟨parts, hp⟩ := h.sound.leadsTo rfl
    have hdepth : IsDynamic file index → depth ≠ 0 := by
      intro hd
      have hle := h.2 index 1 Relation.ReflTransGen.refl (.last hd)
      omega
    have hparts : ∀ part ∈ parts, ∃ found, namesBelow file (depth - 1) part = .ok found := by
      intro part hpart
      rcases hp.isText_or_constant hpart with htext | ⟨argument, rfl⟩
      · exact (namesBelow_text_ok_iff htext).mpr (h.of_leadsTo hp hpart)
      · have hne := hdepth (hp.isDynamic hpart)
        refine (hbelow hne argument).mpr (Fine.below ?_ hp hpart)
        rwa [Nat.sub_add_cancel (by omega)]
    obtain ⟨names, hn⟩ := concatNames_ok_iff.mpr hparts
    exact ⟨names, constantNames_eq_ok_iff.mpr ⟨parts, hp, hdepth, hn⟩⟩

/-- **The walk succeeds at a constant exactly if all that the constant reaches is fine.** -/
lemma constantNames_ok_iff {index : Index} :
    (∃ names, constantNames file depth index = .ok names) ↔ Fine file depth (.constant index) := by
  induction depth generalizing index with
  | zero => exact constantNames_ok_iff_of_below (fun h => absurd rfl h)
  | succ below ih => exact constantNames_ok_iff_of_below (fun _ _ => ih)

/-- **The walk succeeds at a site exactly if all that the site reaches is fine.** -/
lemma namesAt_ok_iff {site : Site} :
    (∃ names, file.namesAt site = .ok names) ↔ Fine file maxDynamicDepth site := by
  have hfirst : ∀ part : Site, part.isText = true ∨ (∃ argument, part = .constant argument) →
      ((∃ names, file.namesAt part = .ok names) ↔ Fine file maxDynamicDepth part) := by
    rintro part (htext | ⟨argument, rfl⟩)
    · rw [← namesBelow_maxDynamicDepth]
      exact namesBelow_text_ok_iff htext
    · exact constantNames_ok_iff
  by_cases hsite : site.isText = true ∨ ∃ argument, site = .constant argument
  · exact hfirst site hsite
  · simp only [not_or, not_exists, Bool.not_eq_true] at hsite
    simp only [namesAt_eq_ok_iff hsite.1 hsite.2]
    constructor
    · rintro ⟨names, parts, hp, h⟩
      refine Fine.intro (Or.inr ⟨parts, hp⟩) ?_ (fun index _ heq => absurd heq (hsite.2 index))
      intro parts' hp' part hpart
      cases hp.unique hp'
      exact (hfirst part (hp.isText_or_constant hpart)).mp (concatNames_ok_iff.mp ⟨names, h⟩ part hpart)
    · intro h
      obtain ⟨parts, hp⟩ := h.sound.leadsTo hsite.1
      obtain ⟨names, hn⟩ := concatNames_ok_iff.mpr fun part hpart =>
        (hfirst part (hp.isText_or_constant hpart)).mpr (h.of_leadsTo hp hpart)
      exact ⟨names, parts, hp, hn⟩

/-! ## The walk of a class -/

/-- The walk of a class succeeds exactly if its code decodes and its selected sites are fine. -/
lemma references_ok_iff :
    (∃ names, file.references = .ok names) ↔
      file.Decodes ∧ ∀ site ∈ file.selected, Fine file maxDynamicDepth site := by
  simp only [references, concatNames_ok_iff, namesAt_ok_iff, file.sites_perm.mem_iff,
    List.mem_append, or_imp, forall_and]
  rw [and_comm]
  refine and_congr_left fun _ => ?_
  -- No name stands for code that cannot be decoded.
  have hnot : ∀ error, ¬ Fine file maxDynamicDepth (.undecodable error) := by
    intro error h
    obtain ⟨parts, hp⟩ := h.sound.leadsTo rfl
    cases hp
  simp only [undecodables, Decodes, List.mem_flatMap, List.mem_map, Option.mem_toList]
  constructor
  · intro h body hbody
    cases hd : (Instruction.decode body.bytecode).2 with
    | none => rfl
    | some error => exact absurd (h _ ⟨body, hbody, error, hd, rfl⟩) (hnot error)
  · rintro h _ ⟨body, hbody, error, he, rfl⟩
    rw [h body hbody] at he
    cases he

/-- **Exactness of the walk.**  The references of a class can be listed exactly if the code of its methods
decodes, every site that comes up is sound, and no chain of dynamic constants is longer than the bound.
Then each name is listed as often as it occurs at the selected sites, and what occurs at a site does not
depend on the bound. -/
theorem references_exact (file : ClassFile) :
    ((∃ names, file.references = .ok names) ↔
      file.Decodes ∧ (∀ site, Read file site → Sound file site) ∧
        ∀ index length, Read file (.constant index) → DynamicChain file length index →
          length ≤ maxDynamicDepth) ∧
    ∀ names, file.references = .ok names →
      ∃ found : Site → List String,
        (∀ site ∈ file.selected, ∀ names, Yields file site names ↔ names = found site) ∧
        ∀ name, names.count name = (file.selected.map fun site => (found site).count name).sum := by
  constructor
  · rw [references_ok_iff]
    refine and_congr_right fun _ => ?_
    constructor
    · intro h
      refine ⟨?_, ?_⟩
      · rintro site ⟨start, hstart, hr⟩
        exact (h start hstart).1 site hr
      · rintro index length ⟨start, hstart, hr⟩ hc
        exact (h start hstart).2 index length hr hc
    · rintro ⟨hsound, hchain⟩ start hstart
      exact ⟨fun site hr => hsound site ⟨start, hstart, hr⟩,
        fun index length hr hc => hchain index length ⟨start, hstart, hr⟩ hc⟩
  · intro names h
    obtain ⟨hdecodes, hfine⟩ := references_ok_iff.mp ⟨names, h⟩
    choose! found hfound using fun site hsite => namesAt_ok_iff.mpr (hfine site hsite)
    refine ⟨found, ?_, ?_⟩
    · intro site hsite names
      have hy := yields_of_namesAt (hfound site hsite)
      exact ⟨fun h => h.unique hy, fun h => h ▸ hy⟩
    · intro name
      have hnone : file.undecodables = [] := by
        simp only [undecodables, List.flatMap_eq_nil_iff]
        intro body hbody
        rw [hdecodes body hbody]
        rfl
      have hperm : file.sites.Perm file.selected := by
        simpa [hnone] using file.sites_perm
      have hcount := count_concatNames
        (fun site hsite => hfound site (hperm.mem_iff.mp hsite)) h name
      rw [hcount]
      exact (hperm.map _).sum_eq

end JarSurvey.ClassFile
