import JarSurvey.ClassFile.References
import JarSurvey.Proofs.ClassFile.SelfDelimiting

/-!
# Larger pools

A pool is extended by another one if every slot that holds a constant holds the same one there.  Nothing that succeeds
with a pool asks how large it is or what it does not hold, so **it succeeds in the same way with a pool that extends
it**: looking constants up, reading the content of attributes, and naming what a class mentions.  Failures are another
matter, for an index may lead nowhere in the smaller pool only.
-/

namespace JarSurvey.ClassFile

namespace ConstantPool

/-- Whatever the pool holds, the other one holds at the same place. -/
def ExtendedBy (pool larger : ConstantPool) : Prop :=
  ∀ index constant, pool.Holds index constant → larger.Holds index constant

variable {pool larger : ConstantPool} {index : Index}

lemma TextAt.extend {text : String} (h : pool.TextAt index text) (hpool : pool.ExtendedBy larger) :
    larger.TextAt index text :=
  hpool _ _ h

lemma ClassAt.extend {name : String} (h : pool.ClassAt index name) (hpool : pool.ExtendedBy larger) :
    larger.ClassAt index name := by
  obtain ⟨text, hclass, htext⟩ := h
  exact ⟨text, hpool _ _ hclass, htext.extend hpool⟩

lemma NameAndTypeAt.extend {name descriptor : String} (h : pool.NameAndTypeAt index name descriptor)
    (hpool : pool.ExtendedBy larger) : larger.NameAndTypeAt index name descriptor := by
  obtain ⟨first, second, hboth, hname, hdescriptor⟩ := h
  exact ⟨first, second, hpool _ _ hboth, hname.extend hpool, hdescriptor.extend hpool⟩

lemma MemberAt.extend {member : MemberRef} (h : pool.MemberAt index member) (hpool : pool.ExtendedBy larger) :
    larger.MemberAt index member := by
  obtain ⟨owner, nameAndType, hholds, howner, hname⟩ := h
  exact ⟨owner, nameAndType, hholds.imp (hpool _ _) (Or.imp (hpool _ _) (hpool _ _)), howner.extend hpool,
    hname.extend hpool⟩

lemma HandleAt.extend {handle : Handle} (h : pool.HandleAt index handle) (hpool : pool.ExtendedBy larger) :
    larger.HandleAt index handle := by
  obtain ⟨member, hholds, hmember⟩ := h
  exact ⟨member, hpool _ _ hholds, hmember.extend hpool⟩

end ConstantPool

/-! ## Successes that are kept -/

/-- Every success of the first computation is one of the second. -/
def Keeps {α : Type} (x y : Except FormatError α) : Prop :=
  ∀ a, x = .ok a → y = .ok a

section Keeps

variable {α β : Type}

lemma Keeps.refl (x : Except FormatError α) : Keeps x x :=
  fun _ h => h

lemma Keeps.bind {x y : Except FormatError α} {f g : α → Except FormatError β} (h : Keeps x y)
    (hnext : ∀ a, Keeps (f a) (g a)) : Keeps (x >>= f) (y >>= g) := by
  intro b hb
  obtain ⟨a, ha, hfa⟩ := bind_eq_ok_iff.mp hb
  exact bind_eq_ok_iff.mpr ⟨a, h a ha, hnext a b hfa⟩

end Keeps

namespace ConstantPool

variable {pool larger : ConstantPool}

lemma keeps_get (h : pool.ExtendedBy larger) (index : Index) : Keeps (pool.get index) (larger.get index) :=
  fun _ hget => get_eq_ok_iff.mpr (h _ _ (get_eq_ok_iff.mp hget))

lemma keeps_utf8 (h : pool.ExtendedBy larger) (index : Index) : Keeps (pool.utf8 index) (larger.utf8 index) :=
  fun _ htext => utf8_eq_ok_iff.mpr ((utf8_eq_ok_iff.mp htext).extend h)

lemma keeps_className (h : pool.ExtendedBy larger) (index : Index) :
    Keeps (pool.className index) (larger.className index) :=
  fun _ hname => className_eq_ok_iff.mpr ((className_eq_ok_iff.mp hname).extend h)

lemma keeps_optionalClassName (h : pool.ExtendedBy larger) (index : Index) :
    Keeps (pool.className? index) (larger.className? index) := by
  rw [className?, className?]
  split
  · exact .refl _
  · intro found hfound
    obtain ⟨name, hname, rfl⟩ := map_eq_ok_iff.mp hfound
    exact map_eq_ok_iff.mpr ⟨name, keeps_className h index _ hname, rfl⟩

lemma keeps_nameAndType (h : pool.ExtendedBy larger) (index : Index) :
    Keeps (pool.nameAndType index) (larger.nameAndType index) :=
  fun _ hboth => nameAndType_eq_ok_iff.mpr ((nameAndType_eq_ok_iff.mp hboth).extend h)

lemma keeps_member (h : pool.ExtendedBy larger) (index : Index) :
    Keeps (pool.member index) (larger.member index) :=
  fun _ hmember => member_eq_ok_iff.mpr ((member_eq_ok_iff.mp hmember).extend h)

lemma keeps_handle (h : pool.ExtendedBy larger) (index : Index) :
    Keeps (pool.handle index) (larger.handle index) :=
  fun _ hhandle => handle_eq_ok_iff.mpr ((handle_eq_ok_iff.mp hhandle).extend h)

end ConstantPool

/-! ## Reading -/

namespace Reader

/-- Every success of the first reader is one of the second. -/
def Kept {α : Type} (reader other : Reader α) : Prop :=
  ∀ cursor, Keeps (reader cursor) (other cursor)

section Combinators

variable {α β : Type} {reader reader' : Reader α}

lemma Kept.refl (reader : Reader α) : Kept reader reader :=
  fun _ => .refl _

lemma Kept.bind {next next' : α → Reader β} (h : Kept reader reader') (hnext : ∀ a, Kept (next a) (next' a)) :
    Kept (reader >>= next) (reader' >>= next') :=
  fun cursor => (h cursor).bind fun found => hnext found.1 found.2

lemma Kept.map (h : Kept reader reader') (f : α → β) : Kept (f <$> reader) (f <$> reader') :=
  h.bind fun a => .refl (pure (f a))

lemma kept_lookup {lookup lookup' : Index → Except FormatError α} (h : ∀ index, Keeps (lookup index) (lookup' index)) :
    Kept (u16 >>= fun i => (liftM (lookup i) : Reader α)) (u16 >>= fun i => (liftM (lookup' i) : Reader α)) :=
  (Kept.refl u16).bind fun index _ => (h index).bind fun _ => .refl _

lemma Kept.many (h : Kept reader reader') (count : Nat) : Kept (many reader count) (many reader' count) := by
  induction count with
  | zero => exact .refl _
  | succ count ih => exact h.bind fun _ => ih.bind fun _ => .refl _

lemma Kept.counted (h : Kept reader reader') : Kept (counted reader) (counted reader') :=
  (Kept.refl u16).bind fun count => h.many count.toNat

lemma Kept.shortCounted (h : Kept reader reader') : Kept (shortCounted reader) (shortCounted reader') :=
  (Kept.refl u8).bind fun count => h.many count.toNat

end Combinators

section Contents

variable {pool larger : ConstantPool} (h : pool.ExtendedBy larger)

include h

lemma kept_utf8 : Kept (utf8 pool) (utf8 larger) :=
  kept_lookup (ConstantPool.keeps_utf8 h)

lemma kept_className : Kept (className pool) (className larger) :=
  kept_lookup (ConstantPool.keeps_className h)

lemma kept_annotationWith {value value' : Reader ElementValue} (hvalue : Kept value value') :
    Kept (annotationWith pool value) (annotationWith larger value') := by
  have helement : Kept (annotationElement pool value) (annotationElement larger value') :=
    (kept_utf8 h).bind fun _ => hvalue.bind fun _ => .refl _
  exact (kept_utf8 h).bind fun _ => helement.counted.bind fun _ => .refl _

/-- Values nest, and the members of a nested annotation stand two levels down. -/
lemma kept_elementValue (levels : Nat) : Kept (elementValue pool levels) (elementValue larger levels) := by
  induction levels using Nat.strong_induction_on with
  | _ levels ih =>
      cases levels with
      | zero => exact .refl _
      | succ levels =>
          unfold elementValue
          refine (Kept.refl u8).bind fun tag => ?_
          split_ifs
          · exact .refl _
          · exact (kept_utf8 h).bind fun _ => (kept_utf8 h).bind fun _ => .refl _
          · exact (kept_utf8 h).bind fun _ => .refl _
          · refine (kept_annotationWith h ?_).bind fun _ => .refl _
            cases levels with
            | zero => exact .refl _
            | succ below => exact ih below (by omega)
          · exact (ih levels (by omega)).counted.bind fun _ => .refl _
          · exact .refl _

lemma kept_annotationUse : Kept (annotationUse pool) (annotationUse larger) :=
  kept_annotationWith h (kept_elementValue h _)

lemma kept_typeAnnotationUse : Kept (typeAnnotationUse pool) (typeAnnotationUse larger) :=
  (Kept.refl u8).bind fun _ => (Kept.refl _).bind fun _ => (Kept.refl _).bind fun _ =>
    (kept_annotationUse h).bind fun _ => .refl _

lemma kept_verificationType : Kept (verificationType pool) (verificationType larger) := by
  refine (Kept.refl u8).bind fun tag => ?_
  split
  case h_8 => exact (kept_className h).bind fun _ => .refl _
  all_goals exact .refl _

lemma kept_frame : Kept (frame pool) (frame larger) := by
  have htypes := fun count => (kept_verificationType h).many count
  have hcounted := (kept_verificationType h).counted
  refine (Kept.refl u8).bind fun type => ?_
  dsimp only
  split_ifs
  · exact .refl _
  · exact (htypes _).bind fun _ => .refl _
  · exact .refl _
  all_goals refine (Kept.refl _).bind fun _ => ?_
  · exact (htypes _).bind fun _ => .refl _
  · exact .refl _
  · exact (htypes _).bind fun _ => .refl _
  · exact hcounted.bind fun _ => hcounted.bind fun _ => .refl _

lemma kept_code (attributes : Reader (List Attribute)) : Kept (code pool attributes) (code larger attributes) := by
  have hcatch : Kept (className? pool) (className? larger) := kept_lookup (ConstantPool.keeps_optionalClassName h)
  have hhandler : Kept (exceptionHandler pool) (exceptionHandler larger) :=
    (Kept.refl u16).bind fun _ => (Kept.refl u16).bind fun _ => (Kept.refl u16).bind fun _ =>
      hcatch.bind fun _ => .refl _
  exact (Kept.refl u16).bind fun _ => (Kept.refl u16).bind fun _ => (Kept.refl sized).bind fun _ =>
    hhandler.counted.bind fun _ => .refl _

/-- The content of an attribute whose name is known. -/
lemma kept_content {attributes : Reader (List Attribute)} {name : String} {content : Reader Attribute}
    (hcontent : content? pool attributes name = some content) :
    ∃ content', content? larger attributes name = some content' ∧ Kept content content' := by
  have huses := (kept_annotationUse h).counted
  unfold content? at hcontent ⊢
  split at hcontent
  all_goals cases hcontent
  · exact ⟨_, rfl, (kept_utf8 h).map _⟩
  · exact ⟨_, rfl, .refl _⟩
  · exact ⟨_, rfl, (kept_className h).counted.map _⟩
  · exact ⟨_, rfl, (kept_code h attributes).map _⟩
  · exact ⟨_, rfl, huses.map _⟩
  · exact ⟨_, rfl, huses.map _⟩
  · exact ⟨_, rfl, huses.shortCounted.map _⟩
  · exact ⟨_, rfl, huses.shortCounted.map _⟩
  · exact ⟨_, rfl, (kept_typeAnnotationUse h).counted.map _⟩
  · exact ⟨_, rfl, (kept_typeAnnotationUse h).counted.map _⟩
  · exact ⟨_, rfl, (kept_elementValue h _).map _⟩
  · exact ⟨_, rfl, .refl _⟩
  · exact ⟨_, rfl, (kept_frame h).counted.map _⟩

end Contents

end Reader

/-! ## Naming -/

lemma keeps_concatNames {α : Type} {names names' : α → Except FormatError (List String)}
    (h : ∀ x, Keeps (names x) (names' x)) (xs : List α) : Keeps (concatNames names xs) (concatNames names' xs) := by
  induction xs with
  | nil => exact .refl _
  | cons x xs ih => exact (h x).bind fun _ => ih.bind fun _ => .refl _

section Names

variable {file larger : ClassFile} (hpool : file.pool.ExtendedBy larger.pool)
  (hmethods : larger.bootstrapMethods = file.bootstrapMethods)

include hpool

lemma keeps_loadedNames {link link' : Index → Except FormatError (List String)}
    (h : ∀ index, Keeps (link index) (link' index)) (index : Index) :
    Keeps (loadedNames file link index) (loadedNames larger link' index) := by
  refine (ConstantPool.keeps_get hpool index).bind fun constant => ?_
  cases constant with
  | classRef name => exact (ConstantPool.keeps_utf8 hpool name).bind fun _ => .refl _
  | methodType descriptor => exact (ConstantPool.keeps_utf8 hpool descriptor).bind fun _ => .refl _
  | methodHandle kind member => exact (ConstantPool.keeps_handle hpool index).bind fun _ => .refl _
  | dynamic bootstrap nameAndType =>
      exact (ConstantPool.keeps_nameAndType hpool nameAndType).bind fun _ => (Keeps.refl _).bind fun _ =>
        (h bootstrap).bind fun _ => .refl _
  | _ => exact .refl _

include hmethods

lemma keeps_bootstrapNames {argument argument' : Index → Except FormatError (List String)}
    (h : ∀ index, Keeps (argument index) (argument' index)) (index : Index) :
    Keeps (bootstrapNames file argument index) (bootstrapNames larger argument' index) := by
  rw [bootstrapNames, bootstrapNames, hmethods]
  split
  · exact .refl _
  · exact (ConstantPool.keeps_handle hpool _).bind fun _ => (Keeps.refl _).bind fun _ =>
      (keeps_concatNames h _).bind fun _ => .refl _

lemma keeps_constantNames (depth : Nat) (index : Index) :
    Keeps (constantNames file depth index) (constantNames larger depth index) := by
  induction depth generalizing index with
  | zero => exact keeps_loadedNames hpool (fun _ => .refl _) index
  | succ below ih => exact keeps_loadedNames hpool (keeps_bootstrapNames hpool hmethods ih) index

lemma keeps_callSiteNames (index : Index) : Keeps (callSiteNames file index) (callSiteNames larger index) := by
  refine (ConstantPool.keeps_get hpool index).bind fun constant => ?_
  cases constant with
  | invokeDynamic bootstrap nameAndType =>
      exact (ConstantPool.keeps_nameAndType hpool nameAndType).bind fun _ => (Keeps.refl _).bind fun _ =>
        (keeps_bootstrapNames hpool hmethods (keeps_constantNames hpool hmethods _) bootstrap).bind fun _ => .refl _
  | _ => exact .refl _

/-- **A site mentions the same classes if the pool is extended.** -/
lemma keeps_namesAt (site : Site) : Keeps (file.namesAt site) (larger.namesAt site) := by
  cases site with
  | constant index => exact keeps_constantNames hpool hmethods _ index
  | classOperand index => exact (ConstantPool.keeps_className hpool index).bind fun _ => .refl _
  | fieldOperand index => exact (ConstantPool.keeps_member hpool index).bind fun _ => .refl _
  | methodOperand index =>
      exact (ConstantPool.keeps_member hpool index).bind fun _ => .refl _
  | callSite index => exact keeps_callSiteNames hpool hmethods index
  | _ => exact .refl _

lemma keeps_references (hsites : larger.sites = file.sites) : Keeps file.references larger.references := by
  rw [references, references, hsites]
  exact keeps_concatNames (keeps_namesAt hpool hmethods) _

end Names

end JarSurvey.ClassFile
