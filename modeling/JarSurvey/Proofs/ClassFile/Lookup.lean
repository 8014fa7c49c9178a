import JarSurvey.ClassFile.ConstantPool
import JarSurvey.Proofs.Except

/-!
# What stands in a constant pool

The functions that look constants up fail in several ways.  What a success means does not depend on
these: it says which slots hold what.  `Holds` is that statement for one slot, and the relations after it
put slots together, as the layout of a pool does:

* `TextAt`, `ClassAt`, `NameAndTypeAt`, `MemberAt`, `HandleAt` — the text, the class, the name and type,
  the member and the method handle that an index leads to.

Each look-up succeeds **exactly** when its relation holds (`utf8_eq_ok_iff` and its siblings), so that a
proof about a successful look-up never opens the function.
-/

namespace JarSurvey

namespace ClassFile.ConstantPool

variable {pool : ConstantPool} {index : Index}

/-! ## Slots -/

/-- The slot at an index holds a constant. -/
def Holds (pool : ConstantPool) (index : Index) (constant : Constant) : Prop :=
  pool.slots[index.toNat]? = some (some constant)

lemma Holds.unique {a b : Constant} (ha : pool.Holds index a) (hb : pool.Holds index b) : a = b :=
  Option.some.inj (Option.some.inj (ha.symm.trans hb))

lemma get_eq_ok_iff {constant : Constant} :
    pool.get index = .ok constant ↔ pool.Holds index constant := by
  unfold get Holds
  split
  · rename_i found h
    simp [h]
  · rename_i h
    constructor
    · simp
    · intro hc
      exact absurd hc (h constant)

/-! ## What indices lead to -/

/-- The slot holds a text. -/
def TextAt (pool : ConstantPool) (index : Index) (text : String) : Prop :=
  pool.Holds index (.utf8 text)

/-- The slot holds a class, whose name stands in another slot. -/
def ClassAt (pool : ConstantPool) (index : Index) (name : String) : Prop :=
  ∃ text, pool.Holds index (.classRef text) ∧ pool.TextAt text name

/-- The slot holds a name and a descriptor, each in a slot of its own. -/
def NameAndTypeAt (pool : ConstantPool) (index : Index) (name descriptor : String) : Prop :=
  ∃ first second, pool.Holds index (.nameAndType first second) ∧ pool.TextAt first name ∧
    pool.TextAt second descriptor

/-- The slot holds a field, a method or a method of an interface. -/
def MemberAt (pool : ConstantPool) (index : Index) (member : MemberRef) : Prop :=
  ∃ owner nameAndType,
    (pool.Holds index (.fieldRef owner nameAndType) ∨ pool.Holds index (.methodRef owner nameAndType) ∨
      pool.Holds index (.interfaceMethodRef owner nameAndType)) ∧
    pool.ClassAt owner member.owner ∧ pool.NameAndTypeAt nameAndType member.name member.descriptor

/-- The slot holds a method handle on a member. -/
def HandleAt (pool : ConstantPool) (index : Index) (handle : Handle) : Prop :=
  ∃ member, pool.Holds index (.methodHandle handle.kind member) ∧ pool.MemberAt member handle.member

/-! ## Look-ups -/

lemma utf8_eq_ok_iff {text : String} : pool.utf8 index = .ok text ↔ pool.TextAt index text := by
  simp only [utf8, bind_eq_ok_iff, get_eq_ok_iff, TextAt]
  constructor
  · rintro ⟨constant, hc, h⟩
    cases constant <;> simp_all [pure_eq_ok_iff, throw_ne_ok]
  · intro h
    exact ⟨_, h, rfl⟩

lemma className_eq_ok_iff {name : String} :
    pool.className index = .ok name ↔ pool.ClassAt index name := by
  simp only [className, bind_eq_ok_iff, get_eq_ok_iff, ClassAt]
  constructor
  · rintro ⟨constant, hc, h⟩
    cases constant with
    | classRef text => exact ⟨text, hc, utf8_eq_ok_iff.mp h⟩
    | _ => exact absurd h throw_ne_ok
  · rintro ⟨text, hc, h⟩
    exact ⟨_, hc, utf8_eq_ok_iff.mpr h⟩

lemma nameAndType_eq_ok_iff {name descriptor : String} :
    pool.nameAndType index = .ok (name, descriptor) ↔ pool.NameAndTypeAt index name descriptor := by
  simp only [nameAndType, bind_eq_ok_iff, get_eq_ok_iff, NameAndTypeAt]
  constructor
  · rintro ⟨constant, hc, h⟩
    cases constant with
    | nameAndType first second =>
        simp only [bind_eq_ok_iff, pure_eq_ok_iff, utf8_eq_ok_iff, Prod.mk.injEq] at h
        obtain ⟨_, h1, _, h2, rfl, rfl⟩ := h
        exact ⟨first, second, hc, h1, h2⟩
    | _ => exact absurd h throw_ne_ok
  · rintro ⟨first, second, hc, h1, h2⟩
    refine ⟨_, hc, ?_⟩
    simp only [bind_eq_ok_iff, pure_eq_ok_iff, utf8_eq_ok_iff]
    exact ⟨_, h1, _, h2, rfl⟩

lemma memberOf_eq_ok_iff {owner nameAndType : Index} {member : MemberRef} :
    pool.memberOf owner nameAndType = .ok member ↔
      pool.ClassAt owner member.owner ∧
        pool.NameAndTypeAt nameAndType member.name member.descriptor := by
  simp only [memberOf, bind_eq_ok_iff, className_eq_ok_iff]
  constructor
  · rintro ⟨_, ho, ⟨_, _⟩, hn, h⟩
    cases pure_eq_ok_iff.mp h
    exact ⟨ho, nameAndType_eq_ok_iff.mp hn⟩
  · rintro ⟨ho, hn⟩
    exact ⟨_, ho, _, nameAndType_eq_ok_iff.mpr hn, rfl⟩

lemma member_eq_ok_iff {member : MemberRef} :
    pool.member index = .ok member ↔ pool.MemberAt index member := by
  simp only [ConstantPool.member, bind_eq_ok_iff, get_eq_ok_iff, MemberAt]
  constructor
  · rintro ⟨constant, hc, h⟩
    cases constant with
    | fieldRef owner nameAndType =>
        exact ⟨owner, nameAndType, Or.inl hc, memberOf_eq_ok_iff.mp h⟩
    | methodRef owner nameAndType =>
        exact ⟨owner, nameAndType, Or.inr (Or.inl hc), memberOf_eq_ok_iff.mp h⟩
    | interfaceMethodRef owner nameAndType =>
        exact ⟨owner, nameAndType, Or.inr (Or.inr hc), memberOf_eq_ok_iff.mp h⟩
    | _ => exact absurd h throw_ne_ok
  · rintro ⟨owner, nameAndType, hc | hc | hc, h⟩ <;>
      exact ⟨_, hc, memberOf_eq_ok_iff.mpr h⟩

lemma handle_eq_ok_iff {handle : Handle} :
    pool.handle index = .ok handle ↔ pool.HandleAt index handle := by
  simp only [ConstantPool.handle, bind_eq_ok_iff, get_eq_ok_iff, HandleAt]
  constructor
  · rintro ⟨constant, hc, h⟩
    cases constant with
    | methodHandle kind member =>
        simp only [bind_eq_ok_iff, pure_eq_ok_iff, member_eq_ok_iff] at h
        obtain ⟨_, hm, rfl⟩ := h
        exact ⟨member, hc, hm⟩
    | _ => exact absurd h throw_ne_ok
  · rintro ⟨member, hc, hm⟩
    refine ⟨_, hc, ?_⟩
    simp only [bind_eq_ok_iff, pure_eq_ok_iff, member_eq_ok_iff]
    exact ⟨_, hm, rfl⟩

/-! ## An index leads to one thing only

A look-up is a function, and its relation says when it succeeds with what.
-/

lemma TextAt.unique {a b : String} (ha : pool.TextAt index a) (hb : pool.TextAt index b) : a = b :=
  Except.ok.inj ((utf8_eq_ok_iff.mpr ha).symm.trans (utf8_eq_ok_iff.mpr hb))

lemma ClassAt.unique {a b : String} (ha : pool.ClassAt index a) (hb : pool.ClassAt index b) : a = b :=
  Except.ok.inj ((className_eq_ok_iff.mpr ha).symm.trans (className_eq_ok_iff.mpr hb))

lemma NameAndTypeAt.unique {name name' descriptor descriptor' : String}
    (ha : pool.NameAndTypeAt index name descriptor) (hb : pool.NameAndTypeAt index name' descriptor') :
    (name, descriptor) = (name', descriptor') :=
  Except.ok.inj ((nameAndType_eq_ok_iff.mpr ha).symm.trans (nameAndType_eq_ok_iff.mpr hb))

lemma MemberAt.unique {a b : MemberRef} (ha : pool.MemberAt index a) (hb : pool.MemberAt index b) :
    a = b :=
  Except.ok.inj ((member_eq_ok_iff.mpr ha).symm.trans (member_eq_ok_iff.mpr hb))

lemma HandleAt.unique {a b : Handle} (ha : pool.HandleAt index a) (hb : pool.HandleAt index b) :
    a = b :=
  Except.ok.inj ((handle_eq_ok_iff.mpr ha).symm.trans (handle_eq_ok_iff.mpr hb))

end ClassFile.ConstantPool

end JarSurvey
