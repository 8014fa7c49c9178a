import JarSurvey.Proofs.Graph.Closure

/-!
# Closures of groups that share classes

The rule of closures says that a group pulls in *every* group that contains a class it mentions (`Jar.PullsIn`).
The search keeps one owner for each class, so that a class in several groups pulls in only the first of them
(`Jar.PullsInFirst`).

* For any groups with different names, **closures list what the first owners pull in** (`lists_pullsInFirst`).
  That is never too much by the rule, but it may be too little: a group that contains a mentioned class can be
  missing, and which one is missing depends on the order of the groups (`shared_class_missing`).
* Closures follow the rule exactly if each group already pulls in, through first owners, all the groups that it
  mentions itself (`lists_pullsIn_iff`).  That is so where no class that is mentioned is in two groups
  (`Jar.Unshared`), and then the order of the groups does not matter.

**`closure_first_owner`** puts these together.
-/

namespace JarSurvey

open Relation

namespace Jar

/-- A class of the group mentions a class that the other group is the first to contain. -/
def MentionsFirst (jars : List Jar) (jar other : Jar) : Prop :=
  ∃ record ∈ jar.classes, ∃ reference ∈ record.references,
    jars.find? (·.contains reference) = some other

/-- A chain of groups leads from one group to another, and each of them mentions a class of which the next is
the first owner. -/
def PullsInFirst (jars : List Jar) : Jar → Jar → Prop :=
  ReflTransGen fun jar other => other ∈ jars ∧ MentionsFirst jars jar other

/-- No class that is mentioned is in two groups. -/
def Unshared (jars : List Jar) : Prop :=
  ∀ jar ∈ jars, ∀ record ∈ jar.classes, ∀ reference ∈ record.references, ∀ a ∈ jars, ∀ b ∈ jars,
    a.contains reference = true → b.contains reference = true → a = b

instance (jars : List Jar) : Decidable (Unshared jars) :=
  inferInstanceAs (Decidable (∀ jar ∈ jars, ∀ record ∈ jar.classes, ∀ reference ∈ record.references,
    ∀ a ∈ jars, ∀ b ∈ jars, _))

section Rules

variable {jars : List Jar} {jar other : Jar}

lemma MentionsFirst.mentions (h : MentionsFirst jars jar other) : jar.Mentions other := by
  obtain ⟨record, hrecord, reference, hreference, hfirst⟩ := h
  exact ⟨record, hrecord, reference, hreference, List.find?_some (p := fun group : Jar => group.contains reference) hfirst⟩

/-- What first owners pull in, the rule pulls in. -/
lemma PullsInFirst.pullsIn (h : PullsInFirst jars jar other) : PullsIn jars jar other :=
  ReflTransGen.mono (fun _ _ hstep => ⟨hstep.1, hstep.2.mentions⟩) _ _ h

/-- In unshared groups every group that is mentioned is a first owner. -/
lemma Unshared.mentionsFirst (h : Unshared jars) (hjar : jar ∈ jars) (hother : other ∈ jars)
    (hmentions : jar.Mentions other) : MentionsFirst jars jar other := by
  obtain ⟨record, hrecord, reference, hreference, hin⟩ := hmentions
  refine ⟨record, hrecord, reference, hreference, ?_⟩
  cases hfind : jars.find? (·.contains reference) with
  | none => exact absurd hin (List.find?_eq_none.mp hfind other hother)
  | some first =>
      have hfirst := List.find?_some (p := fun group : Jar => group.contains reference) hfind
      rw [h jar hjar record hrecord reference hreference first (List.mem_of_find?_eq_some hfind) other
        hother hfirst hin]

/-- If each group pulls in through first owners what it mentions itself, it pulls in what the rule says. -/
lemma pullsInFirst_of_pullsIn
    (hcovered : ∀ a ∈ jars, ∀ b ∈ jars, a.Mentions b → PullsInFirst jars a b) (hjar : jar ∈ jars)
    (h : PullsIn jars jar other) : other ∈ jars ∧ PullsInFirst jars jar other := by
  induction h with
  | refl => exact ⟨hjar, ReflTransGen.refl⟩
  | tail _ hstep ih => exact ⟨hstep.1, ih.2.trans (hcovered _ ih.1 _ hstep.1 hstep.2)⟩

lemma Unshared.perm {order : List Jar} (h : Unshared jars) (hperm : order.Perm jars) : Unshared order := by
  simpa only [Unshared, hperm.mem_iff] using h

lemma pullsIn_perm {order : List Jar} (hperm : order.Perm jars) : PullsIn order = PullsIn jars := by
  simp only [PullsIn, hperm.mem_iff]

end Rules

end Jar

namespace Closure

open Search

/-- The closures of groups list what a rule says that the groups pull in. -/
def Lists (jars : List Jar) (pulls : Jar → Jar → Prop) : Prop :=
  List.Forall₂ (fun jar closure => closure.jar = jar.name ∧
    ∀ other ∈ jars, (other.name ∈ closure.affected ↔ pulls jar other)) jars (analyze jars)

section Overlap

variable {jars : List Jar}

/-- The number of the first group that contains a class is the number of its owner. -/
lemma find?_eq_some_iff_owner? {className : String} {other : Jar} :
    jars.find? (·.contains className) = some other ↔
      ∃ j, owner? jars className = some j ∧ jars[j]? = some other := by
  rw [List.find?_eq_bind_findIdx?_getElem?, Option.bind_eq_some_iff]
  rfl

lemma leads_iff_mentionsFirst (hnodup : jars.Nodup) (i j : Nat) :
    Leads (linkTable jars) i j ↔
      ∃ jar other, jars[i]? = some jar ∧ jars[j]? = some other ∧ Jar.MentionsFirst jars jar other := by
  simp only [leads_iff_owner, Jar.MentionsFirst, find?_eq_some_iff_owner?]
  constructor
  · rintro ⟨jar, hi, record, hrecord, reference, hreference, howner⟩
    have hj := List.getElem?_eq_getElem (lt_of_owner? howner)
    exact ⟨jar, _, hi, hj, record, hrecord, reference, hreference, j, howner, hj⟩
  · rintro ⟨jar, other, hi, hj, record, hrecord, reference, hreference, k, howner, hk⟩
    obtain rfl := (List.getElem?_inj (lt_of_owner? howner) hnodup).mp (hk.trans hj.symm)
    exact ⟨jar, hi, record, hrecord, reference, hreference, howner⟩

/-- **Closures list what first owners pull in**, whatever classes the groups share. -/
lemma lists_pullsInFirst (hnames : (jars.map Jar.name).Nodup) : Lists jars (Jar.PullsInFirst jars) := by
  have hnodup := List.Nodup.of_map _ hnames
  rw [Lists, analyze_eq, List.forall₂_iff_get]
  refine ⟨by simp, ?_⟩
  intro i hi _
  have hget := List.getElem?_eq_getElem hi
  simp only [List.get_eq_getElem, List.getElem_map, List.getElem_range]
  refine ⟨nameAt_eq hget, ?_⟩
  intro other hother
  obtain ⟨j, hj⟩ := List.mem_iff_getElem?.mp hother
  rw [name_mem_affected_iff hnames hi hj, reaches_iff_chain (leads_iff_mentionsFirst hnodup) hnodup hget hj]
  rfl

/-- Two rules that closures follow say the same of the groups. -/
lemma Lists.agree {a b : Jar → Jar → Prop} (ha : Lists jars a) (hb : Lists jars b) {jar other : Jar}
    (hjar : jar ∈ jars) (hother : other ∈ jars) : a jar other ↔ b jar other := by
  obtain ⟨i, hi, rfl⟩ := List.mem_iff_getElem.mp hjar
  obtain ⟨hlength, hla⟩ := List.forall₂_iff_get.mp ha
  obtain ⟨-, hlb⟩ := List.forall₂_iff_get.mp hb
  exact ((hla i hi (hlength ▸ hi)).2 other hother).symm.trans ((hlb i hi (hlength ▸ hi)).2 other hother)

lemma Lists.congr {a b : Jar → Jar → Prop} (ha : Lists jars a)
    (h : ∀ jar ∈ jars, ∀ other ∈ jars, (a jar other ↔ b jar other)) : Lists jars b := by
  obtain ⟨hlength, hla⟩ := List.forall₂_iff_get.mp ha
  refine List.forall₂_iff_get.mpr ⟨hlength, ?_⟩
  intro i hi hi'
  obtain ⟨hname, hmem⟩ := hla i hi hi'
  exact ⟨hname, fun other hother => (hmem other hother).trans (h _ (List.getElem_mem hi) other hother)⟩

/-- **When closures follow the rule**: exactly if each group pulls in through first owners all the groups that
it mentions itself. -/
lemma lists_pullsIn_iff (hnames : (jars.map Jar.name).Nodup) :
    Lists jars (Jar.PullsIn jars) ↔
      ∀ jar ∈ jars, ∀ other ∈ jars, jar.Mentions other → Jar.PullsInFirst jars jar other := by
  constructor
  · intro h jar hjar other hother hmentions
    exact (h.agree (lists_pullsInFirst hnames) hjar hother).mp (ReflTransGen.single ⟨hother, hmentions⟩)
  · intro hcovered
    refine (lists_pullsInFirst hnames).congr fun jar hjar other _ => ⟨fun h => h.pullsIn, fun h => ?_⟩
    exact (Jar.pullsInFirst_of_pullsIn hcovered hjar h).2

lemma lists_pullsIn_of_unshared (hnames : (jars.map Jar.name).Nodup) (h : Jar.Unshared jars) :
    Lists jars (Jar.PullsIn jars) := by
  refine (lists_pullsIn_iff hnames).mpr fun jar hjar other hother hmentions => ?_
  exact ReflTransGen.single ⟨hother, h.mentionsFirst hjar hother hmentions⟩

end Overlap

/-- **Closures follow first owners.**  For any groups with different names, which may share classes,

* the closure of a group lists exactly what the group pulls in through first owners, and the rule that a group
  pulls in every group with a class it mentions pulls in all of that;
* closures follow that rule exactly if each group pulls in through first owners all the groups that it mentions
  itself;
* if no class that is mentioned is in two groups, closures follow the rule, in whatever order the groups are
  given. -/
theorem closure_first_owner {jars : List Jar} (hnames : (jars.map Jar.name).Nodup) :
    Lists jars (Jar.PullsInFirst jars) ∧
    (∀ jar other, Jar.PullsInFirst jars jar other → Jar.PullsIn jars jar other) ∧
    (Lists jars (Jar.PullsIn jars) ↔
      ∀ jar ∈ jars, ∀ other ∈ jars, jar.Mentions other → Jar.PullsInFirst jars jar other) ∧
    (Jar.Unshared jars → ∀ order, order.Perm jars → Lists order (Jar.PullsIn jars)) := by
  refine ⟨lists_pullsInFirst hnames, fun _ _ h => h.pullsIn, lists_pullsIn_iff hnames, ?_⟩
  intro hunshared order hperm
  rw [← Jar.pullsIn_perm hperm]
  exact lists_pullsIn_of_unshared ((hperm.map Jar.name).nodup_iff.mpr hnames) (hunshared.perm hperm)

/-! An application mentions a class, and two libraries have it. -/

def applicationJar : Jar := ⟨"app", [⟨"app.Main", ["lib.Core"]⟩]⟩

def libraryJar (name : String) : Jar := ⟨name, [⟨"lib.Core", []⟩]⟩

theorem closure_first_owner_one_library :
    ([applicationJar, libraryJar "one"].map Jar.name).Nodup ∧
      Jar.Unshared [applicationJar, libraryJar "one"] ∧
      Lists [libraryJar "one", applicationJar] (Jar.PullsIn [applicationJar, libraryJar "one"]) := by
  have hunshared : Jar.Unshared [applicationJar, libraryJar "one"] := by decide
  exact ⟨by decide, hunshared, (closure_first_owner (by decide)).2.2.2 hunshared _ (List.Perm.swap _ _ _)⟩

/-- Of two groups that contain the class only the first is listed, so that closures do not follow the rule, and
what they list depends on the order of the groups. -/
theorem shared_class_missing :
    let jars := [applicationJar, libraryJar "one", libraryJar "two"]
    let order := [applicationJar, libraryJar "two", libraryJar "one"]
    (jars.map Jar.name).Nodup ∧ order.Perm jars ∧
    Jar.PullsIn jars applicationJar (libraryJar "two") ∧
    (analyze jars).head?.map Closure.affected = some ["app", "one"] ∧
    (analyze order).head?.map Closure.affected = some ["app", "two"] ∧
    ¬ Lists jars (Jar.PullsIn jars) := by
  intro jars order
  have hpulls : Jar.PullsIn jars applicationJar (libraryJar "two") := ReflTransGen.single (by decide)
  refine ⟨by decide, List.Perm.cons _ (List.Perm.swap _ _ _), hpulls, by decide, by decide, ?_⟩
  intro hlists
  have hmem := ((List.forall₂_cons.mp hlists).1.2 (libraryJar "two") (by decide)).mpr hpulls
  revert hmem
  decide

end Closure

end JarSurvey
