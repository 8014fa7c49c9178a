import JarSurvey.Proofs.Graph.Grouping
import JarSurvey.Proofs.Graph.Search

/-!
# Closures hold what is pulled in, and nothing else

A search works on numbers of groups and on the first group that has a class of some name.  Where no two groups
have a class of the same name, that group is the only one (`owner?_eq_some_iff`), so a number leads to another
exactly when a class of the one group mentions a class of the other (`leads_iff`), and reaching a number is
being pulled in along a chain of groups (`reaches_iff`).

* `IsExact` says what the closure of a group should be, and `isExact_ofJar` that it is;
* `isSimple_iff` : a closure is simple if its group mentions no other;
* **`closure_ranking_exact`** : all of it for the groups of any list of jars, and their ranking.
-/

namespace JarSurvey

open Relation

/-! ## Mentions between groups -/

namespace Jar

/-- A class of the group mentions a class of the other. -/
def Mentions (jar other : Jar) : Prop :=
  ∃ record ∈ jar.classes, ∃ reference ∈ record.references, other.contains reference = true

instance (jar other : Jar) : Decidable (jar.Mentions other) :=
  inferInstanceAs (Decidable (∃ record ∈ jar.classes, ∃ reference ∈ record.references, _))

/-- A chain of groups leads from one group to another, and each of them mentions the next. -/
def PullsIn (jars : List Jar) : Jar → Jar → Prop :=
  ReflTransGen fun jar other => other ∈ jars ∧ jar.Mentions other

/-- No class of the group mentions a class of another group. -/
def StandsAlone (jars : List Jar) (jar : Jar) : Prop :=
  ∀ other ∈ jars, jar.Mentions other → other = jar

instance (jars : List Jar) (jar : Jar) : Decidable (StandsAlone jars jar) :=
  inferInstanceAs (Decidable (∀ other ∈ jars, jar.Mentions other → other = jar))

lemma pullsIn_eq_of_standsAlone {jars : List Jar} {jar other : Jar} (h : StandsAlone jars jar)
    (hpulls : PullsIn jars jar other) : other = jar := by
  induction hpulls with
  | refl => rfl
  | tail _ hstep ih =>
      subst ih
      exact h _ hstep.1 hstep.2

end Jar

namespace Closure

open Search

/-! ## Numbers of groups -/

/-- The mentions in group number `i`. -/
def linkTable (jars : List Jar) (i : Nat) : List Link :=
  (jars.map (links jars)).toArray.getD i []

lemma analyze_eq (jars : List Jar) :
    analyze jars = (List.range jars.length).map (ofJar jars (linkTable jars)) :=
  rfl

lemma linkTable_eq (jars : List Jar) (i : Nat) :
    linkTable jars i = (jars[i]?.map (links jars)).getD [] := by
  simp [linkTable, Array.getD_eq_getD_getElem?]

/-- A mention in the table is a reference of a class to a name with an owner. -/
lemma mem_linkTable_iff {jars : List Jar} {i : Nat} {link : Link} :
    link ∈ linkTable jars i ↔ ∃ jar, jars[i]? = some jar ∧ ∃ record ∈ jar.classes,
      record.name = link.reason.source ∧ link.reason.target ∈ record.references ∧
        owner? jars link.reason.target = some link.owner := by
  rw [linkTable_eq]
  cases hi : jars[i]? with
  | none => simp
  | some jar =>
      simp only [Option.map_some, Option.getD_some, links, List.mem_flatMap, List.mem_filterMap,
        Option.map_eq_some_iff, Option.some.injEq, exists_eq_left']
      constructor
      · rintro ⟨record, hrecord, reference, hreference, owner, howner, rfl⟩
        exact ⟨record, hrecord, rfl, hreference, howner⟩
      · rintro ⟨record, hrecord, hsource, htarget, howner⟩
        exact ⟨record, hrecord, link.reason.target, htarget, link.owner, howner, by rw [hsource]⟩

lemma leads_iff_owner {jars : List Jar} {i j : Nat} :
    Leads (linkTable jars) i j ↔ ∃ jar, jars[i]? = some jar ∧ ∃ record ∈ jar.classes,
      ∃ reference ∈ record.references, owner? jars reference = some j := by
  simp only [Leads, mem_linkTable_iff]
  constructor
  · rintro ⟨link, ⟨jar, hjar, record, hrecord, -, htarget, howner⟩, rfl⟩
    exact ⟨jar, hjar, record, hrecord, link.reason.target, htarget, howner⟩
  · rintro ⟨jar, hjar, record, hrecord, reference, hreference, howner⟩
    exact ⟨⟨⟨record.name, reference⟩, j⟩, ⟨jar, hjar, record, hrecord, rfl, hreference, howner⟩, rfl⟩

lemma lt_of_owner? {jars : List Jar} {className : String} {j : Nat}
    (h : owner? jars className = some j) : j < jars.length :=
  (List.findIdx?_eq_some_iff_getElem.mp h).1

lemma lt_of_leads (jars : List Jar) (i j : Nat) (h : Leads (linkTable jars) i j) : j < jars.length := by
  obtain ⟨_, _, _, _, _, _, howner⟩ := leads_iff_owner.mp h
  exact lt_of_owner? howner

/-- **Reaching a number is following a relation between groups**, if one number leads to another exactly where
the relation holds. -/
lemma reaches_iff_chain {jars : List Jar} {relation : Jar → Jar → Prop}
    (hleads : ∀ i j, Leads (linkTable jars) i j ↔
      ∃ jar other, jars[i]? = some jar ∧ jars[j]? = some other ∧ relation jar other)
    (hnodup : jars.Nodup) {i j : Nat} {jar other : Jar} (hi : jars[i]? = some jar)
    (hj : jars[j]? = some other) :
    ReflTransGen (Leads (linkTable jars)) i j ↔
      ReflTransGen (fun jar other => other ∈ jars ∧ relation jar other) jar other := by
  constructor
  · intro hreach
    induction hreach generalizing other with
    | refl =>
        rw [hi] at hj
        cases hj
        exact ReflTransGen.refl
    | tail _ hstep ih =>
        obtain ⟨middle, last, hk, hlast, hrelation⟩ := (hleads _ _).mp hstep
        rw [hj] at hlast
        cases hlast
        exact (ih hk).tail ⟨List.mem_of_getElem? hj, hrelation⟩
  · intro hchain
    -- The groups of the chain have numbers, and the last of them is `j`, for no group is there twice.
    have hnumber : ∃ k, jars[k]? = some other ∧ ReflTransGen (Leads (linkTable jars)) i k := by
      clear hj
      induction hchain with
      | refl => exact ⟨i, hi, ReflTransGen.refl⟩
      | tail _ hstep ih =>
          obtain ⟨k, hk, hreach⟩ := ih
          obtain ⟨l, hl⟩ := List.mem_iff_getElem?.mp hstep.1
          exact ⟨l, hl, hreach.tail ((hleads _ _).mpr ⟨_, _, hk, hl, hstep.2⟩)⟩
    obtain ⟨k, hk, hreach⟩ := hnumber
    obtain ⟨hlt, -⟩ := List.getElem?_eq_some_iff.mp hj
    rwa [(List.getElem?_inj hlt hnodup).mp (hj.trans hk.symm)]

section Separate

variable {jars : List Jar} (hseparate : Jar.Separate jars)

include hseparate

/-- **In separate groups a class has one owner**: the group that contains it. -/
lemma owner?_eq_some_iff {className : String} {j : Nat} :
    owner? jars className = some j ↔ ∃ other, jars[j]? = some other ∧ other.contains className = true := by
  rw [owner?, List.findIdx?_eq_some_iff_getElem]
  constructor
  · rintro ⟨hj, hin, -⟩
    exact ⟨jars[j], List.getElem?_eq_getElem hj, hin⟩
  · rintro ⟨other, hother, hin⟩
    obtain ⟨hj, rfl⟩ := List.getElem?_eq_some_iff.mp hother
    refine ⟨hj, hin, ?_⟩
    intro k hkj hin'
    exact List.pairwise_iff_getElem.mp hseparate k j (hkj.trans hj) hj hkj className hin' hin

lemma leads_iff {i j : Nat} :
    Leads (linkTable jars) i j ↔
      ∃ jar other, jars[i]? = some jar ∧ jars[j]? = some other ∧ jar.Mentions other := by
  rw [leads_iff_owner]
  constructor
  · rintro ⟨jar, hi, record, hrecord, reference, hreference, howner⟩
    obtain ⟨other, hj, hin⟩ := (owner?_eq_some_iff hseparate).mp howner
    exact ⟨jar, other, hi, hj, record, hrecord, reference, hreference, hin⟩
  · rintro ⟨jar, other, hi, hj, record, hrecord, reference, hreference, hin⟩
    exact ⟨jar, hi, record, hrecord, reference, hreference,
      (owner?_eq_some_iff hseparate).mpr ⟨other, hj, hin⟩⟩

/-- **Reaching a number is being pulled in.** -/
lemma reaches_iff (hnodup : jars.Nodup) {i j : Nat} {jar other : Jar} (hi : jars[i]? = some jar)
    (hj : jars[j]? = some other) :
    ReflTransGen (Leads (linkTable jars)) i j ↔ Jar.PullsIn jars jar other :=
  reaches_iff_chain (fun _ _ => leads_iff hseparate) hnodup hi hj

end Separate

/-! ## The closure of a group -/

/-- What the closure of a group is. -/
structure IsExact (jars : List Jar) (jar : Jar) (closure : Closure) : Prop where
  jar_eq : closure.jar = jar.name
  first : closure.affected.head? = some jar.name
  nodup : closure.affected.Nodup
  mem_iff : ∀ other ∈ jars, (other.name ∈ closure.affected ↔ Jar.PullsIn jars jar other)
  exists_jar : ∀ name ∈ closure.affected, ∃ other ∈ jars, other.name = name

/-- The name of group number `i`. -/
def nameAt (jars : List Jar) (i : Nat) : String :=
  (jars[i]?.map (·.name)).getD ""

lemma nameAt_eq {jars : List Jar} {i : Nat} {jar : Jar} (h : jars[i]? = some jar) :
    nameAt jars i = jar.name := by
  simp [nameAt, h]

lemma ofJar_eq (jars : List Jar) (links : Nat → List Link) (i : Nat) :
    ofJar jars links i = ⟨nameAt jars i,
      (run links jars.length (Search.start i)).found.map (nameAt jars),
      (run links jars.length (Search.start i)).reasons⟩ :=
  rfl

lemma nameAt_inj {jars : List Jar} (hnames : (jars.map Jar.name).Nodup) {i j : Nat}
    (hi : i < jars.length) (hj : j < jars.length) (h : nameAt jars i = nameAt jars j) : i = j := by
  rw [nameAt_eq (List.getElem?_eq_getElem hi), nameAt_eq (List.getElem?_eq_getElem hj)] at h
  have hget : (jars.map Jar.name)[i]? = (jars.map Jar.name)[j]? := by
    simp [hi, hj, h]
  exact (List.getElem?_inj (by simpa using hi) hnames).mp hget

/-- A closure lists the name of a group exactly if the number of the group can be reached. -/
lemma name_mem_affected_iff {jars : List Jar} (hnames : (jars.map Jar.name).Nodup) {i j : Nat}
    {other : Jar} (hi : i < jars.length) (hj : jars[j]? = some other) :
    other.name ∈ (ofJar jars (linkTable jars) i).affected ↔ ReflTransGen (Leads (linkTable jars)) i j := by
  obtain ⟨-, -, hmem⟩ := run_exact (lt_of_leads jars) hi
  obtain ⟨hjlt, -⟩ := List.getElem?_eq_some_iff.mp hj
  rw [ofJar_eq, List.mem_map, ← nameAt_eq hj, ← hmem j]
  constructor
  · rintro ⟨k, hk, heq⟩
    rwa [← nameAt_inj hnames (lt_of_reaches (lt_of_leads jars) hi ((hmem k).mp hk)) hjlt heq]
  · intro hfound
    exact ⟨j, hfound, rfl⟩

lemma isExact_ofJar {jars : List Jar} (hseparate : Jar.Separate jars)
    (hnames : (jars.map Jar.name).Nodup) {i : Nat} {jar : Jar} (hi : jars[i]? = some jar) :
    IsExact jars jar (ofJar jars (linkTable jars) i) := by
  obtain ⟨hlt, -⟩ := List.getElem?_eq_some_iff.mp hi
  obtain ⟨hfirst, hnodup, hmem⟩ := run_exact (lt_of_leads jars) hlt
  have hbound : ∀ j ∈ (run (linkTable jars) jars.length (Search.start i)).found, j < jars.length :=
    fun j hj => lt_of_reaches (lt_of_leads jars) hlt ((hmem j).mp hj)
  constructor
  case jar_eq => exact nameAt_eq hi
  case first =>
    rw [ofJar_eq, List.head?_map, hfirst]
    exact congrArg some (nameAt_eq hi)
  case nodup =>
    refine hnodup.map_on ?_
    intro j hj k hk heq
    exact nameAt_inj hnames (hbound j hj) (hbound k hk) heq
  case mem_iff =>
    intro other hother
    obtain ⟨j, hj⟩ := List.mem_iff_getElem?.mp hother
    rw [name_mem_affected_iff hnames hlt hj, reaches_iff hseparate (List.Nodup.of_map _ hnames) hi hj]
  case exists_jar =>
    intro name hname
    obtain ⟨j, hj, rfl⟩ := List.mem_map.mp hname
    have hget := List.getElem?_eq_getElem (hbound j hj)
    exact ⟨_, List.mem_of_getElem? hget, (nameAt_eq hget).symm⟩

/-- **The closures of all groups, in their order.** -/
lemma isExact_analyze {jars : List Jar} (hseparate : Jar.Separate jars)
    (hnames : (jars.map Jar.name).Nodup) : List.Forall₂ (IsExact jars) jars (analyze jars) := by
  rw [analyze_eq, List.forall₂_iff_get]
  refine ⟨by simp, ?_⟩
  intro i hi _
  have hexact := isExact_ofJar hseparate hnames (List.getElem?_eq_getElem hi)
  simpa using hexact

/-- A closure is simple if its group stands alone. -/
lemma isSimple_iff {jars : List Jar} (hnames : (jars.map Jar.name).Nodup) {jar : Jar} {closure : Closure}
    (hjar : jar ∈ jars) (h : IsExact jars jar closure) :
    closure.isSimple = true ↔ Jar.StandsAlone jars jar := by
  obtain ⟨rest, hrest⟩ := List.head?_eq_some_iff.mp h.first
  have hsimple : closure.isSimple = true ↔ rest = [] := by
    simp [isSimple, hrest]
  rw [hsimple]
  constructor
  · intro hempty other hother hmentions
    have hpulls := (h.mem_iff other hother).mpr (ReflTransGen.single ⟨hother, hmentions⟩)
    rw [hrest, hempty, List.mem_singleton] at hpulls
    exact List.inj_on_of_nodup_map hnames hother hjar hpulls
  · intro halone
    rw [List.eq_nil_iff_forall_not_mem]
    intro name hname
    have haffected : name ∈ closure.affected := by
      rw [hrest]
      exact List.mem_cons_of_mem _ hname
    obtain ⟨other, hother, rfl⟩ := h.exists_jar name haffected
    have hsame := Jar.pullsIn_eq_of_standsAlone halone ((h.mem_iff other hother).mp haffected)
    have hnodup := h.nodup
    rw [hrest, List.nodup_cons] at hnodup
    exact hnodup.1 (hsame ▸ hname)

end Closure

/-! ## The ranking -/

namespace Ranking

/-- Larger closures come first, and closures of one size in the order of their names. -/
def Before (closure other : Closure) : Prop :=
  other.affected.length < closure.affected.length ∨
    closure.affected.length = other.affected.length ∧ closure.jar < other.jar

lemma precedes_iff {closure other : Closure} :
    closure.precedes other = true ↔ other.affected.length < closure.affected.length ∨
      closure.affected.length = other.affected.length ∧ closure.jar ≤ other.jar := by
  simp [Closure.precedes]

lemma precedes_trans (a b c : Closure) (hab : a.precedes b = true) (hbc : b.precedes c = true) :
    a.precedes c = true := by
  rw [precedes_iff] at *
  rcases hab with hab | ⟨hab, hname⟩
  · rcases hbc with hbc | ⟨hbc, -⟩
    · exact Or.inl (hbc.trans hab)
    · exact Or.inl (hbc ▸ hab)
  · rcases hbc with hbc | ⟨hbc, hname'⟩
    · exact Or.inl (hab ▸ hbc)
    · exact Or.inr ⟨hab.trans hbc, String.le_trans hname hname'⟩

lemma precedes_total (a b : Closure) : (a.precedes b || b.precedes a) = true := by
  rw [Bool.or_eq_true, precedes_iff, precedes_iff]
  rcases Nat.lt_trichotomy a.affected.length b.affected.length with h | h | h
  · exact Or.inr (Or.inl h)
  · rcases String.le_total a.jar b.jar with hname | hname
    · exact Or.inl (Or.inr ⟨h, hname⟩)
    · exact Or.inr (Or.inr ⟨h.symm, hname⟩)
  · exact Or.inl (Or.inl h)

lemma perm_complex (closures : List Closure) :
    (ofClosures closures).complex.Perm (closures.filter (!·.isSimple)) :=
  List.mergeSort_perm _ _

/-- **The closures that are not simple stand in their order**, if they are of different groups. -/
lemma pairwise_complex {closures : List Closure} (hnames : (closures.map Closure.jar).Nodup) :
    (ofClosures closures).complex.Pairwise Before := by
  have hsorted : (ofClosures closures).complex.Pairwise fun a b => a.precedes b = true :=
    List.pairwise_mergeSort precedes_trans precedes_total _
  have hdistinct : (ofClosures closures).complex.Pairwise fun a b => a.jar ≠ b.jar := by
    rw [← List.pairwise_map]
    exact ((perm_complex closures).map Closure.jar).nodup_iff.mpr
      (hnames.sublist (List.filter_sublist.map _))
  refine (hsorted.and hdistinct).imp ?_
  rintro a b ⟨hprecedes, hne⟩
  rcases precedes_iff.mp hprecedes with hlt | ⟨heq, hle⟩
  · exact Or.inl hlt
  · exact Or.inr ⟨heq, String.not_le.mp fun hge => hne (String.le_antisymm hle hge)⟩

lemma simple_eq {jars groups : List Jar} {closures : List Closure}
    (hnames : (jars.map Jar.name).Nodup) (hsub : groups ⊆ jars)
    (h : List.Forall₂ (Closure.IsExact jars) groups closures) :
    (ofClosures closures).simple = (groups.filter (Jar.StandsAlone jars ·)).map Jar.name := by
  induction h with
  | nil => rfl
  | @cons group closure groups closures hexact _ ih =>
      rw [List.cons_subset] at hsub
      have hsimple := Closure.isSimple_iff hnames hsub.1 hexact
      have hrest := ih hsub.2
      simp only [ofClosures] at hrest ⊢
      by_cases halone : Jar.StandsAlone jars group
      · simp [hsimple.mpr halone, halone, hrest, hexact.jar_eq]
      · have hnot : closure.isSimple = false := by simpa [halone] using hsimple
        simp [hnot, halone, hrest]

end Ranking

/-- **The closures of the groups of any jars are exact, and so is their ranking.**  Let the classes of the jars
be merged and grouped by namespace.  Then

* no class name occurs twice in all the groups together, and the groups have different names;
* the closure of each group begins with the group, has no repetition, and contains exactly the groups that a
  chain leads to, each group of which mentions a class of the next;
* the simple groups are those that mention no class of another group, and all other closures are ranked, each
  once, by decreasing size and then by name. -/
theorem closure_ranking_exact (jars : List Jar) :
    let groups := Jar.groupByNamespace (Jar.merge jars)
    let closures := Closure.analyze groups
    let ranking := Ranking.ofClosures closures
    ((groups.flatMap Jar.classes).map ClassRecord.name).Nodup ∧
    (groups.map Jar.name).Nodup ∧
    List.Forall₂ (Closure.IsExact groups) groups closures ∧
    ranking.simple = (groups.filter (Jar.StandsAlone groups ·)).map Jar.name ∧
    ranking.complex.Perm (closures.filter (·.jar ∉ ranking.simple)) ∧
    ranking.complex.Pairwise Ranking.Before := by
  intro groups closures ranking
  have hnames : (groups.map Jar.name).Nodup := Jar.nodup_names_groupByNamespace _
  have hexact : List.Forall₂ (Closure.IsExact groups) groups closures :=
    Closure.isExact_analyze (Jar.separate_groupByNamespace _) hnames
  have hjars : closures.map Closure.jar = groups.map Jar.name := by
    rw [← List.forall₂_eq_eq_eq, List.forall₂_map_left_iff, List.forall₂_map_right_iff]
    exact hexact.flip.imp fun _ _ h => h.jar_eq
  have hclosures : (closures.map Closure.jar).Nodup := hjars ▸ hnames
  refine ⟨Jar.nodup_classNames_groupByNamespace (Jar.nodup_names_merge jars), hnames, hexact,
    Ranking.simple_eq hnames (List.Subset.refl _) hexact, ?_, Ranking.pairwise_complex hclosures⟩
  -- A closure is ranked if it is not simple, and its name says which closure it is.
  have hrest : closures.filter (·.jar ∉ ranking.simple) = closures.filter (!·.isSimple) := by
    refine List.filter_congr ?_
    intro closure hclosure
    have hmem : closure.jar ∈ ranking.simple ↔ closure.isSimple = true := by
      constructor
      · intro hjar
        obtain ⟨other, hother, heq⟩ := List.mem_map.mp hjar
        obtain ⟨hother, hsimple⟩ := List.mem_filter.mp hother
        rwa [← List.inj_on_of_nodup_map hclosures hother hclosure heq]
      · intro hsimple
        exact List.mem_map.mpr ⟨closure, List.mem_filter.mpr ⟨hclosure, hsimple⟩, rfl⟩
    simp [hmem]
  rw [hrest]
  exact Ranking.perm_complex closures

end JarSurvey
