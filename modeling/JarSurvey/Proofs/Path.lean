import JarSurvey.Path
import Mathlib.Tactic

/-!
# Components of what is left of a path

`Path.relativeTo?` cuts the text of a path: it passes over the components of a directory and trims what remains.  What
a text means as a path depends on where it stands, since a slash or a dot that stands in the middle of a path says
nothing and at its beginning is a component.  So components are told in two parts (`components_eq`):

* `opening` — the component that only the beginning of a path can be, with the ways to begin told once (`begins`);
* `inner` — the components of a text that stands further on, which slashes put together (`inner_append_slash`).

Trimming changes neither (`inner_trimFront`, `components_trimBack`), and a trimmed front leaves no opening.  From this
follows `relativeTo?_spec`: **there is something left of a path below a directory exactly if its components begin with
those of the directory, and what is left has the other components.**
-/

namespace JarSurvey.Path

/-! ## Parts and components -/

lemma parts_ne_nil (text : List Char) : parts text ≠ [] := by
  cases text with
  | nil => simp [parts]
  | cons c rest =>
      rw [parts]
      split_ifs
      · simp
      · split <;> simp

lemma parts_slash (rest : List Char) : parts ('/' :: rest) = [] :: parts rest := by
  rw [parts, if_pos rfl]

lemma parts_cons {c : Char} (h : c ≠ '/') (rest : List Char) :
    ∃ part later, parts rest = part :: later ∧ parts (c :: rest) = (c :: part) :: later := by
  obtain ⟨part, later, hrest⟩ := List.exists_cons_of_ne_nil (parts_ne_nil rest)
  refine ⟨part, later, hrest, ?_⟩
  rw [parts, if_neg h, hrest]

lemma parts_append_slash (text later : List Char) : parts (text ++ '/' :: later) = parts text ++ parts later := by
  induction text with
  | nil => exact parts_slash later
  | cons c rest ih =>
      by_cases hc : c = '/'
      · subst hc
        rw [List.cons_append, parts_slash, parts_slash, ih, List.cons_append]
      · obtain ⟨part, others, hrest, hparts⟩ := parts_cons hc rest
        obtain ⟨part', others', hrest', hparts'⟩ := parts_cons hc (rest ++ '/' :: later)
        rw [ih, hrest, List.cons_append, List.cons.injEq] at hrest'
        rw [List.cons_append, hparts, hparts', ← hrest'.1, ← hrest'.2, List.cons_append]

/-- The components of a text that does not stand at the beginning of a path. -/
def inner (text : List Char) : List Component :=
  (parts text).filterMap component?

@[simp] lemma inner_nil : inner [] = [] := rfl

@[simp] lemma inner_dot : inner ['.'] = [] := rfl

/-- **A slash puts the components of two texts together.** -/
lemma inner_append_slash (text later : List Char) : inner (text ++ '/' :: later) = inner text ++ inner later := by
  rw [inner, parts_append_slash, List.filterMap_append, inner, inner]

@[simp] lemma inner_slash (rest : List Char) : inner ('/' :: rest) = inner rest :=
  inner_append_slash [] rest

@[simp] lemma inner_dot_slash (rest : List Char) : inner ('.' :: '/' :: rest) = inner rest :=
  inner_append_slash ['.'] rest

/-- The component that a slash or a dot is at the beginning of a path. -/
def opening : List Char → List Component
  | '/' :: _ => [.root]
  | ['.'] => [.current]
  | '.' :: '/' :: _ => [.current]
  | _ => []

@[simp] lemma opening_slash (rest : List Char) : opening ('/' :: rest) = [.root] := rfl

@[simp] lemma opening_dot : opening ['.'] = [.current] := rfl

@[simp] lemma opening_dot_slash (rest : List Char) : opening ('.' :: '/' :: rest) = [.current] := rfl

/-- The ways in which a text can begin. -/
inductive Begins : List Char → Prop
  | slash (rest : List Char) : Begins ('/' :: rest)
  | dot : Begins ['.']
  | dotSlash (rest : List Char) : Begins ('.' :: '/' :: rest)
  | plain {text : List Char} (hopening : opening text = []) (hbeginning : beginning text = 0) : Begins text

lemma begins (text : List Char) : Begins text := by
  fun_cases beginning text with
  | case1 rest => exact .slash rest
  | case2 => exact .dot
  | case3 rest => exact .dotSlash rest
  | case4 _ hslash hdot hdotSlash =>
      exact .plain (opening.eq_4 text hslash hdot hdotSlash) (beginning.eq_4 text hslash hdot hdotSlash)

/-- The first part of a text that neither begins with a slash nor with a dot of its own is a component. -/
lemma parts_of_opening_eq_nil {text : List Char} (h : opening text = []) :
    text = [] ∨ ∃ part later, parts text = part :: later ∧ part ≠ [] ∧ part ≠ ['.'] := by
  cases text with
  | nil => exact Or.inl rfl
  | cons c rest =>
      have hc : c ≠ '/' := by
        rintro rfl
        exact List.cons_ne_nil _ _ h
      obtain ⟨part, later, hrest, hparts⟩ := parts_cons hc rest
      refine Or.inr ⟨c :: part, later, hparts, by simp, ?_⟩
      rintro ⟨⟩
      -- Behind a dot of its own the text ends, or a slash follows.
      cases rest with
      | nil => exact absurd h (List.cons_ne_nil _ _)
      | cons d rest =>
          by_cases hd : d = '/'
          · subst hd
            exact absurd h (List.cons_ne_nil _ _)
          · obtain ⟨part, others, -, hparts⟩ := parts_cons hd rest
            rw [hparts] at hrest
            cases hrest

lemma beginning_eq (text : List Char) : beginning text = (opening text).length := by
  cases begins text with
  | slash | dot | dotSlash => rfl
  | plain hopening hbeginning => rw [hopening, hbeginning, List.length_nil]

lemma components_eq (path : String) :
    components path = opening path.toList ++ inner (path.toList.drop (beginning path.toList)) := by
  rw [components, beginning_eq]
  generalize path.toList = text
  cases begins text with
  | slash rest =>
      have hmore : (parts rest).isEmpty = false := by simpa using parts_ne_nil rest
      rw [parts_slash]
      simp [hmore, inner]
  | dot => rfl
  | dotSlash rest =>
      rw [show parts ('.' :: '/' :: rest) = ['.'] :: parts rest from parts_append_slash ['.'] rest]
      exact congrArg (Component.current :: ·) (inner_slash rest).symm
  | plain hopening =>
      rw [hopening, List.length_nil, List.drop_zero, List.nil_append]
      rcases parts_of_opening_eq_nil hopening with rfl | ⟨part, later, hparts, hempty, hdot⟩
      · rfl
      · rw [inner, hparts]
        split
        · next heq => cases heq
        · next heq => exact absurd (List.cons.inj heq).1 hempty
        · next heq => exact absurd (List.cons.inj heq).1 hdot
        · next heq => rw [heq]

lemma components_of_opening_eq_nil {text : List Char} (h : opening text = []) :
    components (String.ofList text) = inner text := by
  rw [components_eq, String.toList_ofList, beginning_eq, h, List.length_nil, List.drop_zero, List.nil_append]

/-! ## Trimming -/

@[simp] lemma inner_trimFront (text : List Char) : inner (trimFront text) = inner text := by
  fun_induction trimFront text with
  | case1 rest ih => rw [ih, inner_slash]
  | case2 => rfl
  | case3 rest ih => rw [ih, inner_dot_slash]
  | case4 => rfl

lemma opening_trimFront (text : List Char) : opening (trimFront text) = [] := by
  fun_induction trimFront text with
  | case1 rest ih => exact ih
  | case2 => rfl
  | case3 rest ih => exact ih
  | case4 text hslash hdot hdotSlash =>
      cases begins text with
      | slash rest => exact absurd rfl (hslash rest)
      | dot => exact absurd rfl hdot
      | dotSlash rest => exact absurd rfl (hdotSlash rest)
      | plain hopening => exact hopening

/-- A text without the parts at its end that are no component. -/
def trimmed (text : List Char) : List Char :=
  (trimBack.trimReversed text.reverse).reverse

lemma trimBack_eq (keep : Nat) (text : List Char) : trimBack keep text = text.take keep ++ trimmed (text.drop keep) :=
  rfl

/-- Trimming changes no components, and leaves the front of the text; no dot of its own is left over. -/
lemma trimmed_spec (text : List Char) :
    inner (trimmed text) = inner text ∧ trimmed text <+: text ∧ trimmed text ≠ ['.'] := by
  have hreversed : ∀ reversed : List Char,
      inner (trimBack.trimReversed reversed).reverse = inner reversed.reverse ∧
      trimBack.trimReversed reversed <:+ reversed ∧ trimBack.trimReversed reversed ≠ ['.'] := by
    intro reversed
    fun_induction trimBack.trimReversed reversed with
    | case1 rest ih =>
        refine ⟨?_, ih.2.1.trans (List.suffix_cons _ _), ih.2.2⟩
        rw [ih.1, List.reverse_cons, inner_append_slash, inner_nil, List.append_nil]
    | case2 => exact ⟨rfl, List.nil_suffix, by simp⟩
    | case3 rest ih =>
        refine ⟨?_, ih.2.1.trans ((List.suffix_cons _ _).trans (List.suffix_cons _ _)), ih.2.2⟩
        rw [ih.1, List.reverse_cons, List.reverse_cons, List.append_assoc, List.singleton_append,
          inner_append_slash, inner_dot, List.append_nil]
    | case4 reversed hslash hdot hdotSlash => exact ⟨rfl, List.suffix_rfl, hdot⟩
  obtain ⟨hinner, hsuffix, hdot⟩ := hreversed text.reverse
  rw [trimmed]
  refine ⟨by rw [hinner, List.reverse_reverse], ?_, fun h => hdot (List.reverse_eq_iff.mp h)⟩
  have hbegins := List.reverse_prefix.mpr hsuffix
  rwa [List.reverse_reverse] at hbegins

lemma opening_of_prefix {front text : List Char} (hbegins : front <+: text) (hdot : front ≠ ['.'])
    (h : opening text = []) : opening front = [] := by
  obtain ⟨later, rfl⟩ := hbegins
  cases begins front with
  | slash rest => exact h
  | dot => exact absurd rfl hdot
  | dotSlash rest => exact h
  | plain hopening => exact hopening

/-- Trimming keeps the component at the beginning, if the trimming stops before it. -/
lemma opening_trimBack (text : List Char) : opening (trimBack (beginning text) text) = opening text := by
  rw [trimBack_eq, beginning_eq]
  cases begins text with
  | slash rest => rfl
  | dot => rfl
  | dotSlash rest =>
      -- What is left behind the dot is nothing, or begins with the slash.
      obtain ⟨-, hbegins, -⟩ := trimmed_spec ('/' :: rest)
      change opening ('.' :: trimmed ('/' :: rest)) = _
      rcases List.prefix_cons_iff.mp hbegins with hnil | ⟨left, hleft, -⟩
      · rw [hnil]
        rfl
      · rw [hleft]
        rfl
  | plain hopening =>
      obtain ⟨-, hbegins, hne⟩ := trimmed_spec text
      rw [hopening]
      exact opening_of_prefix hbegins hne hopening

/-- What is trimmed at its end has the same components. -/
lemma components_trimBack (path : String) :
    components (String.ofList (trimBack (beginning path.toList) path.toList)) = components path := by
  have hkept : (path.toList.take (beginning path.toList)).length = beginning path.toList := by
    generalize path.toList = text
    cases begins text with
    | slash | dot | dotSlash => rfl
    | plain _ hbeginning => rw [hbeginning, List.take_zero, List.length_nil]
  have hrest : (trimBack (beginning path.toList) path.toList).drop (beginning path.toList) =
      trimmed (path.toList.drop (beginning path.toList)) := by
    rw [trimBack_eq]
    exact List.drop_left' hkept
  rw [components_eq, components_eq, String.toList_ofList, beginning_eq (trimBack _ _), opening_trimBack,
    ← beginning_eq, hrest, (trimmed_spec _).1]

/-! ## Passing over components -/

lemma parts_eq_splitPart (text : List Char) :
    parts text = (splitPart text).1 :: ((splitPart text).2.map parts).getD [] := by
  induction text with
  | nil => rfl
  | cons c rest ih =>
      by_cases hc : c = '/'
      · subst hc
        rw [parts_slash]
        rfl
      · rw [parts, splitPart, if_neg hc, if_neg hc, ih]

lemma inner_splitPart (text : List Char) :
    inner text = (component? (splitPart text).1).toList ++ inner ((splitPart text).2.getD []) := by
  rw [inner, parts_eq_splitPart, List.filterMap_cons]
  cases component? (splitPart text).1 <;> cases (splitPart text).2 <;> simp [inner, parts, component?]

/-- Behind a trimmed front stands the first component. -/
lemma inner_eq_cons_or_nil (text : List Char) :
    (inner text).head? = component? (splitPart (trimFront text)).1 ∧
      (inner text).tail = inner ((splitPart (trimFront text)).2.getD []) := by
  rw [← inner_trimFront]
  rcases parts_of_opening_eq_nil (opening_trimFront text) with hnil | ⟨part, later, hparts, hempty, hdot⟩
  · rw [hnil]
    exact ⟨rfl, rfl⟩
  · obtain ⟨found, hfound⟩ : ∃ found, component? part = some found := by
      rw [component?, if_neg (not_or.mpr ⟨hempty, hdot⟩)]
      split_ifs
      · exact ⟨_, rfl⟩
      · exact ⟨_, rfl⟩
    have hpart : (splitPart (trimFront text)).1 = part := by
      rw [parts_eq_splitPart] at hparts
      exact (List.cons.inj hparts).1
    rw [inner_splitPart, hpart, hfound]
    exact ⟨rfl, rfl⟩

/-- **Passing over components succeeds if these come first**, and leaves the others. -/
lemma dropBody_spec (wanted : List Component) (text : List Char) :
    (∃ rest, dropBody wanted text = some rest ∧ inner text = wanted ++ inner rest) ∨
    dropBody wanted text = none ∧ ¬ wanted <+: inner text := by
  induction wanted generalizing text with
  | nil => exact Or.inl ⟨text, rfl, rfl⟩
  | cons first later ih =>
      obtain ⟨hhead, htail⟩ := inner_eq_cons_or_nil text
      by_cases hfirst : component? (splitPart (trimFront text)).1 = some first
      · rw [hfirst] at hhead
        rw [List.head?_eq_some_iff] at hhead
        obtain ⟨others, hothers⟩ := hhead
        rw [hothers, List.tail_cons] at htail
        have hdrop : dropBody (first :: later) text = dropBody later ((splitPart (trimFront text)).2.getD []) :=
          if_pos hfirst
        rw [hdrop, hothers, htail, List.prefix_cons_inj]
        refine (ih _).imp_left ?_
        rintro ⟨rest, hrest, heq⟩
        exact ⟨rest, hrest, congrArg (first :: ·) heq⟩
      · refine Or.inr ⟨if_neg hfirst, ?_⟩
        rintro ⟨others, hothers⟩
        rw [← hhead, ← hothers] at hfirst
        exact hfirst rfl

/-! ## Characters -/

lemma mem_parts {text : List Char} {c : Char} (h : c ∈ text) : c = '/' ∨ ∃ part ∈ parts text, c ∈ part := by
  induction text with
  | nil => cases h
  | cons first rest ih =>
      by_cases hfirst : first = '/'
      · subst hfirst
        rw [parts_slash]
        rcases List.mem_cons.mp h with rfl | hrest
        · exact Or.inl rfl
        · refine (ih hrest).imp_right ?_
          rintro ⟨part, hpart, hc⟩
          exact ⟨part, List.mem_cons_of_mem _ hpart, hc⟩
      · obtain ⟨part, later, hrest, hparts⟩ := parts_cons hfirst rest
        rw [hparts]
        rw [hrest] at ih
        rcases List.mem_cons.mp h with rfl | hmem
        · exact Or.inr ⟨_, List.mem_cons_self, List.mem_cons_self⟩
        · refine (ih hmem).imp_right ?_
          rintro ⟨other, hother, hc⟩
          rcases List.mem_cons.mp hother with rfl | hlater
          · exact ⟨_, List.mem_cons_self, List.mem_cons_of_mem _ hc⟩
          · exact ⟨other, List.mem_cons_of_mem _ hlater, hc⟩

lemma mem_inner {text : List Char} {c : Char} (h : c ∈ text) :
    c = '/' ∨ c = '.' ∨ ∃ name, .normal name ∈ inner text ∧ c ∈ name.toList := by
  refine (mem_parts h).imp_right ?_
  rintro ⟨part, hpart, hc⟩
  by_cases hdots : part = ['.'] ∨ part = ['.', '.']
  · rcases hdots with rfl | rfl
    · exact Or.inl (by simpa using hc)
    · exact Or.inl (by simpa using hc)
  · rw [not_or] at hdots
    refine Or.inr ⟨String.ofList part, List.mem_filterMap.mpr ⟨part, hpart, ?_⟩, by rwa [String.toList_ofList]⟩
    rw [component?, if_neg (not_or.mpr ⟨List.ne_nil_of_mem hc, hdots.1⟩), if_neg hdots.2]

/-- **The characters of a path are those of the names in it**, and slashes and dots. -/
lemma mem_components {path : String} {c : Char} (h : c ∈ path.toList) :
    c = '/' ∨ c = '.' ∨ ∃ name, .normal name ∈ components path ∧ c ∈ name.toList := by
  rw [components_eq]
  have hrest : c = '/' ∨ c = '.' ∨ c ∈ path.toList.drop (beginning path.toList) := by
    generalize path.toList = text at h
    fun_cases beginning text with
    | case1 rest => exact (List.mem_cons.mp h).imp_right Or.inr
    | case2 => exact Or.inr (Or.inl (List.mem_singleton.mp h))
    | case3 rest => exact Or.inr (List.mem_cons.mp h)
    | case4 => exact Or.inr (Or.inr h)
  rcases hrest with hslash | hdot | hmem
  · exact Or.inl hslash
  · exact Or.inr (Or.inl hdot)
  · refine (mem_inner hmem).imp_right (Or.imp_right ?_)
    rintro ⟨name, hname, hc⟩
    exact ⟨name, List.mem_append_right _ hname, hc⟩

/-! ## What is left of a path -/

lemma below_spec (wanted : List Component) (text : List Char) :
    (∃ left, relativeTo?.below wanted text = some left ∧ inner text = wanted ++ components left) ∨
    relativeTo?.below wanted text = none ∧ ¬ wanted <+: inner text := by
  rw [relativeTo?.below]
  rcases dropBody_spec wanted text with ⟨rest, hrest, heq⟩ | ⟨hnone, hnot⟩
  · refine Or.inl ⟨_, by rw [hrest, Option.map_some], ?_⟩
    obtain ⟨hinner, hbegins, hdot⟩ := trimmed_spec (trimFront rest)
    have hopening := opening_of_prefix hbegins hdot (opening_trimFront rest)
    rw [trimBack_eq, List.take_zero, List.nil_append, List.drop_zero, components_of_opening_eq_nil hopening, hinner,
      inner_trimFront, heq]
  · exact Or.inr ⟨by rw [hnone, Option.map_none], hnot⟩

/-- The same behind a component at the beginning that both have. -/
lemma below_spec_cons (first : Component) (wanted : List Component) (text : List Char) :
    (∃ left, relativeTo?.below wanted text = some left ∧
      first :: inner text = first :: wanted ++ components left) ∨
    relativeTo?.below wanted text = none ∧ ¬ first :: wanted <+: first :: inner text := by
  simpa [List.cons_prefix_cons] using below_spec wanted text

/-- **There is something left of a path below a directory exactly if its components begin with those of the
directory, and then it has the other components.** -/
lemma relativeTo?_spec (directory path : String) :
    (∃ left, relativeTo? directory path = some left ∧ components path = components directory ++ components left) ∨
    relativeTo? directory path = none ∧ ¬ components directory <+: components path := by
  unfold relativeTo?
  rcases components directory with _ | ⟨first, later⟩
  · refine Or.inl ⟨String.ofList (trimBack (beginning path.toList) path.toList), rfl, ?_⟩
    rw [List.nil_append, components_trimBack]
  · rw [components_eq path]
    dsimp only
    generalize path.toList = text
    cases begins text with
    | slash rest =>
        cases first with
        | root => exact below_spec_cons .root later rest
        | current | parent | normal _ => exact Or.inr ⟨rfl, by simp⟩
    | dot =>
        cases first with
        | current => exact below_spec_cons .current later []
        | root | parent | normal _ => exact Or.inr ⟨rfl, by simp⟩
    | dotSlash rest =>
        cases first with
        | current => exact below_spec_cons .current later ('/' :: rest)
        | root | parent | normal _ => exact Or.inr ⟨rfl, by simp⟩
    | plain hopening hbeginning =>
        rw [hopening, hbeginning, List.drop_zero, List.nil_append]
        cases first <;> exact below_spec _ text

end JarSurvey.Path
