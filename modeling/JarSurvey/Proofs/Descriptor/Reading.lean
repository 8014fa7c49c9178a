import JarSurvey.Proofs.Descriptor.Grammar
import JarSurvey.Proofs.Except
import Mathlib.Data.List.TakeWhile

/-!
# What a reader of pieces reads

`Reads n scan relation` says what the reader yields on texts shorter than `n`, in **both** directions: it yields a
value and a rest exactly if text, value and rest are in the relation.  The bound is there for the readers that
count down how deep they may still go.

Nearly all relations are of one form (`Spelled`): the text is the spelling of the value and then the rest, and the
rest may follow the value.  Such readers can be put in a row (`Reads.bind`), and lists of them are read item by item:

* `reads_items`, `reads_bracketed` — a list up to a character that ends it, which no item begins with;
* `reads_marked` — a list in which each item has a mark before it.

What may follow an item depends on the later items (`Followed`), unless the item does not mind
(`followed_iff`).
-/

namespace JarSurvey.Descriptor

namespace Scan

variable {α β : Type} {n : Nat}

/-- On texts shorter than `n`, what the reader yields is told by the relation between the text, the value and
the rest. -/
def Reads (n : Nat) (scan : Scan α) (relation : List Char → α → List Char → Prop) : Prop :=
  ∀ text, text.length < n → ∀ a rest, scan text = .ok (a, rest) ↔ relation text a rest

/-- The text is the spelling of the value, and then a rest that may follow the value. -/
def Spelled (spelling : α → List Char) (fits : α → List Char → Prop) (text : List Char) (a : α)
    (rest : List Char) : Prop :=
  text = spelling a ++ rest ∧ fits a rest

section Combinators

variable {spelling : α → List Char} {fits : α → List Char → Prop}

lemma Reads.congr {scan : Scan α} {relation other : List Char → α → List Char → Prop}
    (h : Reads n scan relation) (heq : ∀ text a rest, relation text a rest ↔ other text a rest) :
    Reads n scan other := by
  intro text hlen a rest
  rw [h text hlen, heq]

lemma Reads.mono {m : Nat} {scan : Scan α} {relation : List Char → α → List Char → Prop}
    (h : Reads n scan relation) (hle : m ≤ n) : Reads m scan relation :=
  fun text hlen => h text (hlen.trans_le hle)

lemma reads_pure (a : α) :
    Reads n (fun text => pure (a, text)) fun text b rest => b = a ∧ rest = text := by
  intro text _ b rest
  rw [pure_eq_ok_iff, Prod.mk.injEq, eq_comm, @eq_comm _ text]

/-- What is read after a value is read from the rest that the value leaves. -/
lemma Reads.bind_within {m : Nat} {scan : Scan α} {next : α → Scan β}
    {relation : α → List Char → β → List Char → Prop} (h : Reads n scan (Spelled spelling fits))
    (hshort : ∀ a more, fits a more → (spelling a ++ more).length < n → more.length < m)
    (hnext : ∀ a, Reads m (next a) (relation a)) :
    Reads n (fun text => scan text >>= fun x => next x.1 x.2)
      fun text b rest => ∃ a more, Spelled spelling fits text a more ∧ relation a more b rest := by
  intro text hlen b rest
  rw [bind_eq_ok_iff]
  constructor
  · rintro ⟨⟨a, more⟩, hfirst, hrest⟩
    obtain ⟨rfl, hfits⟩ := (h text hlen a more).mp hfirst
    exact ⟨a, more, ⟨rfl, hfits⟩, (hnext a more (hshort a more hfits hlen) b rest).mp hrest⟩
  · rintro ⟨a, more, ⟨rfl, hfits⟩, hrest⟩
    exact ⟨(a, more), (h _ hlen a more).mpr ⟨rfl, hfits⟩,
      (hnext a more (hshort a more hfits hlen) b rest).mpr hrest⟩

lemma Reads.bind {scan : Scan α} {next : α → Scan β} {relation : α → List Char → β → List Char → Prop}
    (h : Reads n scan (Spelled spelling fits)) (hnext : ∀ a, Reads n (next a) (relation a)) :
    Reads n (fun text => scan text >>= fun x => next x.1 x.2)
      fun text b rest => ∃ a more, Spelled spelling fits text a more ∧ relation a more b rest := by
  refine h.bind_within ?_ hnext
  intro a more _ hlen
  rw [List.length_append] at hlen
  omega

lemma reads_expect (c : Char) : Reads n (expect c) (Spelled (fun _ => [c]) fun _ _ => True) := by
  rintro (_ | ⟨d, text⟩) _ ⟨⟩ rest
  · simp [expect, Spelled]
  · by_cases h : d = c <;> simp [expect, Spelled, h]

/-- A name goes up to the first of the characters that end it. -/
lemma reads_name (stops : List Char) :
    Reads n (name stops)
      (Spelled String.toList fun s rest => IsName stops s ∧ ∃ c ∈ stops, rest.head? = some c) := by
  intro text _ s rest
  have hcut := List.takeWhile_append_dropWhile (p := fun c => !stops.contains c) (l := text)
  constructor
  · intro h
    rw [name] at h
    split_ifs at h with hempty
    obtain ⟨rfl, rfl⟩ := Prod.mk.inj (Except.ok.inj h)
    simp only [Bool.or_eq_true, List.isEmpty_iff, not_or] at hempty
    refine ⟨by rw [String.toList_ofList, hcut], ⟨?_, ?_⟩, ?_⟩
    · simpa [String.ofList_eq_empty_iff] using hempty.1
    · intro c hc
      rw [String.toList_ofList] at hc
      simpa using List.mem_takeWhile_imp hc
    · obtain ⟨c, more, hmore⟩ := List.exists_cons_of_ne_nil hempty.2
      have hstop := List.head?_dropWhile_not (fun c => !stops.contains c) text
      rw [hmore] at hstop ⊢
      exact ⟨c, by simpa using hstop, rfl⟩
  · rintro ⟨rfl, ⟨hne, hclear⟩, c, hc, hhead⟩
    obtain ⟨more, rfl⟩ : ∃ more, rest = c :: more := by
      cases rest <;> simp_all
    have hrun : ∀ d ∈ s.toList, (!stops.contains d) = true := by simpa using hclear
    have htake : (s.toList ++ c :: more).takeWhile (fun c => !stops.contains c) = s.toList := by
      rw [List.takeWhile_append_of_pos hrun, List.takeWhile_cons_of_neg (by simpa using hc), List.append_nil]
    have hdrop : (s.toList ++ c :: more).dropWhile (fun c => !stops.contains c) = c :: more := by
      rw [List.dropWhile_append_of_pos hrun, List.dropWhile_cons_of_neg (by simpa using hc)]
    rw [name]
    rw [htake, hdrop, if_neg (by simpa using hne), String.ofList_toList]

/-! ## Lists -/

/-- Every item may stand before the spelling of the later items and what comes after them. -/
def Followed (spelling : α → List Char) (fits : α → List Char → Prop) : List α → List Char → Prop
  | [], _ => True
  | x :: xs, tail => fits x (xs.flatMap spelling ++ tail) ∧ Followed spelling fits xs tail

/-- Items that do not mind what follows, as long as it is of a kind that also the items are. -/
lemma followed_iff {fits : α → List Char → Prop} {WellFormed : α → Prop} (kind : List Char → Prop)
    {xs : List α} {tail : List Char} (htail : kind tail) (hspelling : ∀ x more, kind (spelling x ++ more))
    (h : ∀ x more, kind more → (fits x more ↔ WellFormed x)) :
    Followed spelling fits xs tail ↔ ∀ x ∈ xs, WellFormed x := by
  induction xs with
  | nil => simp [Followed]
  | cons x xs ih =>
      have hmore : kind (xs.flatMap spelling ++ tail) := by
        cases xs with
        | nil => exact htail
        | cons y ys =>
            rw [List.flatMap_cons, List.append_assoc]
            exact hspelling y _
      rw [Followed, ih, h x _ hmore, List.forall_mem_cons]

lemma reads_itemsUpTo {item : Scan α} {stop : Char} (h : Reads n item (Spelled spelling fits))
    (hne : ∀ x more, fits x more → spelling x ≠ []) (bound : Nat) :
    Reads (min bound n) (itemsUpTo stop item bound)
      (Spelled (fun xs => xs.flatMap spelling ++ [stop]) fun xs rest =>
        Followed spelling (fun x more => (spelling x).head? ≠ some stop ∧ fits x more) xs (stop :: rest)) := by
  induction bound with
  | zero =>
      intro text hlen
      simp at hlen
  | succ bound ih =>
      rintro (_ | ⟨c, text⟩) hlen xs rest
      · simp [itemsUpTo, Spelled]
      rw [itemsUpTo]
      by_cases hc : c = stop
      · -- An item would begin with another character.
        subst hc
        rw [if_pos rfl]
        cases xs with
        | nil => simp [Spelled, Followed]
        | cons x xs =>
            simp only [Except.ok.injEq, Prod.mk.injEq, reduceCtorEq, false_and, false_iff]
            rintro ⟨htext, ⟨hhead, hfits⟩, -⟩
            obtain ⟨d, more, hx⟩ := List.exists_cons_of_ne_nil (hne x _ hfits)
            simp_all
      rw [if_neg hc]
      -- An item takes a character, so the later ones are read from a shorter text.
      have hread := (h.mono (Nat.min_le_right (bound + 1) n)).bind_within (m := min bound n)
        (fun x more hfits hlong => by
          have hpos := List.length_pos_iff.mpr (hne x more hfits)
          rw [List.length_append] at hlong
          omega)
        fun x => ih.bind fun xs => reads_pure (x :: xs)
      refine (hread (c :: text) hlen xs rest).trans ?_
      cases xs with
      | nil => simp [Spelled, hc]
      | cons x xs =>
          constructor
          · rintro ⟨_, more, ⟨htext, hfits⟩, _, _, ⟨rfl, hfollowed⟩, hcons, rfl⟩
            obtain ⟨rfl, rfl⟩ := List.cons.inj hcons
            obtain ⟨d, more, hx⟩ := List.exists_cons_of_ne_nil (hne x _ hfits)
            simp_all [Spelled, Followed]
          · rintro ⟨htext, ⟨hhead, hfits⟩, hfollowed⟩
            exact ⟨x, _, ⟨by simp [htext], hfits⟩, xs, rest, ⟨by simp, hfollowed⟩, rfl, rfl⟩

/-- A list goes on until the character that ends it, so none of its items may begin with that. -/
lemma reads_items {item : Scan α} (stop : Char) (h : Reads n item (Spelled spelling fits))
    (hne : ∀ x more, fits x more → spelling x ≠ []) :
    Reads n (items stop item)
      (Spelled (fun xs => xs.flatMap spelling ++ [stop]) fun xs rest =>
        Followed spelling (fun x more => (spelling x).head? ≠ some stop ∧ fits x more) xs (stop :: rest)) := by
  intro text hlen
  exact reads_itemsUpTo h hne (text.length + 1) text (by omega)

lemma reads_markedUpTo {item : Scan α} {mark : Char} (h : Reads n item (Spelled spelling fits)) (bound : Nat) :
    Reads (min bound n) (markedUpTo mark item bound)
      (Spelled (fun xs => xs.flatMap fun x => mark :: spelling x) fun xs rest =>
        Followed (fun x => mark :: spelling x) fits xs rest ∧ rest.head? ≠ some mark) := by
  induction bound with
  | zero =>
      intro text hlen
      simp at hlen
  | succ bound ih =>
      rintro (_ | ⟨c, text⟩) hlen xs rest
      · cases xs with
        | nil => simp +contextual [markedUpTo, Spelled, Followed, eq_comm]
        | cons x xs => simp [markedUpTo, Spelled]
      rw [markedUpTo]
      rw [List.length_cons] at hlen
      by_cases hc : c = mark
      · subst hc
        rw [if_pos rfl]
        have hread := (h.mono (Nat.min_le_right bound n)).bind fun x => ih.bind fun xs => reads_pure (x :: xs)
        refine (hread text (by omega) xs rest).trans ?_
        cases xs with
        | nil =>
            simp only [reduceCtorEq, false_and, and_false, exists_false, Spelled, false_iff]
            rintro ⟨rfl, -, hhead⟩
            exact hhead rfl
        | cons x xs =>
            constructor
            · rintro ⟨_, _, ⟨rfl, hfits⟩, _, _, ⟨rfl, hfollowed, hhead⟩, hcons, rfl⟩
              obtain ⟨rfl, rfl⟩ := List.cons.inj hcons
              exact ⟨by simp, ⟨hfits, hfollowed⟩, hhead⟩
            · rintro ⟨htext, ⟨hfits, hfollowed⟩, hhead⟩
              exact ⟨x, _, ⟨by simpa using htext, hfits⟩, xs, rest, ⟨rfl, hfollowed, hhead⟩, rfl, rfl⟩
      · rw [if_neg hc]
        cases xs with
        | nil =>
            constructor
            · rintro ⟨⟩
              exact ⟨rfl, trivial, by simpa using hc⟩
            · rintro ⟨rfl, -⟩
              rfl
        | cons x xs => simp [Spelled, hc]

/-- Marked items go on as long as there is a mark. -/
lemma reads_marked {item : Scan α} (mark : Char) (h : Reads n item (Spelled spelling fits)) :
    Reads n (marked mark item)
      (Spelled (fun xs => xs.flatMap fun x => mark :: spelling x) fun xs rest =>
        Followed (fun x => mark :: spelling x) fits xs rest ∧ rest.head? ≠ some mark) := by
  intro text hlen
  exact reads_markedUpTo h (text.length + 1) text (by omega)

/-- A list in angle brackets is not empty, and without brackets there is no list. -/
lemma reads_bracketed {item : Scan α} (h : Reads n item (Spelled spelling fits))
    (hne : ∀ x more, fits x more → spelling x ≠ []) :
    Reads n (bracketed item)
      (Spelled (fun xs => angled xs (xs.flatMap spelling)) fun xs rest =>
        Followed spelling (fun x more => (spelling x).head? ≠ some '>' ∧ fits x more) xs ('>' :: rest) ∧
          (xs = [] → rest.head? ≠ some '<')) := by
  intro text hlen xs rest
  unfold bracketed
  split
  · rename_i more
    rw [List.length_cons] at hlen
    have hlist := reads_items '>' h hne more (by omega)
    rw [bind_eq_ok_iff]
    cases xs with
    | nil =>
        constructor
        · rintro ⟨⟨ys, later⟩, -, hys⟩
          cases ys <;> simp at hys
        · rintro ⟨htext, -, hhead⟩
          rw [show rest = '<' :: more from htext.symm] at hhead
          simp at hhead
    | cons x xs =>
        constructor
        · rintro ⟨⟨ys, later⟩, hitems, hys⟩
          obtain ⟨rfl, hfollowed⟩ := (hlist ys later).mp hitems
          cases ys with
          | nil => simp at hys
          | cons y ys =>
              obtain ⟨hcons, rfl⟩ := Prod.mk.inj (Except.ok.inj hys)
              obtain ⟨rfl, rfl⟩ := List.cons.inj hcons
              exact ⟨by simp [angled], hfollowed, by simp⟩
        · rintro ⟨htext, hfollowed, -⟩
          refine ⟨(x :: xs, rest), (hlist _ _).mpr ⟨?_, hfollowed⟩, rfl⟩
          simpa [angled] using htext
  · rename_i hother
    cases xs with
    | nil =>
        constructor
        · rintro ⟨⟩
          refine ⟨rfl, trivial, fun _ hhead => ?_⟩
          obtain ⟨more, rfl⟩ := List.head?_eq_some_iff.mp hhead
          exact hother more rfl
        · rintro ⟨rfl, -⟩
          rfl
    | cons x xs =>
        simp only [Except.ok.injEq, Prod.mk.injEq, reduceCtorEq, false_and, false_iff]
        rintro ⟨rfl, -⟩
        exact hother _ rfl

/-- No type is spelled with `V` in front, which stands for no result. -/
lemma reads_result {type : Scan α} (h : Reads n type (Spelled spelling fits))
    (hhead : ∀ x more, fits x more → ∃ c later, spelling x = c :: later ∧ c ≠ 'V') :
    Reads n (result type) (Spelled (resultSpelling spelling) fun x rest => ∀ t ∈ x, fits t rest) := by
  intro text hlen x rest
  unfold result
  split
  · rename_i more
    cases x with
    | none => simp [Spelled, resultSpelling]
    | some t =>
        simp only [Except.ok.injEq, Prod.mk.injEq, reduceCtorEq, false_and, false_iff]
        rintro ⟨htext, hfits⟩
        obtain ⟨c, later, hc, hne⟩ := hhead t rest (hfits t rfl)
        simp [resultSpelling, hc, hne.symm] at htext
  · rename_i hother
    refine ((h.bind fun t => reads_pure (some t)) text hlen x rest).trans ?_
    cases x with
    | none =>
        simp only [reduceCtorEq, false_and, and_false, exists_false, false_iff]
        rintro ⟨rfl, -⟩
        exact hother _ rfl
    | some t => simp [Spelled, resultSpelling]

end Combinators

/-! ## Lists of items that do not mind what follows -/

section WellFormedItems

variable {spelling : α → List Char} {WellFormed : α → Prop} {item : Scan α}

lemma followed_iff_of_head {stop : Char} {xs : List α} {tail : List Char}
    (hhead : ∀ x, WellFormed x → ∃ c later, spelling x = c :: later ∧ c ≠ stop) :
    Followed spelling (fun x _ => (spelling x).head? ≠ some stop ∧ WellFormed x) xs tail ↔
      ∀ x ∈ xs, WellFormed x := by
  refine followed_iff (fun _ => True) trivial (fun _ _ => trivial) fun x _ _ => and_iff_right_of_imp ?_
  intro hx
  obtain ⟨c, later, hc, hne⟩ := hhead x hx
  simpa [hc] using hne

lemma reads_items_of_wellFormed (stop : Char) (h : Reads n item (Spelled spelling fun x _ => WellFormed x))
    (hhead : ∀ x, WellFormed x → ∃ c later, spelling x = c :: later ∧ c ≠ stop) :
    Reads n (items stop item)
      (Spelled (fun xs => xs.flatMap spelling ++ [stop]) fun xs _ => ∀ x ∈ xs, WellFormed x) := by
  refine (reads_items stop h fun x _ hx => ?_).congr fun text xs rest =>
    and_congr_right fun _ => followed_iff_of_head hhead
  obtain ⟨c, later, hc, -⟩ := hhead x hx
  simp [hc]

lemma reads_bracketed_of_wellFormed (h : Reads n item (Spelled spelling fun x _ => WellFormed x))
    (hhead : ∀ x, WellFormed x → ∃ c later, spelling x = c :: later ∧ c ≠ '>') :
    Reads n (bracketed item)
      (Spelled (fun xs => angled xs (xs.flatMap spelling)) fun xs rest =>
        (∀ x ∈ xs, WellFormed x) ∧ (xs = [] → rest.head? ≠ some '<')) := by
  refine (reads_bracketed h fun x _ hx => ?_).congr fun text xs rest =>
    and_congr_right fun _ => and_congr_left fun _ => followed_iff_of_head hhead
  obtain ⟨c, later, hc, -⟩ := hhead x hx
  simp [hc]

lemma reads_marked_of_wellFormed (mark : Char) (h : Reads n item (Spelled spelling fun x _ => WellFormed x)) :
    Reads n (marked mark item)
      (Spelled (fun xs => xs.flatMap fun x => mark :: spelling x) fun xs rest =>
        (∀ x ∈ xs, WellFormed x) ∧ rest.head? ≠ some mark) := by
  refine (reads_marked mark h).congr fun text xs rest => and_congr_right fun _ => and_congr_left fun _ => ?_
  exact followed_iff (fun _ => True) trivial (fun _ _ => trivial) fun _ _ _ => Iff.rfl

end WellFormedItems

end Scan

end JarSurvey.Descriptor
