import JarSurvey.Proofs.ClassFile.References

/-!
# Dynamic constants are unfolded exactly, up to the bound

What is read of a class forms a tree: below the class stand its sites, below a dynamic constant or a call site its
bootstrap method, and below a bootstrap method its arguments, which may be dynamic constants in turn.  Where these
go round in a circle, the tree has no end.  It is given by the parts below a part (`partsBelow`) and by what a part
names itself (`ownNames`); neither knows of `maxDynamicDepth`.

* `Path` — the way from a part down to another: which turn it takes at each part, and how many dynamic constants
  it passes.  Parts are read in the lexicographic order of the turns that lead to them.
* `Unfolds` — what comes of reading the tree in that order.  Nothing is counted, and so nothing comes of a reading
  that has no end.
* `boundedNames` — what the walk of a class finds at a part when it may still pass `depth` dynamic constants.
  **`boundedNames_eq`** says that it reads the same tree, cut off at the bound; all else rests on that equation.

Unless the walk fails for the depth, it gives what the unfolding gives (`unfolds_boundedNames`).  A failure for the depth
comes from a path that passes too many dynamic constants (`exists_path_of_error`), and where there is such a path
the walk fails (`fails_of_path`).  **`dynamic_unfolding_exact`** puts them together.
-/

namespace JarSurvey.ClassFile

/-! ## Parts -/

/-- What is read of a class, piece by piece. -/
inductive Part where
  /-- The class, without its sites. -/
  | whole
  /-- A site; a dynamic constant or a call site without its bootstrap method. -/
  | site (site : Site)
  /-- A bootstrap method, without its arguments. -/
  | bootstrap (index : Index)
  deriving DecidableEq, Repr

/-- The bootstrap method of a dynamic constant. -/
def Constant.bootstrap? : Constant → Option Index
  | dynamic bootstrap _ => some bootstrap
  | _ => none

/-- The bootstrap method of the constant of a call site. -/
def Constant.callSiteBootstrap? : Constant → Option Index
  | invokeDynamic bootstrap _ => some bootstrap
  | _ => none

/-- The bootstrap method of a site that is a dynamic constant or a call site. -/
def bootstrapOf (file : ClassFile) : Site → Option Index
  | .constant index => (file.pool.get index).toOption.bind Constant.bootstrap?
  | .callSite index => (file.pool.get index).toOption.bind Constant.callSiteBootstrap?
  | _ => none

/-- The arguments of bootstrap method `index`; there are none where there is no such method. -/
def bootstrapArguments (file : ClassFile) (index : Index) : List Index :=
  file.bootstrapMethods[index.toNat]?.elim [] (·.arguments)

/-- The parts right below a part, in reading order. -/
def partsBelow (file : ClassFile) : Part → List Part
  | .whole => file.sites.map .site
  | .site site => (bootstrapOf file site).toList.map .bootstrap
  | .bootstrap index => (bootstrapArguments file index).map fun argument => .site (.constant argument)

/-- The names of the type of a call site. -/
def callSiteType (file : ClassFile) (index : Index) : Except FormatError (List String) := do
  match ← file.pool.get index with
  | .invokeDynamic _ nameAndType => methodNames (← file.pool.nameAndType nameAndType).2
  | _ => throw (.unexpectedConstant index .invokeDynamic)

/-- The names of a part itself, without what stands below it. -/
def ownNames (file : ClassFile) : Part → Except FormatError (List String)
  | .whole => .ok []
  | .site (.constant index) => loadedNames file (fun _ => .ok []) index
  | .site (.callSite index) => callSiteType file index
  | .site site => file.namesAt site
  | .bootstrap index => bootstrapNames file (fun _ => .ok []) index

/-- How many dynamic constants a part is: one or none. -/
def dynamicCount (file : ClassFile) : Part → Nat
  | .site (.constant index) => (bootstrapOf file (.constant index)).toList.length
  | _ => 0

/-! ## Joined computations -/

section Joined

variable {ε α : Type}

/-- One computation after the other, with what they give put together. -/
def joined (x y : Except ε (List α)) : Except ε (List α) := do
  let first ← x
  let later ← y
  return first ++ later

lemma joined_nil (x : Except ε (List α)) : joined x (.ok []) = x := by
  cases x <;> simp [joined, bind, Except.bind, pure, Except.pure]

lemma nil_joined (x : Except ε (List α)) : joined (.ok []) x = x := by
  cases x <;> rfl

lemma joined_eq_error_iff {x y : Except ε (List α)} {e : ε} :
    joined x y = .error e ↔ x = .error e ∨ ∃ first, x = .ok first ∧ y = .error e := by
  cases x <;> cases y <;> simp [joined, bind, Except.bind, pure, Except.pure]

end Joined

/-! ## The unfolding -/

/-- The way from a part down to the part `last`, by the numbers of the turns that it takes.  It passes `count`
dynamic constants, each of which it goes on from. -/
inductive Path (file : ClassFile) : Part → List Nat → Nat → Part → Prop
  | here (part : Part) : Path file part [] 0 part
  | down {part child last : Part} {turn : Nat} {turns : List Nat} {count : Nat}
      (h : (partsBelow file part)[turn]? = some child) (hp : Path file child turns count last) :
      Path file part (turn :: turns) (dynamicCount file part + count) last

mutual

/-- Reading a part and all that stands below it, in reading order and with no bound on the depth, comes to an end
with these names or with this error, the first one. -/
inductive Unfolds (file : ClassFile) : Part → Except FormatError (List String) → Prop
  | malformed {part error} (h : ownNames file part = .error error) : Unfolds file part (.error error)
  | sound {part first later} (h : ownNames file part = .ok first)
      (hb : UnfoldsAll file (partsBelow file part) later) : Unfolds file part (joined (.ok first) later)

/-- The same for parts, one after the other. -/
inductive UnfoldsAll (file : ClassFile) : List Part → Except FormatError (List String) → Prop
  | nil : UnfoldsAll file [] (.ok [])
  | stop {part parts error} (h : Unfolds file part (.error error)) : UnfoldsAll file (part :: parts) (.error error)
  | cons {part parts first later} (h : Unfolds file part (.ok first)) (hs : UnfoldsAll file parts later) :
      UnfoldsAll file (part :: parts) (joined (.ok first) later)

end

variable {file : ClassFile} {depth : Nat} {part : Part}

/-! ## Concatenations -/

section Concat

variable {α : Type} {names : α → Except FormatError (List String)} {error : FormatError}

lemma concatNames_cons (x : α) (xs : List α) :
    concatNames names (x :: xs) = joined (names x) (concatNames names xs) := rfl

lemma concatNames_singleton (names : α → Except FormatError (List String)) (x : α) :
    concatNames names [x] = names x :=
  joined_nil (names x)

lemma concatNames_ok_nil (xs : List α) : concatNames (fun _ => .ok []) xs = .ok [] := by
  induction xs with
  | nil => rfl
  | cons x xs ih => rw [concatNames_cons, ih, joined_nil]

lemma exists_of_concatNames_eq_error {xs : List α} (h : concatNames names xs = .error error) :
    ∃ (turn : Nat) (x : α), xs[turn]? = some x ∧ names x = .error error := by
  induction xs with
  | nil => cases h
  | cons x xs ih =>
      rw [concatNames_cons, joined_eq_error_iff] at h
      obtain hx | ⟨_, -, hxs⟩ := h
      · exact ⟨0, x, rfl, hx⟩
      · obtain ⟨turn, y, hy, herror⟩ := ih hxs
        exact ⟨turn + 1, y, hy, herror⟩

/-- Where an item fails, all fails, and it is this item or one before it that gives the error. -/
lemma concatNames_eq_error_of {xs : List α} {turn : Nat} {x : α} (hx : xs[turn]? = some x)
    (h : names x = .error error) :
    ∃ (first : Nat) (y : α) (cause : FormatError), first ≤ turn ∧ xs[first]? = some y ∧
      names y = .error cause ∧ concatNames names xs = .error cause := by
  induction xs generalizing turn with
  | nil => cases hx
  | cons y ys ih =>
      simp only [concatNames_cons, joined_eq_error_iff]
      cases hy : names y with
      | error cause => exact ⟨0, y, cause, Nat.zero_le _, rfl, hy, .inl rfl⟩
      | ok found =>
          cases turn with
          | zero =>
              cases Option.some.inj hx
              cases hy.symm.trans h
          | succ turn =>
              obtain ⟨first, z, cause, hle, hz, hcause, hall⟩ := ih hx
              exact ⟨first + 1, z, cause, Nat.succ_le_succ hle, hz, hcause, .inr ⟨found, rfl, hall⟩⟩

end Concat

/-! ## The walk reads the same parts -/

/-- What the walk finds at a part, where it may pass `depth` dynamic constants. -/
def boundedNames (file : ClassFile) (depth : Nat) : Part → Except FormatError (List String)
  | .whole => file.references
  | .site site => namesBelow file depth site
  | .bootstrap index => bootstrapNames file (constantNames file depth) index

/-- What the walk finds at a part below another. -/
def belowNames (file : ClassFile) (depth : Nat) (part child : Part) : Except FormatError (List String) :=
  if dynamicCount file part ≤ depth then boundedNames file (depth - dynamicCount file part) child
  else .error .nestingTooDeep

/-- The depths at which the walk comes to a part: the class and its sites are at the top. -/
def Admits (depth : Nat) : Part → Prop
  | .site (.constant _) => True
  | .bootstrap _ => True
  | _ => depth = maxDynamicDepth

lemma bootstrapOf_constant {index : Index} {constant : Constant} (h : file.pool.get index = .ok constant) :
    bootstrapOf file (.constant index) = constant.bootstrap? := by
  rw [bootstrapOf, h]
  rfl

lemma bootstrapOf_callSite {index : Index} {constant : Constant} (h : file.pool.get index = .ok constant) :
    bootstrapOf file (.callSite index) = constant.callSiteBootstrap? := by
  rw [bootstrapOf, h]
  rfl

lemma loadedNames_eq (link : Index → Except FormatError (List String)) (index : Index) :
    loadedNames file link index = joined (loadedNames file (fun _ => .ok []) index)
      (concatNames link (bootstrapOf file (.constant index)).toList) := by
  cases hc : file.pool.get index with
  | error error =>
      rw [loadedNames, loadedNames, hc]
      rfl
  | ok constant =>
      rw [bootstrapOf_constant hc, loadedNames, loadedNames, hc]
      cases constant with
      | dynamic bootstrap typed =>
          show _ = joined _ (concatNames link [bootstrap])
          rw [concatNames_singleton]
          show (file.pool.nameAndType typed >>= fun found => joined (fieldNames found.2) (link bootstrap)) =
            joined (file.pool.nameAndType typed >>= fun found => joined (fieldNames found.2) (.ok [])) _
          cases file.pool.nameAndType typed with
          | error error => rfl
          | ok found =>
              show joined _ _ = joined (joined _ _) _
              rw [joined_nil]
      | _ =>
          dsimp only [bind, Except.bind]
          exact (joined_nil _).symm

lemma bootstrapNames_eq (argument : Index → Except FormatError (List String)) (index : Index) :
    bootstrapNames file argument index = joined (bootstrapNames file (fun _ => .ok []) index)
      (concatNames argument (bootstrapArguments file index)) := by
  rw [bootstrapNames, bootstrapNames, bootstrapArguments]
  cases file.bootstrapMethods[index.toNat]? with
  | none => rfl
  | some method =>
      show (file.pool.handle method.handle >>= fun handle =>
          joined (handleNames handle) (concatNames argument method.arguments)) =
        joined (file.pool.handle method.handle >>= fun handle =>
          joined (handleNames handle) (concatNames (fun _ => .ok []) method.arguments)) _
      cases file.pool.handle method.handle with
      | error error => rfl
      | ok handle =>
          show joined _ _ = joined (joined _ _) _
          rw [concatNames_ok_nil, joined_nil]
          rfl

lemma callSiteNames_eq (index : Index) :
    callSiteNames file index = joined (callSiteType file index)
      (concatNames (bootstrapNames file (constantNames file maxDynamicDepth))
        (bootstrapOf file (.callSite index)).toList) := by
  cases hc : file.pool.get index with
  | error error =>
      rw [callSiteNames, callSiteType, hc]
      rfl
  | ok constant =>
      rw [bootstrapOf_callSite hc, callSiteNames, callSiteType, hc]
      cases constant with
      | invokeDynamic bootstrap typed =>
          show _ = joined _ (concatNames _ [bootstrap])
          rw [concatNames_singleton]
          show (file.pool.nameAndType typed >>= fun found => joined (methodNames found.2) _) =
            joined (file.pool.nameAndType typed >>= fun found => methodNames found.2) _
          cases file.pool.nameAndType typed <;> rfl
      | _ => rfl

lemma belowNames_of_dynamicCount_eq_zero (h : dynamicCount file part = 0) :
    belowNames file depth part = boundedNames file depth := by
  funext child
  simp [belowNames, h]

lemma dynamicCount_constant {index bootstrap : Index} (h : bootstrapOf file (.constant index) = some bootstrap) :
    dynamicCount file (.site (.constant index)) = 1 := by
  rw [dynamicCount, h]
  rfl

lemma constantNames_eq (index : Index) :
    constantNames file depth index = joined (loadedNames file (fun _ => .ok []) index)
      (concatNames (belowNames file depth (.site (.constant index)))
        (partsBelow file (.site (.constant index)))) := by
  rw [partsBelow, concatNames_map]
  cases hb : bootstrapOf file (.constant index) with
  | none => cases depth <;> rw [constantNames, loadedNames_eq, hb] <;> rfl
  | some bootstrap =>
      show _ = joined _ (concatNames _ [bootstrap])
      rw [concatNames_singleton, belowNames, dynamicCount_constant hb]
      -- at depth zero both sides fail for the depth, else both go on with one less
      cases depth <;> rw [constantNames, loadedNames_eq, hb] <;>
        exact congrArg _ (concatNames_singleton _ _)

/-- **The walk reads a part and then what stands below it**, the same as the unfolding but for the bound. -/
lemma boundedNames_eq (h : Admits depth part) :
    boundedNames file depth part =
      joined (ownNames file part) (concatNames (belowNames file depth part) (partsBelow file part)) := by
  cases part with
  | whole =>
      rw [belowNames_of_dynamicCount_eq_zero rfl, partsBelow, concatNames_map, h]
      show _ = joined (.ok []) (concatNames (namesBelow file maxDynamicDepth) file.sites)
      rw [namesBelow_maxDynamicDepth, nil_joined]
      rfl
  | bootstrap index =>
      rw [belowNames_of_dynamicCount_eq_zero rfl, partsBelow, concatNames_map]
      exact bootstrapNames_eq _ _
  | site site =>
      cases site with
      | constant index => exact constantNames_eq index
      | callSite index =>
          rw [belowNames_of_dynamicCount_eq_zero rfl, partsBelow, concatNames_map, h]
          exact callSiteNames_eq index
      | _ => exact (joined_nil _).symm

/-! ## Induction -/

/-- Orders the parts that are read at the same depth. -/
def Part.rank : Part → Nat
  | .site (.constant _) => 0
  | .bootstrap _ => 1
  | .site _ => 2
  | .whole => 3

lemma mem_partsBelow_site {site : Site} {child : Part} (h : child ∈ partsBelow file (.site site)) :
    ∃ bootstrap, bootstrapOf file site = some bootstrap ∧ child = .bootstrap bootstrap := by
  obtain ⟨bootstrap, hb, rfl⟩ := List.mem_map.mp h
  exact ⟨bootstrap, Option.mem_toList.mp hb, rfl⟩

lemma mem_partsBelow_bootstrap {index : Index} {child : Part} (h : child ∈ partsBelow file (.bootstrap index)) :
    ∃ argument, child = .site (.constant argument) := by
  obtain ⟨argument, -, rfl⟩ := List.mem_map.mp h
  exact ⟨argument, rfl⟩

lemma Admits.site (h : depth = maxDynamicDepth) (site : Site) : Admits depth (.site site) := by
  cases site with
  | constant index => trivial
  | _ => exact h

lemma Admits.below {child : Part} (h : Admits depth part) (hchild : child ∈ partsBelow file part) :
    Admits (depth - dynamicCount file part) child := by
  cases part with
  | whole =>
      obtain ⟨site, -, rfl⟩ := List.mem_map.mp hchild
      exact .site h site
  | site site =>
      obtain ⟨_, -, rfl⟩ := mem_partsBelow_site hchild
      trivial
  | bootstrap index =>
      obtain ⟨_, rfl⟩ := mem_partsBelow_bootstrap hchild
      trivial

lemma measure_below {child : Part} (hcount : dynamicCount file part ≤ depth)
    (hchild : child ∈ partsBelow file part) :
    4 * (depth - dynamicCount file part) + child.rank < 4 * depth + part.rank := by
  cases part with
  | whole =>
      obtain ⟨site, -, rfl⟩ := List.mem_map.mp hchild
      have hrank : (Part.site site).rank ≤ 2 := by cases site <;> simp [Part.rank]
      show 4 * depth + _ < 4 * depth + 3
      omega
  | site site =>
      obtain ⟨bootstrap, hb, rfl⟩ := mem_partsBelow_site hchild
      cases site with
      | constant index =>
          rw [dynamicCount_constant hb] at hcount ⊢
          show 4 * (depth - 1) + 1 < 4 * depth + 0
          omega
      | _ => exact Nat.lt_succ_self _
  | bootstrap index =>
      obtain ⟨_, rfl⟩ := mem_partsBelow_bootstrap hchild
      exact Nat.lt_succ_self _

/-- Induction along the walk: what holds of a part because it holds of the parts below it, as far as the bound
lets the walk go on, holds of every part. -/
lemma walk_induction (file : ClassFile) {motive : (depth : Nat) → (part : Part) → Admits depth part → Prop}
    (step : ∀ depth part (h : Admits depth part),
      (dynamicCount file part ≤ depth → ∀ (child : Part) (hchild : child ∈ partsBelow file part),
        motive (depth - dynamicCount file part) child (h.below hchild)) →
      motive depth part h)
    (depth : Nat) (part : Part) (h : Admits depth part) : motive depth part h :=
  step depth part h fun hcount child hchild =>
    have := measure_below hcount hchild
    walk_induction file step _ child (h.below hchild)
termination_by 4 * depth + part.rank

/-! ## Within the bound the walk is the unfolding -/

mutual

lemma Unfolds.unique {part : Part} {a b : Except FormatError (List String)} :
    Unfolds file part a → Unfolds file part b → a = b
  | .malformed h, .malformed h' => h.symm.trans h'
  | .malformed h, .sound h' _ => by cases h.symm.trans h'
  | .sound h _, .malformed h' => by cases h.symm.trans h'
  | .sound h hb, .sound h' hb' => by
      cases h.symm.trans h'
      rw [hb.unique hb']

lemma UnfoldsAll.unique {parts : List Part} {a b : Except FormatError (List String)} :
    UnfoldsAll file parts a → UnfoldsAll file parts b → a = b
  | .nil, .nil => rfl
  | .stop h, .stop h' => h.unique h'
  | .stop h, .cons h' _ => by cases h.unique h'
  | .cons h _, .stop h' => by cases h.unique h'
  | .cons h hs, .cons h' hs' => by
      cases h.unique h'
      rw [hs.unique hs']

end

lemma unfoldsAll_concatNames {names : Part → Except FormatError (List String)} {parts : List Part}
    (h : ∀ part ∈ parts, names part ≠ .error .nestingTooDeep → Unfolds file part (names part))
    (hall : concatNames names parts ≠ .error .nestingTooDeep) :
    UnfoldsAll file parts (concatNames names parts) := by
  induction parts with
  | nil => exact .nil
  | cons part parts ih =>
      rw [List.forall_mem_cons] at h
      rw [concatNames_cons, ne_eq, joined_eq_error_iff, not_or] at hall
      have hfirst := h.1 hall.1
      rw [concatNames_cons]
      cases hpart : names part with
      | error error => exact .stop (hpart ▸ hfirst)
      | ok first => exact .cons (hpart ▸ hfirst) (ih h.2 fun hdeep => hall.2 ⟨first, hpart, hdeep⟩)

/-- **Unless the walk fails for the depth, it gives what the unfolding gives.** -/
lemma unfolds_boundedNames (depth : Nat) (part : Part) (hpart : Admits depth part) :
    boundedNames file depth part ≠ .error .nestingTooDeep →
      Unfolds file part (boundedNames file depth part) := by
  induction depth, part, hpart using walk_induction file with
  | step depth part hpart ih =>
    rw [boundedNames_eq hpart]
    intro hdepth
    cases hown : ownNames file part with
    | error error => exact .malformed hown
    | ok first =>
        refine .sound hown (unfoldsAll_concatNames ?_ ?_)
        · intro child hchild hchilddepth
          by_cases hcount : dynamicCount file part ≤ depth
          · rw [belowNames, if_pos hcount] at hchilddepth ⊢
            exact ih hcount child hchild hchilddepth
          · exact absurd (if_neg hcount) hchilddepth
        · exact fun hdeep => hdepth (joined_eq_error_iff.mpr (.inr ⟨first, hown, hdeep⟩))

/-! ## Beyond the bound -/

lemma Path.trans {first middle last : Part} {turns later : List Nat} {count passed : Nat}
    (h : Path file first turns count middle) (hp : Path file middle later passed last) :
    Path file first (turns ++ later) (count + passed) last := by
  induction h with
  | here part => simpa using hp
  | down h _ ih =>
      rw [Nat.add_assoc]
      exact .down h (ih hp)

lemma belowNames_eq_error_iff {child : Part} {error : FormatError} :
    belowNames file depth part child = .error error ↔
      dynamicCount file part ≤ depth ∧ boundedNames file (depth - dynamicCount file part) child = .error error ∨
        error = .nestingTooDeep ∧ depth < dynamicCount file part := by
  by_cases hcount : dynamicCount file part ≤ depth
  · simp [belowNames, hcount, Nat.not_lt.mpr hcount]
  · simp [belowNames, hcount, Nat.not_le.mp hcount, eq_comm]

/-- A failure of the walk is that of a part that is read, or one of depth, and then there is a path that passes too
many dynamic constants. -/
lemma exists_path_of_error (depth : Nat) (part : Part) (hpart : Admits depth part) :
    ∀ error, boundedNames file depth part = .error error → ∃ turns count last, Path file part turns count last ∧
      (ownNames file last = .error error ∨ error = .nestingTooDeep ∧ depth < count) := by
  induction depth, part, hpart using walk_induction file with
  | step depth part hpart ih =>
    intro error h
    rw [boundedNames_eq hpart, joined_eq_error_iff] at h
    obtain hown | ⟨_, -, hbelow⟩ := h
    · exact ⟨[], 0, part, .here part, .inl hown⟩
    · obtain ⟨turn, child, hchild, hfails⟩ := exists_of_concatNames_eq_error hbelow
      obtain ⟨hcount, hfails⟩ | ⟨hdeep, hcount⟩ := belowNames_eq_error_iff.mp hfails
      · obtain ⟨turns, count, last, hpath, hlast⟩ := ih hcount child (List.mem_of_getElem? hchild) error hfails
        exact ⟨turn :: turns, _, last, .down hchild hpath, hlast.imp id (And.imp id fun hlt => by omega)⟩
      · exact ⟨[turn], _, child, .down hchild (.here child), .inr ⟨hdeep, hcount⟩⟩

/-- The error is one of depth, or that of a part that is read before the part that `turns` leads to. -/
def CausedBefore (file : ClassFile) (part : Part) (turns : List Nat) (error : FormatError) : Prop :=
  error = .nestingTooDeep ∨ ∃ earlier count cause, Path file part earlier count cause ∧ earlier < turns ∧
    ownNames file cause = .error error

lemma CausedBefore.down {child : Part} {turn : Nat} {turns : List Nat} {error : FormatError}
    (hchild : (partsBelow file part)[turn]? = some child) (h : CausedBefore file child turns error) :
    CausedBefore file part (turn :: turns) error := by
  refine h.imp id ?_
  rintro ⟨earlier, count, cause, hpath, hearlier, hcause⟩
  exact ⟨turn :: earlier, _, cause, .down hchild hpath, List.cons_lt_cons_iff.mpr (.inr ⟨rfl, hearlier⟩), hcause⟩

/-- Whatever is read below an earlier part is read before all that stands below a later one. -/
lemma causedBefore_of_earlier {child : Part} {turn earlier : Nat} {turns : List Nat} {error : FormatError}
    (hpart : Admits depth part) (hchild : (partsBelow file part)[earlier]? = some child)
    (hearlier : earlier < turn) (h : belowNames file depth part child = .error error) :
    CausedBefore file part (turn :: turns) error := by
  obtain ⟨-, hfails⟩ | ⟨hdeep, -⟩ := belowNames_eq_error_iff.mp h
  · obtain ⟨rest, count, cause, hpath, hcause | ⟨hdeep, -⟩⟩ :=
      exists_path_of_error _ child (hpart.below (List.mem_of_getElem? hchild)) error hfails
    · exact .inr ⟨earlier :: rest, _, cause, .down hchild hpath,
        List.cons_lt_cons_iff.mpr (.inl hearlier), hcause⟩
    · exact .inl hdeep
  · exact .inl hdeep

/-- **Where a path passes too many dynamic constants the walk fails**, for the depth or at a part that is read
before the end of the path. -/
lemma fails_of_path {turns : List Nat} {count : Nat} {last : Part} (hpath : Path file part turns count last) :
    ∀ depth, Admits depth part → depth < count →
      ∃ error, boundedNames file depth part = .error error ∧ CausedBefore file part turns error := by
  induction hpath with
  | here part => exact fun depth _ hlt => absurd hlt (Nat.not_lt_zero depth)
  | @down part child last turn turns count hchild _ ih =>
    intro depth hpart hlt
    rw [boundedNames_eq hpart]
    cases hown : ownNames file part with
    | error error =>
        exact ⟨error, rfl, .inr ⟨[], 0, part, .here part, List.nil_lt_cons .., hown⟩⟩
    | ok first =>
        have hfails : ∃ error, belowNames file depth part child = .error error ∧
            CausedBefore file child turns error := by
          by_cases hcount : dynamicCount file part ≤ depth
          · rw [belowNames, if_pos hcount]
            exact ih _ (hpart.below (List.mem_of_getElem? hchild)) (by omega)
          · exact ⟨_, if_neg hcount, .inl rfl⟩
        obtain ⟨error, herror, hcaused⟩ := hfails
        -- the walk stops at the child on the path or at one before it
        obtain ⟨stop, stopped, cause, hle, hstop, hcause, hall⟩ := concatNames_eq_error_of hchild herror
        refine ⟨cause, joined_eq_error_iff.mpr (.inr ⟨first, rfl, hall⟩), ?_⟩
        obtain hearlier | rfl := hle.lt_or_eq
        · exact causedBefore_of_earlier hpart hstop hearlier hcause
        · cases Option.some.inj (hchild.symm.trans hstop)
          cases Except.error.inj (herror.symm.trans hcause)
          exact hcaused.down hchild

lemma Path.count_le {turns : List Nat} {count : Nat} {last : Part} (bound : Nat)
    (h : ∀ child ∈ partsBelow file part, ∀ turns count last, Path file child turns count last → count ≤ bound)
    (hpath : Path file part turns count last) : count ≤ dynamicCount file part + bound := by
  cases hpath with
  | here => exact Nat.zero_le _
  | down hchild hp => exact Nat.add_le_add_left (h _ (List.mem_of_getElem? hchild) _ _ _ hp) _

/-! ## Circles -/

lemma Path.iterate {turns : List Nat} {count : Nat} (h : Path file part turns count part) (times : Nat) :
    ∃ turns, Path file part turns (times * count) part := by
  induction times with
  | zero => exact ⟨[], by simpa using Path.here part⟩
  | succ times ih =>
      obtain ⟨again, hagain⟩ := ih
      refine ⟨again ++ turns, ?_⟩
      rw [Nat.succ_mul]
      exact hagain.trans h

/-- A path that goes on from a constant passes a dynamic constant. -/
lemma Path.count_pos {index : Index} {turns : List Nat} {count : Nat} {last : Part}
    (h : Path file (.site (.constant index)) turns count last) (hturns : turns ≠ []) : 0 < count := by
  cases h with
  | here => exact absurd rfl hturns
  | down hchild _ =>
      obtain ⟨_, hb, -⟩ := mem_partsBelow_site (List.mem_of_getElem? hchild)
      rw [dynamicCount_constant hb]
      omega

/-! ## Parts do not fail for the depth themselves -/

section NotTooDeep

variable {α β : Type}

/-- The computation does not fail for the depth. -/
def NotTooDeep (x : Except FormatError α) : Prop :=
  x ≠ .error .nestingTooDeep

lemma notTooDeep_ok (a : α) : NotTooDeep (.ok a) := by
  simp [NotTooDeep]

lemma notTooDeep_throw {error : FormatError} (h : error ≠ .nestingTooDeep) :
    NotTooDeep (throw error : Except FormatError α) := by
  simpa [NotTooDeep, throw, throwThe, MonadExceptOf.throw] using h

lemma NotTooDeep.bind {x : Except FormatError α} {f : α → Except FormatError β} (hx : NotTooDeep x)
    (hf : ∀ a, NotTooDeep (f a)) : NotTooDeep (x >>= f) := by
  cases x with
  | error error => simpa [NotTooDeep, Bind.bind, Except.bind] using hx
  | ok a => exact hf a

lemma notTooDeep_get (pool : ConstantPool) (index : Index) : NotTooDeep (pool.get index) := by
  rw [ConstantPool.get]
  split <;> simp [NotTooDeep]

lemma notTooDeep_utf8 (pool : ConstantPool) (index : Index) : NotTooDeep (pool.utf8 index) := by
  refine (notTooDeep_get pool index).bind fun constant => ?_
  split
  · exact notTooDeep_ok _
  · exact notTooDeep_throw (by simp)

lemma notTooDeep_className (pool : ConstantPool) (index : Index) : NotTooDeep (pool.className index) := by
  refine (notTooDeep_get pool index).bind fun constant => ?_
  split
  · exact notTooDeep_utf8 pool _
  · exact notTooDeep_throw (by simp)

lemma notTooDeep_nameAndType (pool : ConstantPool) (index : Index) : NotTooDeep (pool.nameAndType index) := by
  refine (notTooDeep_get pool index).bind fun constant => ?_
  split
  · exact (notTooDeep_utf8 pool _).bind fun _ => (notTooDeep_utf8 pool _).bind fun _ => notTooDeep_ok _
  · exact notTooDeep_throw (by simp)

lemma notTooDeep_member (pool : ConstantPool) (index : Index) : NotTooDeep (pool.member index) := by
  have hmember (owner typed : Index) : NotTooDeep (pool.memberOf owner typed) :=
    (notTooDeep_className pool owner).bind fun _ => (notTooDeep_nameAndType pool typed).bind fun _ => notTooDeep_ok _
  refine (notTooDeep_get pool index).bind fun constant => ?_
  split
  iterate 3 exact hmember _ _
  exact notTooDeep_throw (by simp)

lemma notTooDeep_handle (pool : ConstantPool) (index : Index) : NotTooDeep (pool.handle index) := by
  refine (notTooDeep_get pool index).bind fun constant => ?_
  split
  · exact (notTooDeep_member pool _).bind fun _ => notTooDeep_ok _
  · exact notTooDeep_throw (by simp)

lemma notTooDeep_ofDescriptor (x : Except Descriptor.Malformed α) : NotTooDeep (ofDescriptor x) := by
  cases x <;> simp [NotTooDeep, ofDescriptor]

lemma notTooDeep_handleNames (handle : Handle) : NotTooDeep (handleNames handle) := by
  refine (notTooDeep_ofDescriptor _).bind fun owner => ?_
  split <;> exact (notTooDeep_ofDescriptor _).bind fun _ => notTooDeep_ok _

end NotTooDeep

/-- Constants that are loaded, call sites and bootstrap methods. -/
def Part.IsLinkage : Part → Prop
  | .site (.constant _) => True
  | .site (.callSite _) => True
  | .bootstrap _ => True
  | _ => False

lemma notTooDeep_ownNames (h : part.IsLinkage) : NotTooDeep (ownNames file part) := by
  cases part with
  | whole => cases h
  | bootstrap index =>
      rw [ownNames, bootstrapNames]
      split
      · exact notTooDeep_throw (by simp)
      · refine (notTooDeep_handle _ _).bind fun handle => (notTooDeep_handleNames handle).bind fun _ => ?_
        rw [concatNames_ok_nil]
        exact notTooDeep_ok _
  | site site =>
      cases site with
      | constant index =>
          refine (notTooDeep_get file.pool index).bind fun constant => ?_
          split
          · exact (notTooDeep_utf8 _ _).bind fun _ => notTooDeep_ofDescriptor _
          · exact (notTooDeep_utf8 _ _).bind fun _ => notTooDeep_ofDescriptor _
          · exact (notTooDeep_handle _ _).bind notTooDeep_handleNames
          · exact (notTooDeep_nameAndType _ _).bind fun _ => (notTooDeep_ofDescriptor _).bind fun _ => notTooDeep_ok _
          · exact notTooDeep_ok _
      | callSite index =>
          refine (notTooDeep_get file.pool index).bind fun constant => ?_
          split
          · exact (notTooDeep_nameAndType _ _).bind fun _ => notTooDeep_ofDescriptor _
          · exact notTooDeep_throw (by simp)
      | _ => cases h

lemma Path.isLinkage {turns : List Nat} {count : Nat} {last : Part} (h : Path file part turns count last)
    (hpart : part.IsLinkage) : last.IsLinkage := by
  induction h with
  | here part => exact hpart
  | @down part _ _ _ _ _ hchild _ ih =>
      refine ih ?_
      cases part with
      | whole => cases hpart
      | site site =>
          obtain ⟨_, -, rfl⟩ := mem_partsBelow_site (List.mem_of_getElem? hchild)
          trivial
      | bootstrap index =>
          obtain ⟨_, rfl⟩ := mem_partsBelow_bootstrap (List.mem_of_getElem? hchild)
          trivial

/-- From a constant or a call site the walk fails for the depth only along a path that is too long. -/
lemma boundedNames_ne_nestingTooDeep (hpart : Admits depth part) (hlinkage : part.IsLinkage)
    (h : ∀ turns count last, Path file part turns count last → count ≤ depth) :
    boundedNames file depth part ≠ .error .nestingTooDeep := by
  intro hdeep
  obtain ⟨turns, count, last, hpath, hlast | ⟨-, hlt⟩⟩ := exists_path_of_error depth part hpart _ hdeep
  · exact notTooDeep_ownNames (hpath.isLinkage hlinkage) hlast
  · exact absurd (h turns count last hpath) (Nat.not_le.mpr hlt)

/-- The scan of the class fails, for the depth or at a part that is malformed itself and is read before the part
that `turns` leads to. -/
def FailsBefore (file : ClassFile) (turns : List Nat) : Prop :=
  ∃ error, file.references = .error error ∧ (∀ bytes, parse bytes = .ok file → scan bytes = .error error) ∧
    CausedBefore file .whole turns error

lemma scan_eq_error {bytes : List UInt8} {error : FormatError} (hparse : parse bytes = .ok file)
    (h : file.references = .error error) : scan bytes = .error error := by
  rw [scan, hparse]
  show (file.references >>= _) = _
  rw [h]
  rfl

lemma failsBefore_of_path {turns : List Nat} {count : Nat} {last : Part} (h : Path file .whole turns count last)
    (hcount : maxDynamicDepth < count) : FailsBefore file turns := by
  obtain ⟨error, herror, hwhy⟩ := fails_of_path h maxDynamicDepth rfl hcount
  exact ⟨error, herror, fun _ hparse => scan_eq_error hparse herror, hwhy⟩

/-- **Dynamic constants are unfolded exactly, and circles are refused.**

* From a loaded constant or a call site from which no path passes more than 32 dynamic constants, the walk does
  not fail for the depth; it gives what the unfolding gives, which knows no bound: the names in reading order, or
  the first error.
* A class with a path that passes more than 32 of them is refused, for the depth unless a part that is read before
  the end of the path is malformed itself.
* A class where the walk comes to a dynamic constant that leads back to itself has such a path. -/
theorem dynamic_unfolding_exact (file : ClassFile) :
    (∀ index, ∀ site ∈ [Site.constant index, Site.callSite index],
      (∀ turns count last, Path file (.site site) turns count last → count ≤ 32) →
        file.namesAt site ≠ .error .nestingTooDeep ∧
          ∀ result, Unfolds file (.site site) result ↔ result = file.namesAt site) ∧
    (∀ turns count last, Path file .whole turns count last → 32 < count → FailsBefore file turns) ∧
    ∀ index turns count loop passed, Path file .whole turns count (.site (.constant index)) →
      Path file (.site (.constant index)) loop passed (.site (.constant index)) → loop ≠ [] →
        ∃ around total last, Path file .whole around total last ∧ 32 < total ∧ FailsBefore file around := by
  refine ⟨fun index site hsite hpaths => ?_, fun turns count last => failsBefore_of_path, ?_⟩
  · have hlinkage : (Part.site site).IsLinkage := by
      obtain rfl | rfl := List.mem_pair.mp hsite <;> trivial
    have hadmits : Admits maxDynamicDepth (.site site) := .site rfl site
    have hdepth := boundedNames_ne_nestingTooDeep hadmits hlinkage hpaths
    have hunfolds := unfolds_boundedNames maxDynamicDepth _ hadmits hdepth
    rw [boundedNames, namesBelow_maxDynamicDepth] at hdepth hunfolds
    exact ⟨hdepth, fun result => ⟨fun h => h.unique hunfolds, fun h => h ▸ hunfolds⟩⟩
  · intro index turns count loop passed hreached hloop hturns
    obtain ⟨rounds, hrounds⟩ := hloop.iterate 33
    have hpath := hreached.trans hrounds
    have hpassed := hloop.count_pos hturns
    have hlong : 32 < count + 33 * passed := by omega
    exact ⟨turns ++ rounds, _, _, hpath, hlong, failsBefore_of_path hpath hlong⟩

/-- A class with two dynamic constants.  That in slot 1, the value of a field, is an argument of its own bootstrap
method; that in slot 11 leads to a class. -/
def twoDynamics : ClassFile where
  minor := 0
  major := 55
  pool := ⟨#[none, some (.dynamic 0 2), some (.nameAndType 3 4), some (.utf8 "x"), some (.utf8 "I"),
    some (.methodHandle 6 6), some (.methodRef 7 9), some (.classRef 8), some (.utf8 "a/B"),
    some (.nameAndType 3 10), some (.utf8 "()V"), some (.dynamic 1 2)]⟩
  access := 0
  name := "a/A"
  superclass := none
  interfaces := []
  fields := [⟨0, "x", "I", [.constantValue 1]⟩]
  methods := []
  attributes := [.bootstrapMethods [⟨5, [1]⟩, ⟨5, [7]⟩]]

theorem dynamic_unfolding_exact_twoDynamics :
    (∀ turns count last, Path twoDynamics (.site (.constant 11)) turns count last → count ≤ 32) ∧
      twoDynamics.namesAt (.constant 11) = .ok ["a.B", "a.B"] ∧
      Unfolds twoDynamics (.site (.constant 11)) (.ok ["a.B", "a.B"]) ∧
      Path twoDynamics .whole [1] 0 (.site (.constant 1)) ∧
      Path twoDynamics (.site (.constant 1)) [0, 0] 1 (.site (.constant 1)) ∧
      twoDynamics.references = .error .nestingTooDeep ∧
      ∃ around total last, Path twoDynamics .whole around total last ∧ 32 < total ∧
        FailsBefore twoDynamics around := by
  have hleaf : ∀ turns count last, Path twoDynamics (.site (.constant 7)) turns count last → count ≤ 0 :=
    fun _ _ _ h => h.count_le 0 (List.forall_mem_nil _)
  have hlinked : ∀ turns count last, Path twoDynamics (.bootstrap 1) turns count last → count ≤ 0 :=
    fun _ _ _ h => h.count_le 0 (List.forall_mem_singleton.mpr hleaf)
  have hshort : ∀ turns count last, Path twoDynamics (.site (.constant 11)) turns count last → count ≤ 32 :=
    fun _ _ _ h => (h.count_le 0 (List.forall_mem_singleton.mpr hlinked)).trans (by decide)
  have hnames : twoDynamics.namesAt (.constant 11) = .ok ["a.B", "a.B"] := by decide
  have hreached : Path twoDynamics .whole [1] 0 (.site (.constant 1)) := .down rfl (.here _)
  have hback : Path twoDynamics (.bootstrap 0) [0] 0 (.site (.constant 1)) := .down rfl (.here _)
  have hloop : Path twoDynamics (.site (.constant 1)) [0, 0] 1 (.site (.constant 1)) := by
    have hcount : dynamicCount twoDynamics (.site (.constant 1)) = 1 := rfl
    have hdown : Path twoDynamics (.site (.constant 1)) [0, 0] _ (.site (.constant 1)) := .down rfl hback
    rwa [hcount] at hdown
  obtain ⟨hexact, -, hcircle⟩ := dynamic_unfolding_exact twoDynamics
  have hunfolds := ((hexact 11 (.constant 11) (.head _) hshort).2 (.ok ["a.B", "a.B"])).mpr hnames.symm
  exact ⟨hshort, hnames, hunfolds, hreached, hloop,
    by decide +kernel, hcircle 1 _ _ _ _ hreached hloop (List.cons_ne_nil _ _)⟩

end JarSurvey.ClassFile
