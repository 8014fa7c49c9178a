import JarSurvey.Namespace

/-!
# Usage of namespaces

A `Usage` counts references per namespace.  Only namespaces that were seen are stored, in the
order of the table, so that two usages with the same counts are the same value.

* `Usage.add`, `Usage.record`, `Usage.ofReferences` : counting.
* `Usage.merge` : the sum of two usages.
* `Usage.get`, `Usage.family`, `Usage.toList` : reading the counts back.
-/

namespace JarSurvey

/-- Reference counts per namespace, without zeros, in the order of the table. -/
structure Usage where
  entries : List (Namespace × Nat)
  ordered : entries.Pairwise fun a b => a.1.index < b.1.index
  positive : ∀ entry ∈ entries, 0 < entry.2
  deriving DecidableEq, Repr

namespace Usage

/-- Nothing was counted. -/
def empty : Usage := ⟨[], .nil, nofun⟩

instance : Inhabited Usage := ⟨empty⟩

/-- The entries with `count` more for `ns`, which is put at its place in the table if it is new. -/
def addTo (ns : Namespace) (count : Nat) : List (Namespace × Nat) → List (Namespace × Nat)
  | [] => [(ns, count)]
  | (other, seen) :: rest =>
    if ns = other then (other, seen + count) :: rest
    else if ns.index < other.index then (ns, count) :: (other, seen) :: rest
    else (other, seen) :: addTo ns count rest

/-- What holds of the namespaces that were stored, and of the one that is counted, holds of those that
are stored then. -/
theorem forall_addTo {P : Namespace → Prop} {ns : Namespace} {count : Nat}
    {entries : List (Namespace × Nat)} (hns : P ns) (h : ∀ entry ∈ entries, P entry.1) :
    ∀ entry ∈ addTo ns count entries, P entry.1 := by
  induction entries with
  | nil => simpa [addTo] using hns
  | cons first rest ih =>
    rw [List.forall_mem_cons] at h
    rw [addTo]
    split
    · exact List.forall_mem_cons.mpr h
    · split
      · exact List.forall_mem_cons.mpr ⟨hns, List.forall_mem_cons.mpr h⟩
      · exact List.forall_mem_cons.mpr ⟨h.1, ih h.2⟩

theorem addTo_ordered {ns : Namespace} {count : Nat} {entries : List (Namespace × Nat)}
    (h : entries.Pairwise fun a b => a.1.index < b.1.index) :
    (addTo ns count entries).Pairwise fun a b => a.1.index < b.1.index := by
  induction entries with
  | nil => exact List.pairwise_singleton _ _
  | cons first rest ih =>
    rw [List.pairwise_cons] at h
    rw [addTo]
    split
    · exact List.pairwise_cons.mpr h
    · next hne =>
      split
      · next hlt =>
        refine List.pairwise_cons.mpr ⟨?_, List.pairwise_cons.mpr h⟩
        exact List.forall_mem_cons.mpr ⟨hlt, fun entry hentry => Nat.lt_trans hlt (h.1 entry hentry)⟩
      · next hle =>
        have hgt : first.1.index < ns.index :=
          Nat.lt_of_le_of_ne (Nat.le_of_not_lt hle) fun heq => hne (Namespace.index_inj heq.symm)
        exact List.pairwise_cons.mpr
          ⟨forall_addTo (P := fun other => first.1.index < other.index) hgt h.1, ih h.2⟩

theorem addTo_positive {ns : Namespace} {count : Nat} {entries : List (Namespace × Nat)}
    (hcount : 0 < count) (h : ∀ entry ∈ entries, 0 < entry.2) :
    ∀ entry ∈ addTo ns count entries, 0 < entry.2 := by
  induction entries with
  | nil => simpa [addTo] using hcount
  | cons first rest ih =>
    rw [List.forall_mem_cons] at h
    rw [addTo]
    split
    · exact List.forall_mem_cons.mpr ⟨Nat.add_pos_left h.1 count, h.2⟩
    · split
      · exact List.forall_mem_cons.mpr ⟨hcount, List.forall_mem_cons.mpr h⟩
      · exact List.forall_mem_cons.mpr ⟨h.1, ih h.2⟩

/-- Counts `count` more references to `ns`; zero leaves no trace. -/
def add (usage : Usage) (ns : Namespace) (count : Nat) : Usage :=
  if h : count = 0 then usage
  else
    ⟨addTo ns count usage.entries, addTo_ordered usage.ordered,
      addTo_positive (Nat.pos_of_ne_zero h) usage.positive⟩

/-- Counts `reference` if a namespace claims it. -/
def record (usage : Usage) (reference : String) : Usage :=
  match Namespace.classify reference with
  | some ns => usage.add ns 1
  | none => usage

/-- The usage of a list of references. -/
def ofReferences (references : List String) : Usage :=
  references.foldl record empty

/-- How often `ns` was counted. -/
def get (usage : Usage) (ns : Namespace) : Nat :=
  (usage.entries.lookup ns).getD 0

/-- The counts of both usages together. -/
def merge (usage other : Usage) : Usage :=
  other.entries.foldl (fun sum entry => sum.add entry.1 entry.2) usage

/-- The sum of the counts of all namespaces whose name begins with `start`. -/
def family (usage : Usage) (start : String) : Nat :=
  (usage.entries.filter fun entry => Text.startsWith entry.1.name start).foldr
    (fun entry sum => entry.2 + sum) 0

/-- The total of the legacy family. -/
def javax (usage : Usage) : Nat :=
  usage.family Family.javax.start

/-- The total of the renamed family. -/
def jakarta (usage : Usage) : Nat :=
  usage.family Family.jakarta.start

/-- Whether nothing was counted. -/
def isEmpty (usage : Usage) : Bool :=
  usage.entries.isEmpty

/-- Every namespace of the table with its count, zeros included. -/
def toList (usage : Usage) : List (Namespace × Nat) :=
  Namespace.all.map fun ns => (ns, usage.get ns)

end Usage

end JarSurvey
