import JarSurvey.Graph.Jar

/-!
# Closures

A group of classes pulls in another when one of its classes mentions a class of the other.  The *closure*
of a group is what it pulls in, and what that pulls in, and so on; each group beyond the first comes with
a *reason*: the mention that pulled it in.  A class that is in several groups belongs to the first.

* `Closure.ofJar` : the closure of a group, breadth first;
* `Closure.analyze` : the closures of all groups;
* `Ranking.ofClosures` : groups that pull in no other, and the closures of those that do, largest first.
-/

namespace JarSurvey

/-- A class that mentions another. -/
structure Reason where
  source : String
  target : String
  deriving DecidableEq, Repr

/-- A mention of a class that belongs to the group with number `owner`. -/
structure Link where
  reason : Reason
  owner : Nat
  deriving DecidableEq, Repr

/-- A group with the groups it pulls in. -/
structure Closure where
  jar : String
  /-- The names of the groups in the order in which they were found, the group itself first. -/
  affected : List String
  /-- Why each group after the first is there. -/
  reasons : List Reason
  deriving DecidableEq, Repr

namespace Closure

/-- The number of the first group that has a class of this name. -/
def owner? (jars : List Jar) (className : String) : Option Nat :=
  jars.findIdx? (·.contains className)

/-- The mentions in a group of classes that belong to a group, in order. -/
def links (jars : List Jar) (jar : Jar) : List Link :=
  jar.classes.flatMap fun record =>
    record.references.filterMap fun reference =>
      (owner? jars reference).map fun owner => ⟨⟨record.name, reference⟩, owner⟩

/-- A search for the groups of a closure. -/
structure Search where
  /-- The numbers of the groups found so far, in order. -/
  found : List Nat
  reasons : List Reason
  /-- Groups found whose own mentions are still to be followed. -/
  pending : List Nat
  deriving DecidableEq, Repr

namespace Search

/-- The search that begins at a group. -/
def start (jar : Nat) : Search := ⟨[jar], [], [jar]⟩

/-- Follows a mention. -/
def follow (search : Search) (link : Link) : Search :=
  if link.owner ∈ search.found then search
  else {
    found := search.found ++ [link.owner]
    reasons := search.reasons ++ [link.reason]
    pending := search.pending ++ [link.owner] }

/-- Follows all mentions in the groups that are pending, for `rounds` groups. -/
def run (links : Nat → List Link) : Nat → Search → Search
  | 0, search => search
  | rounds + 1, search =>
    match search.pending with
    | [] => search
    | jar :: later => run links rounds ((links jar).foldl follow { search with pending := later })

end Search

/-- The closure of group number `jar`.  No group is found twice, so as many rounds as there are groups
leave nothing pending. -/
def ofJar (jars : List Jar) (links : Nat → List Link) (jar : Nat) : Closure :=
  let search := Search.run links jars.length (Search.start jar)
  let name (number : Nat) : String := (jars[number]?.map (·.name)).getD ""
  ⟨name jar, search.found.map name, search.reasons⟩

/-- The closures of all groups, in order. -/
def analyze (jars : List Jar) : List Closure :=
  let table := (jars.map (links jars)).toArray
  (List.range jars.length).map (ofJar jars fun number => table.getD number [])

/-- Whether a group pulls in no other. -/
def isSimple (closure : Closure) : Bool :=
  closure.affected.length == 1

/-- Whether a closure comes before another, or may: larger closures first, then by name. -/
def precedes (closure other : Closure) : Bool :=
  other.affected.length < closure.affected.length ||
    (closure.affected.length == other.affected.length && closure.jar ≤ other.jar)

end Closure

/-- Groups by what they pull in. -/
structure Ranking where
  simple : List String
  complex : List Closure
  deriving DecidableEq, Repr

/-- Groups that pull in no other in their order, and the other closures by size and name. -/
def Ranking.ofClosures (closures : List Closure) : Ranking where
  simple := (closures.filter (·.isSimple)).map (·.jar)
  complex := (closures.filter (!·.isSimple)).mergeSort Closure.precedes

end JarSurvey
