import JarSurvey.Archive

/-!
# Groups of classes

A `Jar` is a named group of classes: those of an archive, or those of a namespace.

* `Jar.merge` : the classes of all groups, each name once;
* `Jar.groupByNamespace` : classes grouped anew, by the namespace that their own name belongs to.
-/

namespace JarSurvey

/-- A named group of classes. -/
structure Jar where
  name : String
  classes : List ClassRecord
  deriving DecidableEq, Repr

/-- Whether two records are of the same class, whatever the class mentions. -/
def ClassRecord.sameClass (record other : ClassRecord) : Bool :=
  record.name == other.name

instance : Hashable ClassRecord where
  hash record := hash record.name

namespace Jar

/-- Whether two groups have the same name and the same classes, in the same order. -/
def sameClasses (jar other : Jar) : Bool :=
  jar.name == other.name && jar.classes.isEqv other.classes ClassRecord.sameClass

/-- Whether a class of this name is in the group. -/
def contains (jar : Jar) (className : String) : Bool :=
  jar.classes.any (·.name == className)

/-- Puts a class among classes: in the place of the class of its name, or else at the end. -/
def putClass (classes : List ClassRecord) (record : ClassRecord) : List ClassRecord :=
  match classes with
  | [] => [record]
  | first :: rest =>
    if first.name = record.name then { first with references := record.references } :: rest
    else first :: putClass rest record

/-- The classes of all groups.  A name that occurs more than once keeps the place of its first occurrence
and gets the references of its last. -/
def merge (jars : List Jar) : List ClassRecord :=
  (jars.flatMap (·.classes)).foldl putClass []

/-- The classes whose name belongs to a namespace, in one group for each namespace that has any. -/
def groupByNamespace (classes : List ClassRecord) : List Jar :=
  Namespace.all.filterMap fun ns =>
    match classes.filter fun record => Namespace.classify record.name = some ns with
    | [] => none
    | members => some ⟨ns.name, members⟩

end Jar

end JarSurvey
