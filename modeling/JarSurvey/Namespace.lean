import JarSurvey.Text.Affix

/-!
# Tracked namespaces

A namespace is an *area* (`servlet`, `json.bind`, ...) in one of two *families*: the legacy family
`javax` and the renamed family `jakarta`.  The table `Namespace.all` lists the areas in a fixed
order, each with its legacy spelling first.

* `Namespace.claims` : a namespace claims a reference that begins with its name and with none of
  its excluded names.
* `Namespace.classify` : the first namespace of the table that claims a reference.

An area whose name begins the name of another area excludes it, so that the narrower area keeps
its own references although it stands later in the table.
-/

namespace JarSurvey

/-- The two spellings of a tracked area. -/
inductive Family where
  | javax
  | jakarta
  deriving DecidableEq, Repr

/-- The first segment of every name in the family. -/
def Family.label : Family → String
  | .javax => "javax"
  | .jakarta => "jakarta"

/-- The label with its dot: what a name of the family begins with. -/
def Family.start (family : Family) : String :=
  family.label ++ "."

/-- The tracked areas, in the order of the table. -/
inductive Area where
  | activation
  | annotations
  | batch
  | decorator
  | ejb
  | el
  | enterprise
  | enterpriseConcurrent
  | enterpriseDeploy
  | faces
  | inject
  | interceptor
  | jms
  | json
  | jsonBind
  | jws
  | mail
  | managementJ2ee
  | persistence
  | resource
  | securityAuthMessage
  | securityEnterprise
  | securityJacc
  | servlet
  | transaction
  | validation
  | websocket
  | wsRs
  | xmlBind
  | xmlRegistry
  | xmlRpc
  | xmlSoap
  | xmlWs
  deriving DecidableEq, Repr

namespace Area

/-- Every area, in the order of the table. -/
def all : List Area :=
  [.activation, .annotations, .batch, .decorator, .ejb, .el, .enterprise, .enterpriseConcurrent,
    .enterpriseDeploy, .faces, .inject, .interceptor, .jms, .json, .jsonBind, .jws, .mail,
    .managementJ2ee, .persistence, .resource, .securityAuthMessage, .securityEnterprise,
    .securityJacc, .servlet, .transaction, .validation, .websocket, .wsRs, .xmlBind,
    .xmlRegistry, .xmlRpc, .xmlSoap, .xmlWs]

theorem mem_all (area : Area) : area ∈ all := by
  cases area <;> decide

/-- The name of the area below its family. -/
def path : Area → String
  | activation => "activation"
  | annotations => "annotation"
  | batch => "batch"
  | decorator => "decorator"
  | ejb => "ejb"
  | el => "el"
  | enterprise => "enterprise"
  | enterpriseConcurrent => "enterprise.concurrent"
  | enterpriseDeploy => "enterprise.deploy"
  | faces => "faces"
  | inject => "inject"
  | interceptor => "interceptor"
  | jms => "jms"
  | json => "json"
  | jsonBind => "json.bind"
  | jws => "jws"
  | mail => "mail"
  | managementJ2ee => "management.j2ee"
  | persistence => "persistence"
  | resource => "resource"
  | securityAuthMessage => "security.auth.message"
  | securityEnterprise => "security.enterprise"
  | securityJacc => "security.jacc"
  | servlet => "servlet"
  | transaction => "transaction"
  | validation => "validation"
  | websocket => "websocket"
  | wsRs => "ws.rs"
  | xmlBind => "xml.bind"
  | xmlRegistry => "xml.registry"
  | xmlRpc => "xml.rpc"
  | xmlSoap => "xml.soap"
  | xmlWs => "xml.ws"

end Area

/-- An area in one of its two spellings. -/
structure Namespace where
  area : Area
  family : Family
  deriving DecidableEq, Repr

namespace Namespace

/-- Every namespace, in the order in which references are classified. -/
def all : List Namespace :=
  Area.all.flatMap fun area => [⟨area, .javax⟩, ⟨area, .jakarta⟩]

theorem mem_all (ns : Namespace) : ns ∈ all := by
  refine List.mem_flatMap.mpr ⟨ns.area, Area.mem_all ns.area, ?_⟩
  rcases ns with ⟨area, _ | _⟩ <;> simp

/-- The dotted name of a namespace. -/
def name (ns : Namespace) : String :=
  ns.family.start ++ ns.area.path

/-- The names below `ns` that do not belong to it: narrower areas of the same family, and the two
parts of the legacy family that are not up for renaming. -/
def excluded (ns : Namespace) : List String :=
  (match ns.area, ns.family with
    | .annotations, .javax => ["annotation.processing"]
    | .enterprise, _ => ["enterprise.concurrent", "enterprise.deploy"]
    | .json, _ => ["json.bind"]
    | .transaction, .javax => ["transaction.xa"]
    | _, _ => []).map (ns.family.start ++ ·)

/-- The place of a namespace in the table. -/
def index (ns : Namespace) : Nat :=
  all.idxOf ns

theorem getElem?_index (ns : Namespace) : all[ns.index]? = some ns := by
  have hlt : all.findIdx (· == ns) < all.length :=
    List.findIdx_lt_length_of_exists ⟨ns, mem_all ns, beq_self_eq_true ns⟩
  rw [index, List.idxOf, List.getElem?_eq_getElem hlt]
  exact congrArg some (eq_of_beq (List.findIdx_getElem (w := hlt)))

theorem index_inj {ns other : Namespace} (h : ns.index = other.index) : ns = other := by
  have hns := getElem?_index ns
  rw [h, getElem?_index other] at hns
  exact (Option.some.inj hns).symm

/-- Whether `reference` begins with the name of `ns` and with none of its excluded names. -/
def claims (ns : Namespace) (reference : String) : Bool :=
  Text.startsWith reference ns.name && !ns.excluded.any (Text.startsWith reference ·)

/-- Whether `ns` has the spelling from before the renaming. -/
def isLegacy (ns : Namespace) : Bool :=
  ns.family == .javax

/-- The namespace with exactly this name. -/
def ofName? (name : String) : Option Namespace :=
  all.find? (·.name == name)

/-- The first namespace of the table that claims `reference`. -/
def classify (reference : String) : Option Namespace :=
  all.find? (·.claims reference)

end Namespace

end JarSurvey
