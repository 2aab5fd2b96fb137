import Mathlib

/-!
The contract between the management API, its workers and Kubernetes: the
template catalogue, the input of an instance request, the `CacheInstance` object
and the object that a request asks for (`desiredObject`).

Identifiers are drawn by `randomUUID` or by the API server and are only ever
compared, so they are numbers here. The names built from them (`expbuild-<id>`,
`c-<id>`, `c-<id>-auth`, `auth-<id>`) keep the identifier they are built from.
-/
namespace Expbuild.Contract

abbrev ProjectId := Nat
abbrev InstanceId := Nat
abbrev OperationId := Nat
abbrev UserId := Nat
/-- The `metadata.uid` of a `CacheInstance`. -/
abbrev KubeUid := Nat
/-- The `metadata.uid` of a persistent volume claim. -/
abbrev VolumeUid := Nat

/-- `expbuild-<project>`. -/
structure Namespace where
  project : ProjectId
  deriving DecidableEq,Repr
/-- `c-<instance>`. -/
structure ResourceName where
  instanceId : InstanceId
  deriving DecidableEq,Repr
/-- The Secret of a new instance is `c-<instance>-auth`, the one of a rotation or
    a reclaim is `auth-<operation>`. -/
inductive SecretName where
  | initial (instanceId : InstanceId)
  | issued (operationId : OperationId)
  deriving DecidableEq,Repr

/-! ### The template catalogue -/

inductive Template where
  | bazelRemote | webdavApache | gradleHttp | turborepoHttp | nxHttp | goCacheprog
  deriving DecidableEq,Repr
inductive TemplateVersion where
  | v010 | v020
  deriving DecidableEq,Repr
inductive EnginePolicy where
  | lru | none
  deriving DecidableEq,Repr
inductive Exposure where
  | clusterInternal | gateway
  deriving DecidableEq,Repr
inductive DesiredState where
  | running | suspended
  deriving DecidableEq,Repr
inductive DeletionPolicy where
  | retain | delete
  deriving DecidableEq,Repr

structure TemplateOptions where
  webdavEnabled : Bool := false
  gradleEnabled : Bool := false
  turborepoEnabled : Bool := false
  nxEnabled : Bool := false
  goCacheEnabled : Bool := false
  gatewayEnabled : Bool := false
  deriving DecidableEq,Repr

/-- A row of the catalogue, without its public description. -/
structure TemplateRow where
  name : Template
  version : TemplateVersion
  enginePolicy : EnginePolicy
  enabled : TemplateOptions → Bool

/-- The catalogue: for each template the version given to new instances comes
    first, older versions stay resolvable. -/
def templates : List TemplateRow :=
  [⟨.bazelRemote,.v010,.lru,fun _ => true⟩,
   ⟨.webdavApache,.v020,.none,fun options => options.webdavEnabled⟩,
   ⟨.webdavApache,.v010,.none,fun _ => false⟩,
   ⟨.gradleHttp,.v020,.lru,fun options => options.gradleEnabled⟩,
   ⟨.gradleHttp,.v010,.lru,fun _ => false⟩,
   ⟨.turborepoHttp,.v010,.lru,fun options => options.turborepoEnabled⟩,
   ⟨.nxHttp,.v010,.lru,fun options => options.nxEnabled⟩,
   ⟨.goCacheprog,.v010,.lru,fun options => options.goCacheEnabled⟩]

/-- The first row of a template; every template has one. -/
def templateDefinition (template : Template) : TemplateRow :=
  (templates.find? (fun row => row.name = template)).get (by cases template <;> rfl)

def templateEnabled (template : Template) (options : TemplateOptions) : Bool :=
  (templateDefinition template).enabled options

/-- Whether the catalogue knows the capabilities of a version of a template. -/
def instanceCapabilities (template : Template) (version : Option TemplateVersion) : Bool :=
  match version with
  | none => false
  | some v => templates.any (fun row => row.name = template ∧ row.version = v)

/-! ### The input of an instance request -/

/-- A request body that `instanceInput` accepts, with its defaults filled in. The
    bounds are those of the schema of its template. -/
structure InstanceInput where
  template : Template
  name : String
  storageGiB : Nat
  cpuMillis : Nat
  memoryMiB : Nat
  cacheGiB : Nat
  exposure : Exposure
  desiredState : DesiredState
  deletionPolicy : DeletionPolicy
  readOnly : Bool
  storageBounds : 2 ≤ storageGiB ∧ storageGiB ≤ 1048576
  cpuBounds : 100 ≤ cpuMillis ∧ cpuMillis ≤ 64000
  memoryBounds : 128 ≤ memoryMiB ∧ memoryMiB ≤ 262144
  cacheBounds : if template = .webdavApache then cacheGiB = 0
    else 1 ≤ cacheGiB ∧ cacheGiB ≤ 1048575 ∧ cacheGiB < storageGiB
  deriving DecidableEq

/-! ### The object -/

/-- `uid:generation`, the token of `ETag` and `If-Match`. -/
structure Revision where
  uid : Option KubeUid
  generation : Option Nat
  deriving DecidableEq,Repr

/-- The body whose digest is the request hash. Digests are taken to be equal only
    for equal bodies. -/
inductive RequestHash where
  | project (ns : Namespace)
  | create (input : InstanceInput)
  | update (instanceId : InstanceId) (input : InstanceInput) (expected : Revision)
  | rotate (instanceId : InstanceId) (expected : Revision)
  | delete (instanceId : InstanceId)
  | volumeDelete (instanceId : InstanceId) (uid : VolumeUid)
  | reclaim (instanceId : InstanceId) (volumeUid : VolumeUid) (input : InstanceInput)
  deriving DecidableEq

/-- The labels that the platform reads: `managed-by`, `project-id`,
    `instance-id` and `instance-uid`. -/
structure Labels where
  managed : Bool := false
  projectId : Option ProjectId := none
  instanceId : Option InstanceId := none
  instanceUid : Option KubeUid := none
  deriving DecidableEq,Repr

/-- The annotations that the platform reads: `operation-id`, `request-hash`,
    `display-name` and `reclaim-bound-uid`. -/
structure Annotations where
  operationId : Option OperationId := none
  requestHash : Option RequestHash := none
  displayName : Option String := none
  reclaimBoundUid : Option KubeUid := none
  deriving DecidableEq

/-- `{ ...old, ...new }`. -/
def Annotations.merge (old new : Annotations) : Annotations where
  operationId := new.operationId <|> old.operationId
  requestHash := new.requestHash <|> old.requestHash
  displayName := new.displayName <|> old.displayName
  reclaimBoundUid := new.reclaimBoundUid <|> old.reclaimBoundUid

structure Reclaim where
  previousInstanceUID : KubeUid
  volumeUID : VolumeUid
  deriving DecidableEq,Repr
structure Storage where
  className : String
  capacity : String
  deletionPolicy : DeletionPolicy
  reclaim : Option Reclaim := none
  deriving DecidableEq,Repr
structure Access where
  exposure : Exposure
  credentialsSecretRef : SecretName
  readOnly : Option Bool := none
  deriving DecidableEq,Repr
structure Eviction where
  maxCacheGiB : Nat
  enginePolicy : EnginePolicy
  deriving DecidableEq,Repr
/-- The quantities of `cpu` and `memory`. -/
structure ResourceList where
  cpu : Option String := none
  memory : Option String := none
  deriving DecidableEq,Repr
structure Spec where
  instanceId : InstanceId
  projectId : ProjectId
  /-- `imageBindingMode` is `PinnedV1`. -/
  pinned : Bool
  templateName : Template
  templateVersion : TemplateVersion
  desiredState : DesiredState
  storage : Storage
  access : Access
  eviction : Eviction
  requests : ResourceList
  limits : ResourceList
  deriving DecidableEq,Repr

/-- What a client sends: an object without what the API server adds to it. -/
structure Manifest where
  apiVersion : String
  kind : String
  name : ResourceName
  ns : Namespace
  labels : Labels := {}
  annotations : Annotations := {}
  spec : Spec
  deriving DecidableEq

structure Condition where
  type : String
  status : String
  reason : String
  observedGeneration : Option Nat := none
  deriving DecidableEq,Repr
structure Status where
  observedGeneration : Option Nat := none
  conditions : List Condition := []
  deriving DecidableEq,Repr

/-- A `CacheInstance` as the API server returns it. -/
structure CacheObject extends Manifest where
  uid : Option KubeUid := none
  generation : Option Nat := none
  resourceVersion : Option Nat := none
  /-- `deletionTimestamp` is set. -/
  deleting : Bool := false
  status : Status := {}
  deriving DecidableEq

def revision (c : CacheObject) : Revision := ⟨c.uid,c.generation⟩

def labels (projectId : ProjectId) (instanceId : Option InstanceId := none) : Labels where
  managed := true
  projectId := some projectId
  instanceId := instanceId

def desiredObject (input : InstanceInput) (projectId : ProjectId) (ns : Namespace) (id : InstanceId)
    (storageClass : String) (operationId : OperationId) (requestHash : RequestHash) : Manifest :=
  let template := templateDefinition input.template
  let resources : ResourceList := ⟨some (toString input.cpuMillis ++ "m"),some (toString input.memoryMiB ++ "Mi")⟩
  { apiVersion := "cache.expbuild.io/v1alpha1"
    kind := "CacheInstance"
    name := ⟨id⟩
    ns := ns
    labels := labels projectId (some id)
    annotations := { operationId := some operationId, requestHash := some requestHash, displayName := some input.name }
    spec :=
      { pinned := true
        instanceId := id
        projectId := projectId
        templateName := template.name
        templateVersion := template.version
        desiredState := input.desiredState
        storage := ⟨storageClass,toString input.storageGiB ++ "Gi",input.deletionPolicy,none⟩
        access := ⟨input.exposure,.initial id,if input.template = .goCacheprog then some input.readOnly else none⟩
        eviction := ⟨input.cacheGiB,template.enginePolicy⟩
        requests := resources
        limits := resources } }

/-! ### Reservations read back from a specification -/

/-- What a reservation is counted in: GiB, thousandths of a CPU and MiB. -/
structure Resources where
  storageGiB : Nat
  cpuMillis : Nat
  memoryMiB : Nat
  deriving DecidableEq,Repr

/-- The number of a string of the form `^(\d+)unit$`. -/
def amount (unit : List Char) (s : String) : Option Nat :=
  let digits := s.toList.takeWhile Char.isDigit
  if digits ≠ [] ∧ s.toList.dropWhile Char.isDigit = unit then some (Nat.ofDigitChars 10 digits 0) else none

/-- The three amounts that `settleResources` reads from a specification. -/
def requested (spec : Spec) : Option Resources := do
  let storage ← amount ['G','i'] spec.storage.capacity
  let cpu ← amount ['m'] (spec.requests.cpu.getD "")
  let memory ← amount ['M','i'] (spec.requests.memory.getD "")
  return ⟨storage,cpu,memory⟩

/-- A number and a unit, which does not begin with a digit, are told apart. -/
theorem amount_parts (n : Nat) {first : Char} (rest : List Char) (letter : first.isDigit = false) :
    (toString n ++ String.ofList (first :: rest)).toList.takeWhile Char.isDigit = Nat.toDigits 10 n ∧
      (toString n ++ String.ofList (first :: rest)).toList.dropWhile Char.isDigit = first :: rest := by
  have digits : ∀ c ∈ Nat.toDigits 10 n, c.isDigit = true := by
    intro c member
    exact Nat.isDigit_of_mem_toDigits (by omega) (by omega) member
  have split : (toString n ++ String.ofList (first :: rest)).toList = Nat.toDigits 10 n ++ first :: rest := by
    simp [Nat.toString_eq_repr,Nat.repr_eq_ofList_toDigits]
  rw [split,List.takeWhile_append_of_pos digits,List.dropWhile_append_of_pos digits]
  simp [letter]

/-- Reading an amount back gives the number that was written. -/
theorem amount_toString (n : Nat) {first : Char} {rest : List Char} (letter : first.isDigit = false) :
    amount (first :: rest) (toString n ++ String.ofList (first :: rest)) = some n := by
  obtain ⟨takes,drops⟩ := amount_parts n rest letter
  have some' : Nat.toDigits 10 n ≠ [] := Nat.toDigits_ne_nil
  simp only [amount,takes,drops,ne_eq,some',not_false_eq_true,and_self,if_true]
  rw [Nat.ofDigitChars_ten_toDigits]

end Expbuild.Contract
