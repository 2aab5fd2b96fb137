import Expbuild.Programs
import Expbuild.Quantities
import Expbuild.Schema

/-!
The inventory of a project: what the database expects (`bindingSQL`) compared with
what Kubernetes has (`compareInventory`), and the tick that scans a project under a
lease and publishes the verdict. The digest over the rows of a project is a
parameter, `fingerprint`.
-/
namespace Expbuild.Inventory
open Expbuild.Contract Expbuild.Schema Expbuild.Tables Expbuild.Programs Expbuild.Quantities

/-! ### What is compared -/

structure InventoryBinding where
  id : InstanceId
  resourceName : ResourceName
  kubernetesUid : Option KubeUid
  lifecycle : Lifecycle
  templateName : Template
  templateVersion : Option TemplateVersion
  reservedStorageGib : Option Nat
  reservedCpuMillis : Option Nat
  reservedMemoryMib : Option Nat
  busy : Bool
  expectedSpec : Option Spec
  /-- Identifier, state and `updated_at` of every operation of the instance. -/
  operationStamp : Option (List (OperationId × OpState × Nat))
  deriving DecidableEq

/-- The name of a claim: `-data` after the name of an instance, or another one. -/
inductive ClaimName where
  | data (of : ResourceName)
  | other (name : String)
  deriving DecidableEq

structure OwnerReference where
  uid : KubeUid
  kind : String
  name : ResourceName
  deriving DecidableEq

structure InventoryVolume where
  name : Option ClaimName
  labels : Labels := {}
  owners : List OwnerReference := []
  deleting : Bool := false
  phase : Option String := none
  requested : Option String := none
  capacity : Option String := none
  deriving DecidableEq

structure InventoryResources where
  instances : List CacheObject := []
  volumes : List InventoryVolume := []

inductive IssueCode where
  | instanceIdentityConflict | instanceOwnershipConflict | unexpectedInstance | unexpectedInstanceDeletion
  | templateIdentityConflict | templateVersionUnknown | configurationDrift
  | resourceReservationUnknown | resourceReservationInsufficient | resourceQuantityInvalid
  | missingInstance | provisioningIncomplete
  | volumeOwnershipConflict | residualVolume | volumeDeletionInProgress | volumeNotBound
  | missingRetainedVolume | missingVolume | untrackedInstance | untrackedVolume
  deriving DecidableEq,Repr
/-- The resource that an issue is about, by its kind and name. -/
inductive Resource where
  | cacheInstance (name : ResourceName)
  | persistentVolumeClaim (name : Option ClaimName)
  deriving DecidableEq
structure InventoryIssue where
  code : IssueCode
  resource : Resource
  instanceId : Option InstanceId
  deriving DecidableEq

inductive InventoryState where
  | healthy | drift | inProgress | unavailable
  deriving DecidableEq,Repr
structure InventoryResult where
  state : InventoryState
  error : Option String := none
  issues : List InventoryIssue := []
  issueCount : Nat := 0
  truncated : Bool := false
  busyInstances : Nat := 0
  /-- How many instances and volumes were seen. -/
  counts : Option (Nat × Nat) := none
  deriving DecidableEq

/-! ### The comparison -/

section
variable {K V : Type} [DecidableEq K]

/-- `map.set(k,v)`: a key keeps the place it was first given. -/
def setEntry (entries : List (K × V)) (k : K) (v : V) : List (K × V) :=
  if entries.any (fun e => e.1 = k) then entries.map (fun e => if e.1 = k then (k,v) else e) else entries ++ [(k,v)]
/-- `new Map(entries)`. -/
def mapOf (rows : List (K × V)) : List (K × V) := rows.foldl (fun entries row => setEntry entries row.1 row.2) []
def getEntry (entries : List (K × V)) (k : K) : Option V := (entries.find? (fun e => e.1 = k)).map (fun e => e.2)
def deleteEntry (entries : List (K × V)) (k : K) : List (K × V) := entries.filter (fun e => e.1 ≠ k)

end

/-- Whether a resource of the instance carries its labels. -/
def labelled (project : ProjectId) (b : InventoryBinding) (found : Labels) : Bool :=
  found.projectId = some project && found.instanceId = some b.id && found.managed

/-- All values are looked at, so that a malformed one is never hidden. -/
def checkReservation (actual : List (Option String)) (reserved : Option Nat) (suffix : String) : List IssueCode :=
  match reserved with
  | none => [.resourceReservationUnknown]
  | some n =>
    match (actual.filterMap id).mapM (fun value => quantityExceeds value (toString n ++ suffix)) with
    | none => [.resourceQuantityInvalid]
    | some exceeded => if exceeded.any id then [.resourceReservationInsufficient] else []

/-- What is wrong with an instance that is there. -/
def instanceIssues (project : ProjectId) (b : InventoryBinding) (c : CacheObject) : List IssueCode :=
  let terminal := b.lifecycle.released
  let own := c.spec.projectId = project && c.spec.instanceId = b.id && b.kubernetesUid.isSome && c.uid = b.kubernetesUid
  let identity : List IssueCode :=
    if !own then [.instanceIdentityConflict]
    else if !labelled project b c.labels then [.instanceOwnershipConflict]
    else if terminal then [.unexpectedInstance]
    else if c.deleting then [.unexpectedInstanceDeletion]
    else if c.spec.templateName ≠ b.templateName ∨ b.templateVersion.any (fun v => c.spec.templateVersion ≠ v) then
      [.templateIdentityConflict]
    else if b.templateVersion = none then [.templateVersionUnknown]
    else if b.expectedSpec.any (fun spec => c.spec ≠ spec) then [.configurationDrift]
    else []
  let reservations : List IssueCode :=
    if !terminal && own && labelled project b c.labels then
      checkReservation [some c.spec.storage.capacity] b.reservedStorageGib "Gi" ++
        checkReservation [c.spec.requests.cpu,c.spec.limits.cpu] b.reservedCpuMillis "m" ++
        checkReservation [c.spec.requests.memory,c.spec.limits.memory] b.reservedMemoryMib "Mi"
    else []
  identity ++ reservations

/-- What is wrong with a volume that is there. -/
def volumeIssues (project : ProjectId) (b : InventoryBinding) (v : InventoryVolume) : List IssueCode :=
  if b.kubernetesUid = none ∨ !labelled project b v.labels ∨ v.labels.instanceUid ≠ b.kubernetesUid ∨
      v.owners.any (fun owner => some owner.uid ≠ b.kubernetesUid || owner.kind ≠ "CacheInstance" ||
        owner.name ≠ b.resourceName) ∨ (b.lifecycle = .detached ∧ v.owners ≠ []) then [.volumeOwnershipConflict]
  else if b.lifecycle = .deleted then [.residualVolume]
  else if v.deleting then [.volumeDeletionInProgress]
  else (if v.phase = some "Bound" then [] else [.volumeNotBound]) ++
    checkReservation [v.requested,v.capacity] b.reservedStorageGib "Gi"

/-- The issues of one binding, each reported once. -/
def bindingIssues (project : ProjectId) (b : InventoryBinding) (c : Option CacheObject) (v : Option InventoryVolume) :
    List InventoryIssue :=
  let onInstance : List IssueCode := match c with
    | some c => instanceIssues project b c
    | none => if b.lifecycle.released then []
      else [if b.lifecycle = .active then .missingInstance else .provisioningIncomplete]
  let onVolume : List IssueCode := match v with
    | some v => volumeIssues project b v
    | none => if b.lifecycle = .detached then [.missingRetainedVolume]
      else if b.lifecycle = .active then [.missingVolume] else []
  onInstance.eraseDups.map (fun code => ⟨code,.cacheInstance b.resourceName,some b.id⟩) ++
    onVolume.eraseDups.map (fun code => ⟨code,.persistentVolumeClaim (some (.data b.resourceName)),some b.id⟩)

/-- What is left to compare, and what was found so far. -/
structure Comparison where
  instances : List (ResourceName × CacheObject)
  volumes : List (Option ClaimName × InventoryVolume)
  issues : List InventoryIssue := []
  busyInstances : Nat := 0

/-- A binding takes its resources out; one with a running operation is only counted. -/
def compareBinding (project : ProjectId) (b : InventoryBinding) (s : Comparison) : Comparison :=
  let c := getEntry s.instances b.resourceName
  let v := getEntry s.volumes (some (.data b.resourceName))
  let rest : Comparison :=
    { s with instances := deleteEntry s.instances b.resourceName
             volumes := deleteEntry s.volumes (some (.data b.resourceName)) }
  if b.busy then { rest with busyInstances := rest.busyInstances + 1 }
  else { rest with issues := rest.issues ++ bindingIssues project b c v }

def compareInventory (project : ProjectId) (bindings : List InventoryBinding) (resources : InventoryResources) :
    InventoryResult :=
  let start : Comparison :=
    { instances := mapOf (resources.instances.map (fun c => (c.name,c)))
      volumes := mapOf (resources.volumes.map (fun v => (v.name,v))) }
  let compared := bindings.foldl (fun s b => compareBinding project b s) start
  let untracked : List InventoryIssue :=
    compared.instances.map (fun e => ⟨.untrackedInstance,.cacheInstance e.2.name,none⟩) ++
      compared.volumes.map (fun e => ⟨.untrackedVolume,.persistentVolumeClaim e.2.name,none⟩)
  let issues := compared.issues ++ untracked
  { state := if issues ≠ [] then .drift else if compared.busyInstances ≠ 0 then .inProgress else .healthy
    issues := issues.take 200
    issueCount := issues.length
    truncated := decide (200 < issues.length)
    busyInstances := compared.busyInstances
    counts := some (resources.instances.length,resources.volumes.length) }

/-! ### The rows -/

/-- The operations of an instance, in the order of their creation. -/
def operationsOf (db : Db) (i : InstanceId) : List Operation :=
  ((db.operations.entries.map (fun row => row.2)).filter (fun o => o.instanceId = some i)).insertionSort
    (fun o p => o.createdAt < p.createdAt ∨ (o.createdAt = p.createdAt ∧ o.id ≤ p.id))

/-- One row of `bindingSQL`. -/
def bindingRow (db : Db) (i : InstanceId) (b : Binding) : InventoryBinding :=
  let operations := operationsOf db i
  { id := i
    resourceName := b.resourceName
    kubernetesUid := b.kubernetesUid
    lifecycle := b.lifecycle
    templateName := b.templateName
    templateVersion := b.templateVersion
    reservedStorageGib := b.reservedStorageGib
    reservedCpuMillis := b.reservedCpuMillis
    reservedMemoryMib := b.reservedMemoryMib
    busy := operations.any (fun o => o.state.active)
    expectedSpec := (operations.reverse.findSome? (fun o => o.request.desired)).map (fun desired => desired.spec)
    operationStamp := if operations = [] then none else some (operations.map (fun o => (o.id,o.state,o.updatedAt))) }

def bindingSQL (db : Db) (project : ProjectId) : List InventoryBinding :=
  (((db.bindings.entries.filter (fun row => row.2.projectId = project)).map
    (fun row => bindingRow db row.1 row.2)).insertionSort (fun a b => a.id ≤ b.id)).take 1001

/-! ### The tick -/

/-- The columns of a project that the inventory writes. -/
structure Scan where
  result : Option InventoryResult := none
  checkedAt : Option Nat := none
  nextScan : Nat := 0
  workerId : Option ClaimId := none
  leaseUntil : Option Nat := none
  deriving DecidableEq

/-- The metadata of a namespace. -/
structure NamespaceMeta where
  uid : Option Nat
  deleting : Bool := false
  labels : Labels := {}

/-- A page of a list, and where the next one starts. -/
structure Page (α : Type) where
  items : List α
  continuation : Option String

section
variable (Digest : Type)

inductive ScanCall where
  | claim (worker : ClaimId)
  | bindings (project : ProjectId)
  | readNamespace (ns : Namespace)
  | listInstances (ns : Namespace) (continuation : Option String)
  | listVolumes (ns : Namespace) (continuation : Option String)
  | publish (project : ProjectId) (worker : ClaimId) (before : Option Digest) (result : InventoryResult)

end

section
variable {Digest : Type} [DecidableEq Digest]

@[reducible] def ScanCall.Value : ScanCall Digest → Type
  | .claim _ => Option (ProjectId × Namespace)
  | .bindings _ => List InventoryBinding
  | .readNamespace _ => NamespaceMeta
  | .listInstances _ _ => Page CacheObject
  | .listVolumes _ _ => Page InventoryVolume
  | .publish _ _ _ _ => Unit
@[reducible] def ScanCall.Answer (c : ScanCall Digest) : Type := Except Failure c.Value

abbrev ScanIo (Digest : Type) := Prog (ScanCall Digest) ScanCall.Answer Failure

def ask (c : ScanCall Digest) : ScanIo Digest c.Value := Prog.ask c

/-- At most five pages, and at most a thousand items. -/
def collect {α : Type} (page : Option String → ScanIo Digest (Page α)) :
    Nat → List α → Option String → ScanIo Digest (List α)
  | 0,_,_ => throw (.operation "inventory_limit_exceeded" false)
  | count + 1,items,continuation => do
    let result ← page continuation
    let items := items ++ result.items
    Prog.require (items.length ≤ 1000) (.operation "inventory_limit_exceeded" false)
    match result.continuation with
    | none => return items
    | some next => collect page count items (some next)

/-- Whether a namespace is there and the project's own. -/
def namespaceOf (project : ProjectId) (found : NamespaceMeta) : Bool :=
  !found.deleting && found.labels.projectId = some project && found.labels.managed

def inspectProjectResources (ns : Namespace) (project : ProjectId) : ScanIo Digest InventoryResources := do
  let first ← ask (.readNamespace ns)
  Prog.require (first.uid.isSome ∧ namespaceOf project first = true) (.operation "namespace_ownership_conflict" false)
  let instances ← collect (fun continuation => ask (.listInstances ns continuation)) 5 [] none
  let volumes ← collect (fun continuation => ask (.listVolumes ns continuation)) 5 [] none
  let final ← ask (.readNamespace ns)
  Prog.require (final.uid = first.uid ∧ namespaceOf project final = true) (.operation "namespace_changed_during_scan" false)
  return ⟨instances,volumes⟩

/-- The result of a scan that failed. -/
def unavailable (error : Failure) : InventoryResult where
  state := .unavailable
  error := some (match error with
    | .operation code _ => code
    | _ => "kubernetes_unavailable")

/-- The result of a scan during which the rows changed. -/
def changedDuringScan : InventoryResult where
  state := .inProgress
  error := some "platform_changed_during_scan"

variable (fingerprint : List InventoryBinding → Digest)

def tick (worker : ClaimId) : ScanIo Digest Bool := do
  let claimed ← ask (.claim worker)
  match claimed with
  | none => return false
  | some (project,ns) => do
    let read ← Prog.attempt (do
      let bindings ← ask (.bindings project)
      Prog.require (bindings.length ≤ 1000) (.operation "inventory_limit_exceeded" false)
      return bindings)
    match read with
    | .error error => ask (.publish project worker none (unavailable error))
    | .ok bindings => do
      let before := fingerprint bindings
      let observed ← Prog.attempt (inspectProjectResources ns project)
      let result := match observed with
        | .ok resources => compareInventory project bindings resources
        | .error error => unavailable error
      ask (.publish project worker (some before) result)
    return true

/-! ### The transactions of a tick -/

/-- The lease of a worker on a project. -/
def Scan.holds (scan : Scan) (worker : ClaimId) (now : Nat) : Bool :=
  scan.workerId = some worker && scan.leaseUntil.any (fun lease => now < lease)

/-- Whether a project is due and nobody scans it. -/
def Scan.due (scan : Scan) (now : Nat) : Bool :=
  decide (scan.nextScan ≤ now) && scan.leaseUntil.all (fun lease => lease < now)

def Scan.claimed (scan : Scan) (worker : ClaimId) (now : Nat) : Scan :=
  { scan with workerId := some worker, leaseUntil := some (now + 180) }

/-- The publishing transaction: the lease is checked, and the rows are read again. -/
def Scan.publish (scan : Scan) (rows : List InventoryBinding) (worker : ClaimId) (before : Option Digest)
    (result : InventoryResult) (now : Nat) : Scan :=
  if scan.holds worker now then
    let published := if before.any (fun digest => digest ≠ fingerprint rows) then changedDuringScan else result
    { result := some published
      checkedAt := some now
      nextScan := now + (if published.state = .inProgress then 5 else 60)
      workerId := none
      leaseUntil := none }
  else scan

end
end Expbuild.Inventory
