import Expbuild.Kubernetes

/-!
`OperationWorker`: one `tick` claims an operation under a lease, executes it by its
kind and ends with `finish` or `defer`. Between any two calls the lease may expire
and another worker may take over; nothing but the transactions themselves notices.
-/
namespace Expbuild.Worker
open Expbuild.Contract Expbuild.Schema Expbuild.Programs Expbuild.Calls Expbuild.Kubernetes

def finish (operation : Operation) (state : OpState) (code : Option String := none) (change : Change := .nothing) :
    Io Unit := do
  let _ ← db (.finish operation state code change)
  return ()

def defer (operation : Operation) (code : Option String := none) : Io Unit := db (.defer operation code)

/-- Binds the object to the instance and returns the target generation. -/
def bind (operation : Operation) (object : CacheObject) : Io Nat := do
  let uid ← present object.uid (.operation "missing_kubernetes_identity" false)
  let generation ← present object.generation (.operation "missing_kubernetes_identity" false)
  let bound ← db (.bind operation uid generation)
  require (bound = true) (.operation "operation_lease_lost" false)
  return generation

/-! ### Projects, retained volumes and deletion -/

def executeProject (operation : Operation) : Io Unit := do
  let ns ← present operation.request.ns (.operation "invalid_operation" false)
  ensureProject ns operation.projectId
  finish operation .succeeded none .projectReady

def retains (lifecycle : Lifecycle) : Bool := lifecycle = .detached || lifecycle = .failed

def executeVolumeDelete (operation : Operation) : Io Unit := do
  let invalid : Failure := .operation "invalid_operation" false
  let ns ← present operation.request.ns invalid
  let name ← present operation.request.name invalid
  let uid ← present operation.request.uid invalid
  let instanceUid ← present operation.request.instanceUid invalid
  let instanceId ← present operation.instanceId invalid
  let row ← db (.volumeBinding instanceId operation.projectId)
  require (row.any (fun b => retains b.binding.lifecycle && b.binding.kubernetesUid = some instanceUid &&
    b.ns = ns && b.binding.resourceName = name) = true) (.operation "volume_binding_conflict" false)
  let identity : RetainedVolumeIdentity := ⟨ns,name,operation.projectId,instanceId,instanceUid⟩
  let read ← getRetainedVolume identity
  match read with
  | some volume => do
    require (volume.uid = uid) (.operation "volume_identity_conflict" false)
    deleteRetainedVolume identity uid
    defer operation
  | none => finish operation .succeeded none .volumeDeleted

def executeDelete (operation : Operation) : Io Unit := do
  let invalid : Failure := .operation "invalid_operation" false
  let ns ← present operation.request.ns invalid
  let name ← present operation.request.name invalid
  let uid ← present operation.request.uid invalid
  let read ← getInstance ns name
  match read with
  | some current => do
    require (current.uid = some uid) (.operation "instance_identity_conflict" false)
    -- the policy is kept before the delete, since the object takes it away with it
    let policy := current.spec.storage.deletionPolicy
    require (operation.request.deletionPolicy.all (fun recorded => recorded = policy) = true)
      (.operation "deletion_policy_changed" false)
    db (.recordPolicy operation policy)
    deleteInstance ns name uid
    defer operation
  | none => do
    let policy := operation.request.deletionPolicy.getD .retain
    let names ← db (.credentialNames operation.instanceId)
    forEach names (fun name => deleteCredentials ns name operation.projectId operation.instanceId)
    finish operation .succeeded none (.released policy)

/-! ### Create, reclaim, update and rotate -/

def checkVolume (operation : Operation) (desired : Manifest) : Io Unit := do
  let invalid : Failure := .operation "invalid_reclaim_request" false
  let previous ← present operation.request.previousInstanceUID invalid
  let volumeUid ← present operation.request.volumeUid invalid
  let instanceId ← present operation.instanceId invalid
  let volume ← getRetainedVolume ⟨desired.ns,desired.name,operation.projectId,instanceId,previous⟩
  require (volume.any (fun v => v.uid = volumeUid && !v.deleting && v.phase = "Bound" &&
    v.storageClass = desired.spec.storage.className) = true) (.operation "volume_identity_conflict" false)

def provideCredentials (operation : Operation) (desired : Manifest) : Io Unit := do
  let payload ← present operation.secretPayload (.operation "credentials_unavailable" false)
  match unsealPayload operation.id payload with
  | .ok data =>
    ensureCredentials desired.ns desired.spec.access.credentialsSecretRef operation.projectId operation.instanceId
      operation.id data
  | .error e => throw e

/-- The first execution: what the object needs, and the object itself. -/
def applyDesired (operation : Operation) (desired : Manifest) : Io CacheObject := do
  onlyIf (operation.kind = .reclaim) (checkVolume operation desired)
  onlyIf (operation.kind.creates = true) (ensureProject desired.ns operation.projectId)
  onlyIf (operation.kind ≠ .update) (provideCredentials operation desired)
  if operation.kind.creates then createInstance desired
  else do
    let expected ← present operation.request.expectedRevision (.operation "invalid_operation" false)
    updateInstance desired expected

/-- Whether every label of the first is a label of the second. -/
def labelsWithin (desired current : Labels) : Bool :=
  (!desired.managed || current.managed) &&
    (desired.projectId.isNone || desired.projectId = current.projectId) &&
    (desired.instanceId.isNone || desired.instanceId = current.instanceId) &&
    (desired.instanceUid.isNone || desired.instanceUid = current.instanceUid)

/-- An object that a lost creation of exactly this request left. -/
def recoverable (operation : Operation) (desired : Manifest) (current : CacheObject) : Bool :=
  !current.deleting && current.name = desired.name && current.ns = desired.ns &&
    current.apiVersion = desired.apiVersion && current.kind = desired.kind &&
    current.annotations.operationId = some operation.id &&
    current.annotations.requestHash = desired.annotations.requestHash &&
    labelsWithin desired.labels current.labels && current.spec = desired.spec

/-- A later execution: the object that should be there, with the target generation. -/
def observe (operation : Operation) (desired : Manifest) : Io (CacheObject × Option Nat) := do
  let read ← getInstance desired.ns desired.name
  let current ← present read (.operation "instance_disappeared" false)
  if operation.kind.creates ∧ operation.targetGeneration = none then do
    require (recoverable operation desired current = true) (.operation "instance_recovery_conflict" false)
    let target ← bind operation current
    return (current,some target)
  else return (current,operation.targetGeneration)

/-- Hands the retained volume to the object of a reclaim. -/
def approve (operation : Operation) (desired : Manifest) (object : CacheObject) : Io Unit := do
  let invalid : Failure := .operation "invalid_reclaim_request" false
  require (desired.spec.storage.reclaim.map (fun r => r.previousInstanceUID) = operation.request.previousInstanceUID ∧
    desired.spec.storage.reclaim.map (fun r => r.volumeUID) = operation.request.volumeUid) invalid
  let uid ← present object.uid invalid
  approveRetainedVolumeReclaim desired uid

/-- The `Ready` condition of the current generation. -/
def readyCondition (object : CacheObject) : Option Condition :=
  object.status.conditions.find? (fun x => x.type = "Ready" ∧ x.observedGeneration = object.generation)
def ready (object : CacheObject) : Bool :=
  object.status.observedGeneration = object.generation &&
    (if object.spec.desiredState = .suspended then (readyCondition object).any (fun x => x.reason = "Suspended")
     else (readyCondition object).any (fun x => x.status = "True"))
/-- A configuration that the operator rejects. -/
def rejected (object : CacheObject) : Option String :=
  (readyCondition object).bind (fun x =>
    if x.reason = "InvalidConfiguration" ∨ x.reason = "CredentialsRejected" then some ("controller_" ++ x.reason)
    else none)

/-- Revokes what came before the credentials of this operation. -/
def revokeOlder (operation : Operation) (desired : Manifest) : Io Unit := do
  let old ← db (.olderCredentialNames operation.instanceId desired.spec.access.credentialsSecretRef)
  forEach old (fun name => deleteCredentials desired.ns name operation.projectId operation.instanceId)

/-- Compares what was observed with what was asked for. -/
def conclude (operation : Operation) (desired : Manifest) (object : CacheObject) (target : Option Nat) : Io Unit := do
  let bound ← db (.boundUid operation.instanceId)
  require (object.uid.isSome ∧ object.uid = bound ∧ some object.spec.instanceId = operation.instanceId ∧
    object.spec.projectId = operation.projectId) (.operation "instance_identity_conflict" false)
  require (object.generation = some (target.getD 0) ∧ object.annotations.operationId = some operation.id)
    (.operation "instance_configuration_superseded" true)
  if ready object then do
    onlyIf (operation.kind = .rotate ∨ operation.kind = .reclaim) (revokeOlder operation desired)
    finish operation .succeeded none
      (.activated (desired.annotations.displayName.getD "") desired.spec.access.credentialsSecretRef)
  else
    match rejected object with
    | some code => operationError code
    | none => defer operation

def executeDesired (operation : Operation) : Io Unit := do
  let desired ← present operation.request.desired (.operation "invalid_operation" false)
  if operation.state ≠ .reconciling then do
    let object ← applyDesired operation desired
    let target ← bind operation object
    onlyIf (operation.kind = .reclaim) (approve operation desired object)
    conclude operation desired object (some target)
  else do
    let (object,target) ← observe operation desired
    onlyIf (operation.kind = .reclaim) (approve operation desired object)
    conclude operation desired object target

/-! ### A tick -/

/-- The quota gate, where the worker has one and the kind applies resources. -/
def gate (gated : Bool) (operation : Operation) : Io Bool :=
  if gated ∧ operation.kind.applies then db (.quotaGate operation.projectId) else pure true

def executeKind (operation : Operation) : Io Unit :=
  match operation.kind with
  | .projectCreate => executeProject operation
  | .volumeDelete => executeVolumeDelete operation
  | .delete => executeDelete operation
  | .create | .reclaim | .update | .rotate => executeDesired operation

def execute (gated : Bool) (operation : Operation) : Io Unit := do
  let passes ← gate gated operation
  if passes then executeKind operation else defer operation (some "project_quota_not_ready")

/-- How an error of an execution ends it. -/
def recover (operation : Operation) (error : Failure) : Io Unit :=
  match error with
  | .operation code superseded => finish operation (if superseded then .superseded else .failed) (some code)
  | error =>
    match statusCode error with
    | some code =>
      if code = 400 ∨ code = 403 ∨ code = 422 then finish operation .failed (some ("kubernetes_" ++ toString code))
      else defer operation (some "kubernetes_unavailable")
    | none => defer operation (some "kubernetes_unavailable")

def tick (gated : Bool) (claim : ClaimId) : Io Unit := do
  let claimed ← db (.claim claim)
  match claimed with
  | none => return ()
  | some operation =>
    tryCatch (do
      let now ← Io.await .clock
      require (now ≤ operation.deadlineAt) (.operation "operation_deadline_exceeded" false)
      execute gated operation) (recover operation)

end Expbuild.Worker
