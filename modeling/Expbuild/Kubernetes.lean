import Expbuild.Calls

/-!
`KubernetesClient`: what workers and routes do with single requests to the API
server. Names follow the source.
-/
namespace Expbuild.Kubernetes
open Expbuild.Contract Expbuild.Schema Expbuild.Programs Expbuild.Calls

def statusCode : Failure → Option Nat
  | .http code _ => some code
  | .operation _ _ => none
  | .api code => code

def operationError {α : Type} (code : String) (superseded : Bool := false) : Io α := throw (.operation code superseded)

/-- Continues where the error has the status code, and throws it again otherwise. -/
def onStatus {α : Type} (code : Nat) (body : Io α) (handler : Io α) : Io α :=
  tryCatch body (fun error => if statusCode error = some code then handler else throw error)

def ownedBy (projectId : ProjectId) (found : Labels) : Bool := found.projectId = some projectId && found.managed

/-- Creates a network policy, or looks at the one that exists. -/
def ensurePolicy (ns : Namespace) (name : PolicyName) (projectId : ProjectId) (check : NetworkPolicy → Bool) :
    Io Unit :=
  onStatus 409 (kube (.createPolicy ns name (labels projectId))) do
    let current ← kube (.readPolicy ns name)
    require (ownedBy projectId current.labels) (.operation "policy_ownership_conflict" false)
    require (check current = true) (.operation "client_policy_configuration_conflict" false)

def ensureProject (ns : Namespace) (projectId : ProjectId) : Io Unit := do
  onStatus 409 (kube (.createNamespace ns (labels projectId))) (pure ())
  let found ← kube (.readNamespace ns)
  require (ownedBy projectId found) (.operation "namespace_ownership_conflict" false)
  ensurePolicy ns .isolation projectId (fun _ => true)
  ensurePolicy ns .clientAccess projectId (fun current => !current.deleting && current.asWritten)

def ensureCredentials (ns : Namespace) (name : SecretName) (projectId : ProjectId) (instanceId : Option InstanceId)
    (operationId : OperationId) (data : CredentialData) : Io Unit :=
  onStatus 409 (kube (.createSecret ns name (labels projectId instanceId) operationId data)) do
    let found ← kube (.readSecret ns name)
    require (found.labels.instanceId = instanceId ∧ found.labels.projectId = some projectId ∧
      found.operationId = some operationId ∧ found.data = data) (.operation "credential_ownership_conflict" false)

def getInstance (ns : Namespace) (name : ResourceName) : Io (Option CacheObject) :=
  onStatus 404 (do let c ← kube (.readInstance ns name); return some c) (pure none)

/-- Whether an object has the identity and the request of a manifest. -/
def sameRequest (current : CacheObject) (desired : Manifest) : Bool :=
  current.spec.instanceId = desired.spec.instanceId && current.spec.projectId = desired.spec.projectId &&
    current.annotations.operationId = desired.annotations.operationId &&
    current.annotations.requestHash = desired.annotations.requestHash

def createInstance (desired : Manifest) : Io CacheObject :=
  onStatus 409 (kube (.createInstance desired)) do
    let read ← getInstance desired.ns desired.name
    let current ← present read (.operation "instance_ownership_conflict" false)
    require (sameRequest current desired = true) (.operation "instance_ownership_conflict" false)
    require (current.spec = desired.spec ∧ current.deleting = false)
      (.operation "instance_configuration_superseded" true)
    return current

/-- Whether an object is the one that a reclaim created and may take the volume. -/
def approvable (current : CacheObject) (desired : Manifest) (uid : KubeUid) : Bool :=
  current.uid = some uid && !current.deleting && current.spec.projectId = desired.spec.projectId &&
    current.spec.instanceId = desired.spec.instanceId &&
    current.annotations.operationId = desired.annotations.operationId && current.spec = desired.spec

def withMarker (current : CacheObject) (uid : KubeUid) : CacheObject :=
  { current with annotations := { current.annotations with reclaimBoundUid := some uid } }

def approveRetainedVolumeReclaim (desired : Manifest) (uid : KubeUid) : Io Unit := do
  require (desired.spec.storage.reclaim.isSome) (.operation "invalid_reclaim_request" false)
  let read ← getInstance desired.ns desired.name
  let current ← present read (.operation "instance_reclaim_conflict" false)
  require (approvable current desired uid = true) (.operation "instance_reclaim_conflict" false)
  if current.annotations.reclaimBoundUid = some uid then
    return ()
  else do
    require (current.annotations.reclaimBoundUid = none) (.operation "instance_reclaim_conflict" false)
    require (current.resourceVersion.isSome) (.operation "missing_kubernetes_identity" false)
    let _ ← kube (.replaceInstance current.ns current.name (withMarker current uid))
    return ()

/-- The requested specification with the creation-only mode of the existing object. -/
def pinnedLike (current : CacheObject) (desired : Manifest) : Spec := { desired.spec with pinned := current.spec.pinned }

/-- The body of an update. -/
def updated (current : CacheObject) (desired : Manifest) : CacheObject :=
  { current with annotations := current.annotations.merge desired.annotations, spec := pinnedLike current desired }

def updateInstance (desired : Manifest) (expectedRevision : Revision) : Io CacheObject := do
  let read ← getInstance desired.ns desired.name
  let current ← present read (.operation "instance_identity_conflict" false)
  require (current.spec.instanceId = desired.spec.instanceId ∧ current.spec.projectId = desired.spec.projectId ∧
    current.deleting = false) (.operation "instance_identity_conflict" false)
  require (current.uid.isSome ∧ current.uid = expectedRevision.uid) (.operation "instance_identity_conflict" false)
  if current.annotations.operationId = desired.annotations.operationId then do
    require (current.annotations.requestHash = desired.annotations.requestHash ∧
      current.spec = pinnedLike current desired) (.operation "instance_configuration_superseded" true)
    return current
  else do
    require (revision current = expectedRevision) (.operation "instance_version_conflict" true)
    kube (.replaceInstance desired.ns desired.name (updated current desired))

def deleteInstance (ns : Namespace) (name : ResourceName) (uid : KubeUid) : Io Unit :=
  tryCatch (kube (.deleteInstance ns name uid)) fun error =>
    if statusCode error = some 409 then operationError "instance_identity_conflict"
    else if statusCode error = some 404 then pure ()
    else throw error

structure RetainedVolumeIdentity where
  ns : Namespace
  name : ResourceName
  projectId : ProjectId
  instanceId : InstanceId
  instanceUid : KubeUid
  deriving DecidableEq

/-- Whether a claim carries exactly the labels of the instance and has no owner. -/
def retainedBy (identity : RetainedVolumeIdentity) (pvc : Claim) : Bool :=
  pvc.labels.projectId = some identity.projectId && pvc.labels.instanceId = some identity.instanceId &&
    pvc.labels.instanceUid = some identity.instanceUid && pvc.labels.managed && !pvc.owned

def retainedClaim (identity : RetainedVolumeIdentity) : Io (Option Claim) := do
  let found ← kube (.readNamespace identity.ns)
  require (ownedBy identity.projectId found) (.operation "namespace_ownership_conflict" false)
  onStatus 404 (do
    let pvc ← kube (.readClaim identity.ns identity.name)
    require (retainedBy identity pvc = true) (.operation "volume_ownership_conflict" false)
    return some pvc) (pure none)

structure RetainedVolume where
  uid : VolumeUid
  capacity : String
  allocatedCapacity : String
  storageClass : String
  phase : String
  deleting : Bool
  deriving DecidableEq

def getRetainedVolume (identity : RetainedVolumeIdentity) : Io (Option RetainedVolume) := do
  let pvc ← retainedClaim identity
  return pvc.map (fun pvc => ⟨pvc.uid,pvc.capacity,pvc.allocatedCapacity,pvc.storageClass,pvc.phase,pvc.deleting⟩)

def deleteRetainedVolume (identity : RetainedVolumeIdentity) (uid : VolumeUid) : Io Unit := do
  let read ← retainedClaim identity
  match read with
  | none => return ()
  | some pvc => do
    require (pvc.uid = uid) (.operation "volume_identity_conflict" false)
    let current ← getInstance identity.ns identity.name
    require (current = none) (.operation "volume_instance_exists" false)
    -- every Pod counts, not only those with platform labels
    let mounts ← kube (.listMounts identity.ns)
    require (identity.name ∉ mounts) (.operation "volume_in_use" false)
    tryCatch (kube (.deleteClaim identity.ns identity.name uid pvc.resourceVersion)) fun error =>
      if statusCode error = some 409 then operationError "volume_identity_conflict"
      else if statusCode error = some 404 then pure ()
      else throw error

def deleteCredentials (ns : Namespace) (name : SecretName) (projectId : ProjectId) (instanceId : Option InstanceId) :
    Io Unit :=
  onStatus 404 (do
    let secret ← kube (.readSecret ns name)
    require (secret.labels.projectId = some projectId ∧ secret.labels.instanceId = instanceId)
      (.operation "credential_ownership_conflict" false)
    kube (.deleteSecret ns name secret.uid)) (pure ())

end Expbuild.Kubernetes
