import Expbuild.Kubernetes
import Expbuild.Quantities

/-!
The requests of the management API that change projects, instances and
operations. A request that first reads from Kubernetes does so between two
transactions, so that anything may have changed when it is admitted. Identifiers
and credentials are drawn when the request arrives (`drawn`).
-/
namespace Expbuild.Routes
open Expbuild.Contract Expbuild.Schema Expbuild.Programs Expbuild.Calls Expbuild.Kubernetes Expbuild.Quantities

inductive Request where
  | createProject (actor : UserId)
  | retryProject (caller : Caller)
  | updateQuota (caller : Caller) (limits : Quota) (expected : Nat)
  | createInstance (caller : Caller) (input : InstanceInput)
  | updateInstance (caller : Caller) (instanceId : InstanceId) (input : InstanceInput) (expected : Revision)
  | rotateCredentials (caller : Caller) (instanceId : InstanceId) (expected : Revision)
  | deleteInstance (caller : Caller) (instanceId : InstanceId)
  | deleteRetainedVolume (caller : Caller) (instanceId : InstanceId) (uid : VolumeUid)
  | reclaimRetainedVolume (caller : Caller) (instanceId : InstanceId) (volumeUid : VolumeUid) (input : InstanceInput)
  | retryOperation (caller : Caller) (operationId : OperationId)

/-- The body of a reply with status 202: the operation, whether it was there before
    where the route says so, and the password where it is revealed. Other replies carry
    nothing that is modelled. -/
inductive Reply where
  | accepted (operation : Operation) (replayed : Option Bool) (credentials : Option CredentialData)
  | other
  deriving DecidableEq

def requireKube (options : Options) : Io Unit :=
  require (options.kube = true) (.http 503 "Kubernetes connection is not configured")

/-- Turns every error into one answer. -/
def otherwise {α : Type} (body : Io α) (e : Failure) : Io α := tryCatch body (fun _ => throw e)

/-- Whether an object is the one that a binding describes. -/
def describes (instanceId : InstanceId) (b : Binding) (c : CacheObject) : Bool :=
  c.spec.instanceId = instanceId && c.spec.projectId = b.projectId && c.spec.templateName = b.templateName &&
    b.templateVersion.all (fun version => c.spec.templateVersion = version) &&
    b.kubernetesUid.all (fun uid => c.uid = some uid)

def readOwned (options : Options) (instanceId : InstanceId) (b : BindingRow) : Io (Option CacheObject) := do
  let c ← otherwise (do requireKube options; getInstance b.ns b.binding.resourceName)
    (.http 503 "Kubernetes state is temporarily unavailable")
  require (c.all (describes instanceId b.binding) = true) (.http 409 "Kubernetes resource identity conflict")
  return c

/-- `Number(capacity.replace(/Gi$/,""))`. Only plain numbers are read; anything else
    compares as smaller than nothing. -/
def capacityNumber (capacity : String) : Option Nat :=
  match amount ['G','i'] capacity with
  | some n => some n
  | none => amount [] capacity

/-- What an update asks for: the input, with what an update cannot change taken
    from the current object. -/
def updateDesired (caller : Caller) (instanceId : InstanceId) (input : InstanceInput) (operationId : OperationId)
    (expected : Revision) (ns : Namespace) (current : CacheObject) : Manifest :=
  let desired := desiredObject input caller.projectId ns instanceId current.spec.storage.className operationId
    (.update instanceId input expected)
  { desired with spec := { desired.spec with
      access := { desired.spec.access with credentialsSecretRef := current.spec.access.credentialsSecretRef }
      templateName := current.spec.templateName
      templateVersion := current.spec.templateVersion
      pinned := current.spec.pinned
      storage := { desired.spec.storage with reclaim := current.spec.storage.reclaim } } }

/-- What a rotation asks for: the current object with another Secret. -/
def rotateDesired (instanceId : InstanceId) (operationId : OperationId) (expected : Revision) (current : CacheObject) :
    Manifest where
  apiVersion := current.apiVersion
  kind := current.kind
  name := current.name
  ns := current.ns
  annotations := current.annotations.merge
    { operationId := some operationId, requestHash := some (.rotate instanceId expected) }
  spec := { current.spec with access := { current.spec.access with credentialsSecretRef := .issued operationId } }

/-- What a reclaim asks for: the input in the template version of the binding, on
    the retained volume. -/
def reclaimDesired (caller : Caller) (instanceId : InstanceId) (volumeUid : VolumeUid) (input : InstanceInput)
    (operationId : OperationId) (storageClass : String) (ns : Namespace) (version : TemplateVersion)
    (previous : KubeUid) : Manifest :=
  let desired := desiredObject input caller.projectId ns instanceId storageClass operationId
    (.reclaim instanceId volumeUid input)
  { desired with spec := { desired.spec with
      templateVersion := version
      storage := { desired.spec.storage with reclaim := some ⟨previous,volumeUid⟩ }
      access := { desired.spec.access with credentialsSecretRef := .issued operationId } } }

/-- `auth.projectAccess`; the actor it returns knows whether it is a platform
    administrator. -/
def accessAs (caller : Caller) (roles : List Role) : Io Bool := db (.projectAccess caller roles)
/-- The reply that carries what the transaction returned. -/
def Accepted.reply (accepted : Accepted) : Reply :=
  .accepted accepted.operation (some accepted.replayed) accepted.credentials

def createInstance (options : Options) (caller : Caller) (input : InstanceInput) (drawn : Nat) : Io Reply := do
  let platformAdmin ← accessAs caller [.admin,.maintainer]
  requireKube options
  let unconfigured : Failure := .http 503 "Instance provisioning is not configured"
  require (options.encryptionKey = true) unconfigured
  let storageClass ← present options.storageClass unconfigured
  let accepted ← db (.createInstance caller platformAdmin options storageClass input drawn drawn drawn)
  return Accepted.reply accepted

def updateInstance (options : Options) (caller : Caller) (instanceId : InstanceId) (input : InstanceInput)
    (expected : Revision) (drawn : Nat) : Io Reply := do
  let _ ← accessAs caller [.admin,.maintainer]
  let previous ← db (.replay caller [.admin,.maintainer] .update (.update instanceId input expected))
  match previous with
  | some o => return .accepted o (some true) none
  | none => do
    require (input.exposure = .gateway → options.templates.gatewayEnabled = true)
      (.http 409 "Gateway exposure is not enabled")
    let b ← db (.binding caller.projectId instanceId)
    let read ← readOwned options instanceId b
    let unavailable : Failure := .http 409 "Instance is not available for update"
    let current ← present read unavailable
    require (current.deleting = false ∧ b.binding.kubernetesUid.isSome) unavailable
    require (current.spec.templateName = input.template) (.http 400 "Instance template cannot be changed")
    require (revision current = expected) (.http 409 "Instance configuration changed")
    require ((capacityNumber current.spec.storage.capacity).all (fun n => n ≤ input.storageGiB) = true)
      (.http 400 "Storage shrinking is not supported")
    let desired := updateDesired caller instanceId input drawn expected b.ns current
    let accepted ← db (.updateInstance caller instanceId input drawn desired expected)
    return .accepted accepted.operation none none

def rotateCredentials (options : Options) (caller : Caller) (instanceId : InstanceId) (expected : Revision)
    (drawn : Nat) : Io Reply := do
  let _ ← accessAs caller [.admin]
  requireKube options
  require (options.encryptionKey = true) (.http 503 "Credential provisioning is not configured")
  let previous ← db (.replay caller [.admin] .rotate (.rotate instanceId expected))
  match previous with
  | some o => return .accepted o (some true) none
  | none => do
    let b ← db (.binding caller.projectId instanceId)
    let read ← readOwned options instanceId b
    let unavailable : Failure := .http 409 "Instance configuration changed or is unavailable"
    let current ← present read unavailable
    require (current.deleting = false ∧ b.binding.kubernetesUid.isSome ∧ revision current = expected) unavailable
    let desired := rotateDesired instanceId drawn expected current
    let accepted ← db (.rotateCredentials caller instanceId drawn desired expected drawn)
    return Accepted.reply accepted

def deleteInstance (caller : Caller) (instanceId : InstanceId) (drawn : Nat) : Io Reply := do
  let _ ← accessAs caller [.admin]
  let accepted ← db (.deleteInstance caller instanceId drawn)
  return .accepted accepted.operation none none

def deleteRetainedVolume (options : Options) (caller : Caller) (instanceId : InstanceId) (uid : VolumeUid)
    (drawn : Nat) : Io Reply := do
  let _ ← accessAs caller [.admin]
  requireKube options
  let accepted ← db (.deleteRetainedVolume caller instanceId uid drawn)
  return .accepted accepted.operation none none

/-- An error of the storage observation, as the API answers it. -/
def storageError (error : Failure) : Failure :=
  match error with
  | .operation code _ => .http 409 code
  | _ => .http 503 "Storage observation is temporarily unavailable"

/-- Whether the input covers the volume and the reservation it had. -/
def coversVolume (input : InstanceInput) (volume : RetainedVolume) (b : Binding) : Bool :=
  match quantityCeil volume.capacity "1Gi",quantityCeil volume.allocatedCapacity "1Gi" with
  | some capacity,some allocated => max capacity allocated ≤ input.storageGiB && b.reservedStorageGib.getD 0 ≤ input.storageGiB
  | _,_ => false

def reclaimRetainedVolume (options : Options) (caller : Caller) (instanceId : InstanceId) (volumeUid : VolumeUid)
    (input : InstanceInput) (drawn : Nat) : Io Reply := do
  let _ ← accessAs caller [.admin]
  let unconfigured : Failure := .http 503 "Instance provisioning is not configured"
  require (options.encryptionKey = true) unconfigured
  let storageClass ← present options.storageClass unconfigured
  let previous ← db (.replay caller [.admin] .reclaim (.reclaim instanceId volumeUid input))
  match previous with
  | some o => return .accepted o (some true) none
  | none => do
    let b ← db (.binding caller.projectId instanceId)
    let ineligible : Failure := .http 409 "Instance is not eligible for retained volume reclaim"
    require (b.binding.lifecycle = .detached ∨ b.binding.lifecycle = .failed) ineligible
    let uid ← present b.binding.kubernetesUid ineligible
    let version ← present b.binding.templateVersion ineligible
    require (b.binding.templateName = input.template ∧ templateEnabled input.template options.templates = true ∧
      instanceCapabilities input.template (some version) = true) ineligible
    let observed ← tryCatch (do
      requireKube options
      getRetainedVolume ⟨b.ns,b.binding.resourceName,caller.projectId,instanceId,uid⟩)
      (fun error => throw (storageError error))
    let changed : Failure := .http 409 "Retained volume changed or is not ready"
    let volume ← present observed changed
    require (volume.uid = volumeUid ∧ volume.deleting = false ∧ volume.phase = "Bound" ∧
      volume.storageClass = storageClass) changed
    require (coversVolume input volume b.binding = true)
      (.http 409 "Reclaim storage must cover the retained volume and historical reservation")
    let existing ← otherwise (do requireKube options; getInstance b.ns b.binding.resourceName)
      (.http 503 "Kubernetes instance observation is unavailable")
    require (existing = none) (.http 409 "An instance already exists for this retained volume")
    let desired := reclaimDesired caller instanceId volumeUid input drawn storageClass b.ns version uid
    let accepted ← db (.reclaimRetainedVolume caller instanceId b.binding volumeUid input drawn desired drawn)
    return Accepted.reply accepted

def retryOperation (caller : Caller) (operationId : OperationId) : Io Reply := do
  let _ ← accessAs caller [.admin]
  let accepted ← db (.retryOperation caller operationId)
  return Accepted.reply accepted

def updateQuota (caller : Caller) (limits : Quota) (expected : Nat) : Io Reply := do
  let _ ← accessAs caller [.admin]
  db (.platformAccess caller.actor)
  db (.updateQuota caller limits expected)
  return .other

def createProject (actor : UserId) (drawn : Nat) : Io Reply := do
  db (.platformAccess actor)
  db (.createProject actor drawn drawn)
  return .other

def retryProject (caller : Caller) (drawn : Nat) : Io Reply := do
  let _ ← accessAs caller [.admin]
  let _ ← db (.retryProject caller drawn)
  return .other

/-- The handler of a request. -/
def handle (options : Options) (drawn : Nat) : Request → Io Reply
  | .createProject actor => createProject actor drawn
  | .retryProject caller => retryProject caller drawn
  | .updateQuota caller limits expected => updateQuota caller limits expected
  | .createInstance caller input => createInstance options caller input drawn
  | .updateInstance caller instanceId input expected => updateInstance options caller instanceId input expected drawn
  | .rotateCredentials caller instanceId expected => rotateCredentials options caller instanceId expected drawn
  | .deleteInstance caller instanceId => deleteInstance caller instanceId drawn
  | .deleteRetainedVolume caller instanceId uid => deleteRetainedVolume options caller instanceId uid drawn
  | .reclaimRetainedVolume caller instanceId volumeUid input =>
    reclaimRetainedVolume options caller instanceId volumeUid input drawn
  | .retryOperation caller operationId => retryOperation caller operationId

end Expbuild.Routes
