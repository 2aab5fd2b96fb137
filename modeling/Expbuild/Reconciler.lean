import Expbuild.Controllers
import Expbuild.Exposures

/-!
`Reconciler`: what the operator does for a `CacheInstance`, request by request. A pass
reads the instance and then finalizes it, or takes its finalizers, settles its images,
applies what is rendered from it, looks at what runs and reports on it. Names follow
the source; warning events and the delay until the next pass are left out.
-/
namespace Expbuild.Reconciler
open Expbuild.Contract Expbuild.Programs Expbuild.Clusters Expbuild.Kinds Expbuild.Adapters Expbuild.Exposures
open Expbuild.Calls (Key)
open Expbuild.Cleanup (OwnerReference controllerOf)
open Expbuild.Renderers (require)

/-! ### Requests -/

/-- How a pass ends early, besides a request that fails. -/
inductive Stop where
  | requeue
  | reclaimBindingPending
  /-- `imageBindingRejected` -/
  | rejected (reason message : String)
  | failed (message : String)
  deriving DecidableEq

/-- An error of the API server, or one of the operator's own. -/
inductive Error where
  | api (failure : Failure)
  | own (stop : Stop)
  deriving DecidableEq

abbrev Io (α : Type) := Controllers.Pass scheme Error α

def ask (r : Request scheme) : Io r.Value :=
  .request r (fun
    | .ok v => .pure v
    | .error e => .throw (.api e))

def get (k : Kind) (n : k.Name) : Io (Item scheme k) := ask (Request.get k n)
def list (k : Kind) (select : k.Selector) : Io (List (Item scheme k)) := ask (Request.list k select)
def create (k : Kind) (n : k.Name) (metadata : k.Meta) (spec : k.Spec) : Io Unit := ask (Request.create k n metadata spec)
/-- Writes an object back that was read under its name, with an optimistic lock. -/
def patch (k : Kind) (n : k.Name) (e : Item scheme k) (metadata : k.Meta) (spec : k.Spec) : Io Unit :=
  ask (Request.patch k n e.version metadata spec)
/-- Sets the finalizers, without a lock. -/
def setFinalizers (c : Instance) (finalizers : Finalizers) : Io Unit := ask (Request.merge Kind.cacheInstance c.key finalizers)

/-- Reads what may be missing. -/
def find (k : Kind) (n : k.Name) : Io (Option (Item scheme k)) :=
  .request (Request.get k n) (fun
    | .ok e => .pure (some e)
    | .error .notFound => .pure none
    | .error e => .throw (.api e))

/-- `client.IgnoreNotFound` of a deletion. -/
def delete (k : Kind) (n : k.Name) (e : Item scheme k) (version : Option Nat) : Io Unit :=
  .request (Request.delete k n e.uid version) (fun
    | .ok _ => .pure ()
    | .error .notFound => .pure ()
    | .error e => .throw (.api e))

def need (condition : Prop) [Decidable condition] (stop : Stop) : Io Unit := Prog.require condition (.own stop)
def reject {α : Type} (reason message : String) : Io α := .throw (.own (.rejected reason message))
/-- A value, or a rejection with the message of the error. -/
def approve {α : Type} (reason : String) : Except String α → Io α
  | .ok a => .pure a
  | .error message => reject reason message

/-! ### The working copy -/

/-- The instance as it was read, with the conditions that the pass sets on its copy. -/
structure Working where
  read : Instance
  conditions : List Condition

def refOf (c : Instance) : TemplateRef := ⟨c.spec.templateName,c.spec.templateVersion⟩
def running (c : Instance) : Bool := decide (c.spec.desiredState = .running)
def suspended (c : Instance) : Bool := decide (c.spec.desiredState = .suspended)
def exposed (c : Instance) : Bool := decide (c.spec.access.exposure = .gateway)

/-- `meta.SetStatusCondition` -/
def setCondition (conditions : List Condition) (new : Condition) : List Condition :=
  if conditions.any (fun old => old.type = new.type) then conditions.map (fun old => if old.type = new.type then new else old)
  else conditions ++ [new]

/-- `meta.RemoveStatusCondition` -/
def removeCondition (conditions : List Condition) (type : String) : List Condition := conditions.filter (fun old => old.type ≠ type)

def Working.set (w : Working) (type status reason : String) : Working :=
  { w with conditions := setCondition w.conditions ⟨type,status,reason,some w.read.generation⟩ }

def monitoringCondition (w : Working) (status reason : String) : Working := w.set "MonitoringConfigured" status reason
def bindingCondition (w : Working) (ok : Bool) (reason : String) : Working := w.set "ImagesBound" (if ok then "True" else "False") reason

/-- What a pass has verified when it reports that the instance is ready. -/
structure Applied where
  configHash : String
  credentialRevision : Nat
  endpoints : List Endpoint

/-- The condition on the eviction policy. -/
def policyCondition (c : Instance) (ready : Bool) : Condition :=
  match policyOf (refOf c) with
  | .ok .none => ⟨"PolicyApplied","Unknown","NotSupported",some c.generation⟩
  | .ok .lru =>
    if ready then ⟨"PolicyApplied","True","EngineBudgetVerified",some c.generation⟩
    else ⟨"PolicyApplied","Unknown","VerificationPending",some c.generation⟩
  | .error _ => ⟨"PolicyApplied","Unknown","VerificationPending",some c.generation⟩

/-- The status that a report writes over the current one. -/
def reported (w : Working) (current : InstanceStatus) (applied : Option Applied) (reason : String) : InstanceStatus :=
  let c := w.read
  let value := if applied.isSome then "True" else "False"
  let conditions := setCondition w.conditions ⟨"Ready",value,reason,some c.generation⟩
  let conditions := setCondition conditions (policyCondition c applied.isSome)
  let conditions :=
    if exposed c then
      setCondition (setCondition conditions ⟨"EndpointReady",value,reason,some c.generation⟩)
        ⟨"ExternalReachability","Unknown","NotProbed",some c.generation⟩
    else removeCondition (removeCondition conditions "EndpointReady") "ExternalReachability"
  { conditions := conditions
    observedGeneration := some c.generation
    -- a stale report does not clear a binding
    imageBinding := current.imageBinding
    appliedConfigHash := applied.map (fun x => x.configHash)
    credentialRevision := applied.map (fun x => x.credentialRevision)
    appliedTemplateVersion := applied.map (fun _ => c.spec.templateVersion)
    endpoints := (applied.map (fun x => x.endpoints)).getD [] }

/-- Writes the status, if the instance is still at the generation that the pass started
    from. It is ready if there is something applied. -/
def report (w : Working) (applied : Option Applied) (reason : String) : Io Unit := do
  let current ← find .cacheInstance w.read.key
  match current with
  | none => return ()
  | some current =>
    if current.generation ≠ w.read.generation ∨ current.uid ≠ w.read.uid then return ()
    else do
      let status := reported w current.metadata.status applied reason
      if status = current.metadata.status then return ()
      else patch .cacheInstance w.read.key current { current.metadata with status := status } current.spec

/-! ### Routes and monitors -/

def removeChildren (c : Instance) (message : String) : List ChildName → Io Bool
  | [] => return false
  | name :: rest => do
    let found ← find .child (c.key,name)
    match found with
    | none => removeChildren c message rest
    | some e => do
      need (e.metadata.labels.instanceUid = some c.uid ∧ (controllerOf e.metadata.owners).any (fun owner => owner.uid = c.uid))
        (.failed message)
      delete .child (c.key,name) e (some e.version)
      let _ ← removeChildren c message rest
      return true

def gatewayChildren : List ChildName := [.httpRoute,.grpcRoute,.gatewayPolicy]
def monitoringChildren : List ChildName := [.serviceMonitor,.metricsPolicy]
def removeGateway (c : Instance) : Io Bool := removeChildren c "gateway resource ownership conflict" gatewayChildren
def removeMonitoring (c : Instance) : Io Bool := removeChildren c "monitoring resource ownership conflict" monitoringChildren

/-! ### `apply` -/

/-- The labels and owners of an object. -/
def identity : (k : Kind) → k.Meta → ObjectMeta
  | .volume,(m : VolumeMeta) => m.toObjectMeta
  | .workload,(m : WorkloadMeta) => m.toObjectMeta
  | .child,(m : ChildMeta) => m.toObjectMeta
  | .config,(m : ConfigMeta) => m.toObjectMeta
  | _,_ => {}

def sameController (owner expected : List OwnerReference) : Bool :=
  match controllerOf owner,controllerOf expected with
  | some x,some y => decide (x.uid = y.uid ∧ x.name = y.name ∧ x.kind = y.kind ∧ x.apiVersion = y.apiVersion)
  | _,_ => false

/-- Creates an object, or brings an owned one up to date; `update` says how its
    specification changes, if it may. -/
def applyObject (k : Kind) (n : k.Name) (metadata : k.Meta) (spec : k.Spec) (owned : Bool)
    (update : Item scheme k → Except String (Option k.Spec)) : Io Unit := do
  let current ← find k n
  match current with
  | none => create k n metadata spec
  | some e => do
    need ((identity k e.metadata).labels.instanceUid = (identity k metadata).labels.instanceUid)
      (.failed "resource is not owned by this instance UID")
    need (owned = true → sameController (identity k e.metadata).owners (identity k metadata).owners = true)
      (.failed "resource has a conflicting controller owner")
    match update e with
    | .error message => throw (.own (.failed message))
    | .ok none => return ()
    | .ok (some next) => if @decide (next = e.spec) (specs k _ _) then return () else patch k n e e.metadata next

def updateVolume (d : VolumeSpec) (e : Volume) : Except String (Option VolumeSpec) := do
  require (e.metadata.owners = []) "retained PVC unexpectedly has an owner"
  require (e.spec.storageClassName = d.storageClassName) "storage class cannot change"
  require (!decide (d.request.getD 0 < e.spec.request.getD 0)) "volume shrinking is not supported"
  return some { e.spec with request := d.request }

def updateConfig (d : ConfigSpec) (e : ConfigMap) : Except String (Option ConfigSpec) := do
  require (e.spec.data = d.data) "immutable configuration collision"
  return none

def updateWorkload (d : WorkloadSpec) (e : Workload) : Except String (Option WorkloadSpec) :=
  match podImages d.template.spec with
  | none => .error "unexpected or duplicate containers"
  | some images => do
    -- an edit after the images were settled is not overwritten
    require (podImages e.spec.template.spec = some images) "workload container images differ from the trusted complete image set"
    return some d

def apply : Desired → Io Unit
  | .volume n m s => applyObject .volume n m s false (updateVolume s)
  | .config n m s => applyObject .config n m s true (updateConfig s)
  | .child n m s => applyObject .child n m s true (fun _ => .ok (some s))
  | .workload n m s => applyObject .workload n m s true (updateWorkload s)

def applyAll : List Desired → Io Unit
  | [] => return ()
  | d :: rest => do
    apply d
    applyAll rest

def ownerOf (c : Instance) : OwnerReference := ⟨Cleanup.groupVersion,"CacheInstance",c.key.2,c.uid,some true⟩

/-- `SetControllerReference` -/
def control (c : Instance) : Desired → Desired
  | .volume n m s => .volume n m s
  | .config n m s => .config n { m with owners := [ownerOf c] } s
  | .child n m s => .child n { m with owners := [ownerOf c] } s
  | .workload n m s => .workload n { m with owners := [ownerOf c] } s

def markLabels (c : Instance) (l : Labels) : Labels := { l with instanceUid := some c.uid }

/-- The identity of the instance on a rendered object; the template also names the
    version of the credentials. -/
def label (c : Instance) (secret : Secret) : Desired → Desired
  | .volume n m s => .volume n { m with labels := markLabels c m.labels } s
  | .config n m s => .config n { m with labels := markLabels c m.labels } s
  | .child n m s => .child n { m with labels := markLabels c m.labels } s
  | .workload n m s => .workload n { m with labels := markLabels c m.labels }
      { s with template :=
        { s.template with credentialRevision := some secret.version, labels := markLabels c s.template.labels } }

/-- What a pass applies. -/
def prepared (c : Instance) (secret : Secret) (objects : List Desired) : List Desired :=
  objects.map (fun d => control c (label c secret d))

/-! ### Images -/

def ownedWorkload (c : Instance) (sts : Workload) : Bool :=
  let m := sts.metadata
  decide (sts.key.1 = c.key.1 ∧ sts.key.2 = c.key.2 ∧ m.labels.instanceUid = some c.uid ∧ m.labels.instanceId = some c.spec.instanceId ∧
    m.labels.projectId = some c.spec.projectId ∧ m.labels.managed = true) &&
  match controllerOf m.owners with
  | none => false
  | some owner => decide (owner.uid = c.uid ∧ owner.name = c.key.2 ∧ owner.kind = "CacheInstance" ∧ owner.apiVersion = Cleanup.groupVersion)

def matchesImages (sts : Workload) (images : Images) : Bool := decide (podImages sts.spec.template.spec = some images)

def trustedBinding (c : Instance) (binding : ImageBinding) : Except String Adapter := do
  require (decide (binding.format = "v1" ∧ binding.instanceUid = c.uid ∧ binding.templateRef = refOf c))
    "binding format, instance UID or template identity differs"
  bind_ binding.templateRef binding.images

/-- Whether a Pod belongs to the instance, or reads its volume. -/
def relevant (c : Instance) (sts : Option Workload) (pod : Pod) : Bool :=
  decide (pod.metadata.labels.instanceUid = some c.uid) ||
    sts.any (fun sts => (controllerOf pod.metadata.owners).any (fun owner => owner.uid = sts.uid)) ||
    pod.spec.volumes.any (fun volume => volume.claim = some c.key.2)

def podOwned (c : Instance) (sts : Option Workload) (pod : Pod) : Bool :=
  match sts,controllerOf pod.metadata.owners with
  | some sts,some owner =>
    decide (owner.uid = sts.uid ∧ owner.name = sts.key.2 ∧ owner.kind = "StatefulSet" ∧ owner.apiVersion = "apps/v1" ∧
      pod.metadata.labels.instanceUid = some c.uid ∧ pod.metadata.labels.projectId = some c.spec.projectId ∧
      pod.metadata.labels.instanceId = some c.spec.instanceId)
  | _,_ => false

/-- Why a Pod speaks against the images, if it does. -/
def objection (c : Instance) (sts : Option Workload) (images : Images) (pod : Pod) : Option Stop :=
  if !relevant c sts pod then none
  else if !podOwned c sts pod then
    some (.rejected "ImageBindingOwnershipRejected" "a cache Pod or volume reader is not controlled by the exact workload UID")
  else if podImages pod.spec ≠ some images then
    some (.rejected (if c.metadata.status.imageBinding.isNone then "LegacyImageApprovalRequired" else "WorkloadImageDrift")
      "running Pod container images differ from the complete approved image set")
  else none

def verifyWorkloadPods (c : Instance) (sts : Option Workload) (images : Images) : Io Unit := do
  let pods ← list .pod (c.key.1,none)
  match pods.findSome? (objection c sts images) with
  | some stop => throw (.own stop)
  | none => return ()

/-- What a record of retained images says. -/
structure RetainedImages where
  ns : Namespace
  projectId : ProjectId
  instanceId : InstanceId
  volumeUid : VolumeUid
  binding : ImageBinding
  deriving DecidableEq

/-- The name of a record, and its text. -/
structure Codec where
  recordName : KubeUid → VolumeUid → String
  marshal : RetainedImages → String
  /-- Exactly one value, without unknown fields. -/
  unmarshal : String → Option RetainedImages

def purpose : String := "retained-images-v1"

def retainedImageAdapter (codec : Codec) (c : Instance) : Io Adapter := do
  let rejected := "RetainedImagesRejected"
  let found ← find .volume c.key
  match found with
  | none => reject rejected "retained volume is missing"
  | some pvc =>
    match c.spec.storage.reclaim with
    | none => reject rejected "retained volume identity differs"
    | some claim => do
      need (claim.previousInstanceUID ≠ c.uid ∧ claim.volumeUID = pvc.uid ∧ pvc.deleting = false ∧ pvc.metadata.owners = [] ∧
          pvc.metadata.labels.projectId = some c.spec.projectId ∧ pvc.metadata.labels.instanceId = some c.spec.instanceId ∧
          pvc.metadata.labels.managed = true ∧
          (pvc.metadata.labels.instanceUid = some claim.previousInstanceUID ∨ pvc.metadata.labels.instanceUid = some c.uid))
        (.rejected rejected "retained volume identity differs")
      match pvc.metadata.retainedImagesName,pvc.metadata.retainedImagesUid with
      | some name,some uid => do
        let found ← find .config (c.key.1,name)
        match found with
        | none => reject rejected "retained image record is missing"
        | some record => do
          let l := record.metadata.labels
          need (record.uid = uid ∧ record.spec.immutable = some true ∧ record.deleting = false ∧ record.metadata.owners = [] ∧
              l.instanceUid = some claim.previousInstanceUID ∧ l.projectId = some c.spec.projectId ∧
              l.instanceId = some c.spec.instanceId ∧ l.managed = true ∧ record.metadata.purpose = some purpose ∧
              record.spec.data.length = 1 ∧ record.spec.binaryData = [])
            (.rejected rejected "retained image record identity or immutability differs")
          let raw := (record.spec.data.lookup "binding.json").getD ""
          need (raw.utf8ByteSize ≤ 8192) (.rejected rejected "retained image record is oversized")
          match codec.unmarshal raw with
          | none => reject rejected "invalid retained image record"
          | some receipt => do
            need (receipt.ns = c.key.1 ∧ receipt.projectId = c.spec.projectId ∧ receipt.instanceId = c.spec.instanceId ∧
                receipt.volumeUid = claim.volumeUID ∧ receipt.binding.instanceUid = claim.previousInstanceUID ∧
                receipt.binding.templateRef = refOf c ∧ receipt.binding.format = "v1")
              (.rejected rejected "retained image record does not match the requested template and volume identity")
            approve rejected (bind_ receipt.binding.templateRef receipt.binding.images)
      | _,_ => reject rejected "retained volume lacks a trusted image record; current defaults cannot authorize recovery"

/-- The images of a new instance: those that are approved now, unless there is already
    a volume or a workload is missing. -/
def defaultAdapter (approved : Approved) (c : Instance) (sts : Option Workload) : Io Adapter := do
  let adapter ← approve "ImageApprovalRequired" (resolve (refOf c) approved)
  match sts with
  | some _ => return adapter
  | none => do
    need (c.spec.pinned = true)
      (.rejected "LegacyWorkloadMissing" "legacy workload is missing; recovery requires a verified binding, not current defaults")
    let found ← find .volume c.key
    match found with
    | some _ => reject "ImageRecoveryRequired" "unbound instance already has a volume; current defaults cannot authorize recovery"
    | none => return adapter

/-- What the operator is installed with, and how a process of it was started. -/
structure Settings where
  approved : Approved
  gateway : Option GatewayConfig
  monitoring : Option MonitoringConfig
  probe : Bool

/-- The binding of these images. -/
def bindingOf (c : Instance) (adapter : Adapter) : ImageBinding := ⟨"v1",c.uid,refOf c,adapter.images⟩

/-- Binds an instance to its images. -/
def bindImages (t : Toolkit) (c : Instance) (sts : Option Workload) (adapter : Adapter) : Io Unit := do
  need (∀ s ∈ sts, matchesImages s adapter.images = true)
    (.rejected "LegacyImageApprovalRequired" "first adoption requires exact current approval")
  verifyWorkloadPods c sts adapter.images
  let _ ← approve "InvalidConfiguration" (adapter.render t c c.spec.eviction.enginePolicy)
  patch .cacheInstance c.key c
    { c.metadata with status := { c.metadata.status with imageBinding := some (bindingOf c adapter) } } c.spec
  let persisted ← get .cacheInstance c.key
  need (persisted.uid = c.uid ∧ persisted.metadata.status.imageBinding = some (bindingOf c adapter))
    (.rejected "ImageBindingPersistenceRequired" "binding was not retained by the API; install the compatible CRD before provisioning")

/-- The images that an unbound instance may be bound to. -/
def proposedAdapter (codec : Codec) (settings : Settings) (c : Instance) (sts : Option Workload) : Io Adapter :=
  if c.spec.storage.reclaim.isSome then retainedImageAdapter codec c else defaultAdapter settings.approved c sts

/-- The adapter of the instance, and whether it has only now been bound. -/
def resolveImageBinding (t : Toolkit) (codec : Codec) (settings : Settings) (c : Instance) : Io (Adapter × Bool) := do
  let sts ← find .workload c.key
  need (∀ s ∈ sts, ownedWorkload c s = true)
    (.rejected "ImageBindingOwnershipRejected" "workload is not controlled by this exact instance UID and project")
  match c.metadata.status.imageBinding with
  | some binding => do
    let adapter ← approve "ImageBindingRejected" (trustedBinding c binding)
    need (∀ s ∈ sts, matchesImages s adapter.images = true)
      (.rejected "WorkloadImageDrift" "workload container images differ from the trusted complete image set")
    verifyWorkloadPods c sts adapter.images
    return (adapter,false)
  | none => do
    let adapter ← proposedAdapter codec settings c sts
    bindImages t c sts adapter
    return (adapter,true)

/-! ### Suspension -/

/-- Whether the workload still has to be scaled down. -/
def scaled (sts : Workload) : Bool := decide (sts.spec.replicas = some 0)

def scaleDown (c : Instance) (sts : Workload) : Io Unit :=
  patch .workload c.key sts sts.metadata { sts.spec with replicas := some 0 }

/-- Reports the reason once no Pod of the instance is left. -/
def reportStopped (w : Working) (reason : String) : Io Unit := do
  let pods ← list .pod (w.read.key.1,some w.read.uid)
  if pods ≠ [] then report w none "Suspending" else report w none reason

def suspendBoundWorkload (w : Working) (reason : String) : Io Unit := do
  let found ← find .workload w.read.key
  match found with
  | none => reportStopped w reason
  | some sts =>
    if ownedWorkload w.read sts = false then report w none "SuspensionOwnershipRejected"
    else if scaled sts then reportStopped w reason
    else do
      scaleDown w.read sts
      reportStopped w reason

/-! ### `reclaimVolume` -/

def fits (t : Toolkit) (c : Instance) (pvc : Volume) : Bool :=
  match t.library.parseQuantity c.spec.storage.capacity,pvc.spec.request,pvc.metadata.capacity with
  | some requested,some volumeRequest,some allocated => decide (volumeRequest ≤ requested ∧ allocated ≤ requested)
  | _,_,_ => false

/-- A claim that a reclaim may take, as far as the claim itself goes. -/
def reclaimable (c : Instance) (claim : Reclaim) (pvc : Volume) : Prop :=
  pvc.uid = claim.volumeUID ∧ pvc.deleting = false ∧ pvc.metadata.owners = [] ∧
    pvc.metadata.labels.projectId = some c.spec.projectId ∧ pvc.metadata.labels.instanceId = some c.spec.instanceId ∧
    pvc.metadata.labels.managed = true ∧ pvc.metadata.phase = "Bound"

instance (c : Instance) (claim : Reclaim) (pvc : Volume) : Decidable (reclaimable c claim pvc) := by
  unfold reclaimable
  infer_instance

def mounts (c : Instance) (pod : Pod) : Bool := pod.spec.volumes.any (fun volume => volume.claim = some c.key.2)

/-- The claim in the hands of the new object. -/
def transferred (c : Instance) (claim : Reclaim) (pvc : Volume) : VolumeMeta :=
  { pvc.metadata with labels := markLabels c pvc.metadata.labels, reclaimedFrom := some claim.previousInstanceUID }

def reclaimVolume (t : Toolkit) (c : Instance) (claim : Reclaim) : Io Unit := do
  need (claim.previousInstanceUID ≠ c.uid) (.failed "invalid retained volume identity")
  let pvc ← get .volume c.key
  need (reclaimable c claim pvc) (.failed "retained volume identity or state changed")
  need (pvc.spec.storageClassName = some c.spec.storage.className) (.failed "retained volume storage class differs")
  need (pvc.spec.accessModes = ["ReadWriteOnce"]) (.failed "retained volume access mode differs")
  need (fits t c pvc = true) (.failed "retained volume capacity would shrink or is invalid")
  need (pvc.metadata.labels.instanceUid = some c.uid ∨ pvc.metadata.labels.instanceUid = some claim.previousInstanceUID)
    (.failed "retained volume belongs to another instance UID")
  -- the worker writes the marker only after binding the new UID
  need (c.metadata.annotations.reclaimBoundUid = some c.uid) .reclaimBindingPending
  if pvc.metadata.labels.instanceUid = some c.uid then return ()
  else do
    let pods ← list .pod (c.key.1,none)
    need (pods.any (mounts c) = false) (.failed "retained volume is still referenced by a Pod")
    patch .volume c.key pvc (transferred c claim pvc) pvc.spec

/-! ### Rollout -/

/-- Whether the workload runs the revision of its current template. -/
def rolledOut (sts : Workload) : Bool :=
  let status := sts.metadata.status
  decide (sts.generation ≤ status.observedGeneration ∧ status.readyReplicas = 1 ∧ status.updatedReplicas = 1 ∧
    status.currentRevision ≠ "" ∧ status.currentRevision = status.updateRevision)

def routeReady (g : GatewayConfig) (c : Instance) (spec : ChildSpec) (route : Child) : Bool :=
  !route.deleting && decide (route.metadata.labels.instanceUid = some c.uid) &&
    (controllerOf route.metadata.owners).any (fun owner => owner.uid = c.uid) &&
    @decide (route.spec = spec) (specs .child _ _) && g.accepted route.metadata.parents route.generation

def routesReady (g : GatewayConfig) (c : Instance) : List Desired → Io Bool
  | .child n _ (.route parent host service port) :: rest => do
    let found ← find .child n
    match found with
    | none => return false
    | some route => if routeReady g c (.route parent host service port) route then routesReady g c rest else return false
  | _ :: rest => routesReady g c rest
  | [] => return true

def failedWith {α : Type} : Except String α → Io α
  | .ok a => .pure a
  | .error message => .throw (.own (.failed message))

def gatewayReady (t : Toolkit) (g : GatewayConfig) (c : Instance) : Io Bool := do
  let found ← find .gateway (g.ns,g.name)
  match found with
  | none => return false
  | some gateway =>
    if !g.ready gateway then return false
    else do
      let objects ← failedWith (g.render t.library c)
      routesReady g c objects

/-! ### `cleanupConfigs` -/

/-- The references of a Pod. -/
def references (spec : PodSpec) : Cleanup.PodSpec where
  volumes := spec.volumes.map (fun v => v.toVolume)
  containers := spec.containers.map (fun c => c.toContainer)
  initContainers := spec.initContainers.map (fun c => c.toContainer)
  ephemeralContainers := spec.ephemeralContainers.map (fun c => c.toContainer)

/-- Objects as the cleanup sees them. -/
def seenInstance (e : Instance) : ApiServer.Object :=
  ⟨e.key,e.uid,e.generation,e.version,e.deleting,e.finalizers,
    ⟨Cleanup.groupVersion,"CacheInstance",e.metadata.labels,e.metadata.annotations,e.metadata.status.toStatus⟩,e.spec⟩
def seenWorkload (e : Workload) : Cleanup.Workload :=
  ⟨e.key,e.uid,e.generation,e.version,e.deleting,e.finalizers,(),⟨references e.spec.template.spec,e.spec.replicas⟩⟩
def seenConfig (e : ConfigMap) : Cleanup.ConfigMap :=
  ⟨e.key,e.uid,e.generation,e.version,e.deleting,e.finalizers,⟨e.metadata.labels.instanceUid,e.metadata.owners⟩,e.spec.toConfigBody⟩
def seenPod (e : Pod) : Cleanup.Pod := ⟨e.key.1,references e.spec,e.deleting⟩

/-- The requests of the cleanup. -/
def cleanupRequest : Cleanup.Call → Request scheme
  | .listConfigs ns uid => Request.list Kind.config (ns,some uid)
  | .listPods ns => Request.list Kind.pod (ns,none)
  | .getInstance k => Request.get Kind.cacheInstance k
  | .getWorkload k => Request.get Kind.workload k
  | .deleteConfig k uid version => Request.delete Kind.config k uid (some version)

def cleanupError : Failure → Cleanup.Error
  | .notFound => .api (some 404)
  | .conflict => .api (some 409)
  | _ => .api none

def cleanupAnswer : (call : Cleanup.Call) → (cleanupRequest call).Answer → call.Answer
  | .listConfigs _ _,x => (x.mapError cleanupError).map (fun (configs : List ConfigMap) => configs.map seenConfig)
  | .listPods _,x => (x.mapError cleanupError).map (fun (pods : List Pod) => pods.map seenPod)
  | .getInstance _,x => (x.mapError cleanupError).map (fun (e : Instance) => seenInstance e)
  | .getWorkload _,x => (x.mapError cleanupError).map (fun (e : Workload) => seenWorkload e)
  | .deleteConfig _ _ _,x => x.mapError cleanupError

/-- The errors of the cleanup. -/
def cleanupStop : Cleanup.Error → Error
  | .api (some 404) => .api .notFound
  | .api (some 409) => .api .conflict
  | .api _ => .api .refused
  | .changed message => .own (.failed message)

def cleanupConfigs (c : Instance) (sts : Workload) : Io Unit :=
  Prog.translate cleanupRequest cleanupAnswer cleanupStop (Cleanup.cleanupConfigs (seenInstance c) (seenWorkload sts))

/-! ### The pass -/

/-- What runs, once everything is applied. -/
def observe (t : Toolkit) (settings : Settings) (w : Working) (adapter : Adapter) (secret : Secret) : Io Unit := do
  let c := w.read
  let sts ← get .workload c.key
  let pvc ← get .volume c.key
  if pvc.metadata.phase ≠ "Bound" then report w none "StoragePending"
  else if !rolledOut sts then report w none "WorkloadPending"
  else if !settings.probe then report w none "ProtocolVerificationPending"
  else do
    let probe ← (ask (Request.outside c.key)).attempt
    match probe with
    | .error _ => report w none "ProtocolVerificationFailed"
    | .ok _ => do
      cleanupConfigs c sts
      match exposed c,settings.gateway with
      | true,some g => do
        let ready ← gatewayReady t g c
        if !ready then report w none "EndpointPending"
        else report w (some ⟨sts.spec.template.configHash,secret.version,g.endpoints c⟩) "Available"
      | _,_ => report w (some ⟨sts.spec.template.configHash,secret.version,adapter.endpoints t c.key⟩) "Available"

def applyGateway (t : Toolkit) (g : GatewayConfig) (c : Instance) : Io Unit := do
  let objects ← failedWith (g.render t.library c)
  applyAll (objects.map (control c))

def applyMonitoring (t : Toolkit) (m : MonitoringConfig) (w : Working) : Io Working := do
  let result ← (do
    let objects ← failedWith (m.render t.library w.read)
    applyAll (objects.map (control w.read)) : Io Unit).attempt
  match result with
  | .error _ => return monitoringCondition w "False" "ConfigurationFailed"
  | .ok _ => return monitoringCondition w "True" "ResourcesApplied"

/-- Whether an instance that runs has metrics to collect. -/
def monitored (settings : Settings) (c : Instance) : Option MonitoringConfig :=
  match settings.monitoring,describe (refOf c) with
  | some m,.ok capabilities => if 0 < capabilities.metricsPort ∧ running c = true then some m else none
  | _,_ => none

def monitor (t : Toolkit) (settings : Settings) (w : Working) : Io Working :=
  match monitored settings w.read with
  | some m => applyMonitoring t m w
  | none => return w

/-- Routes go after the rest, for an instance that runs behind the Gateway. -/
def exposeAndObserve (t : Toolkit) (settings : Settings) (w : Working) (adapter : Adapter) (secret : Secret) : Io Unit :=
  match exposed w.read && running w.read,settings.gateway with
  | true,some g => do
    let result ← (applyGateway t g w.read).attempt
    match result with
    | .error _ => report w none "EndpointApplyFailed"
    | .ok _ => observe t settings w adapter secret
  | _,_ => observe t settings w adapter secret

def deploy (t : Toolkit) (settings : Settings) (w : Working) (adapter : Adapter) (objects : List Desired) (secret : Secret) : Io Unit := do
  let w ← monitor t settings w
  let result ← (applyAll (prepared w.read secret objects)).attempt
  match result with
  | .error (.api .conflict) => throw (.api .conflict)
  | .error _ => report w none "ApplyFailed"
  | .ok _ => exposeAndObserve t settings w adapter secret

def reclaimAndDeploy (t : Toolkit) (settings : Settings) (w : Working) (adapter : Adapter) (objects : List Desired) (secret : Secret) :
    Io Unit :=
  match w.read.spec.storage.reclaim with
  | none => deploy t settings w adapter objects secret
  | some claim => do
    let result ← (reclaimVolume t w.read claim).attempt
    match result with
    | .error (.own .reclaimBindingPending) => report w none "VolumeReclaimPending"
    | .error _ => report w none "VolumeReclaimRejected"
    | .ok _ => deploy t settings w adapter objects secret

def provision (t : Toolkit) (settings : Settings) (w : Working) (adapter : Adapter) : Io Unit :=
  let c := w.read
  match adapter.render t c c.spec.eviction.enginePolicy with
  | .error _ => report w none "InvalidConfiguration"
  | .ok objects => do
    let found ← find .secret (c.key.1,c.spec.access.credentialsSecretRef)
    match found with
    | none => report w none "CredentialsMissing"
    | some secret =>
      if secret.metadata.labels.instanceId ≠ some c.spec.instanceId ∨ secret.metadata.labels.projectId ≠ some c.spec.projectId ∨
          List.length secret.spec = 0 then report w none "CredentialsRejected"
      else reclaimAndDeploy t settings w adapter objects secret

def reconcileBound (t : Toolkit) (codec : Codec) (settings : Settings) (w : Working) : Io Unit := do
  let result ← (resolveImageBinding t codec settings w.read).attempt
  match result with
  | .error (.own (.rejected reason _)) =>
    -- once the status is patched, the copy is what the API server answered
    let w := if reason = "ImageBindingPersistenceRequired" then ⟨w.read,w.read.metadata.status.conditions⟩ else w
    let w := bindingCondition w false reason
    if suspended w.read then suspendBoundWorkload w reason else report w none reason
  | .error e => throw e
  | .ok (_,true) => return ()
  | .ok (adapter,false) =>
    let w := bindingCondition w true "Pinned"
    if suspended w.read then suspendBoundWorkload w "Suspended" else provision t settings w adapter

/-- The finalizer for external access is taken before any route is made, and given up
    once the routes are gone. -/
def reconcileExposure (t : Toolkit) (codec : Codec) (settings : Settings) (w : Working) : Io Unit :=
  let c := w.read
  let finalizers := c.metadata.finalizers
  if exposed c && !suspended c && settings.gateway.isNone then report w none "InvalidConfiguration"
  else if exposed c && running c && !finalizers.gateway then setFinalizers c { finalizers with gateway := true }
  else if finalizers.gateway && (!exposed c || suspended c) then do
    let pending ← removeGateway c
    if pending then report w none "EndpointRemoving" else setFinalizers c { finalizers with gateway := false }
  else reconcileBound t codec settings w

def reconcileMonitoring (t : Toolkit) (codec : Codec) (settings : Settings) (c : Instance) : Io Unit :=
  let w : Working := ⟨c,c.metadata.status.conditions⟩
  let finalizers := c.metadata.finalizers
  let previous := w.conditions.find? (fun x => x.type = "MonitoringConfigured")
  if (monitored settings c).isSome then
    let w := if previous.all (fun x => x.observedGeneration ≠ some c.generation) then monitoringCondition w "Unknown" "NotVerified" else w
    if !finalizers.monitoring then setFinalizers c { finalizers with monitoring := true } else reconcileExposure t codec settings w
  else if !finalizers.monitoring then reconcileExposure t codec settings (monitoringCondition w "False" "Inactive")
  else do
    let result ← (removeMonitoring c).attempt
    match result with
    | .ok false => setFinalizers c { finalizers with monitoring := false }
    | _ => reconcileExposure t codec settings (monitoringCondition w "Unknown" "CleanupPending")

/-! ### `finalize` -/

/-- Removes one kind of objects under its own finalizer, and comes back until they are
    gone. -/
def withdraw (held : Bool) (remove : Io Bool) : Io Unit :=
  if held then do
    let pending ← remove
    need (pending = false) .requeue
  else return ()

def removeService (c : Instance) (name : ChildName) : Io Unit := do
  let found ← find .child (c.key,name)
  match found with
  | none => return ()
  | some svc => do
    need (svc.metadata.labels.instanceUid = some c.uid) (.failed "service ownership conflict during deletion")
    delete .child (c.key,name) svc none

/-- Scales the workload down, if there is one. -/
def stopWorkload (c : Instance) : Io (Option Workload) := do
  let found ← find .workload c.key
  match found with
  | none => return none
  | some sts => do
    need (ownedWorkload c sts = true) (.failed "workload is not controlled by this exact instance UID and project")
    if scaled sts then return some sts
    else do
      scaleDown c sts
      throw (.own .requeue)

/-- The record of the images under a name, which is created where there is none. -/
def findOrCreate (n : Namespace × String) (metadata : ConfigMeta) (spec : ConfigSpec) : Io ConfigMap := do
  let found ← find .config n
  match found with
  | some record => return record
  | none => do
    tryCatch (create .config n metadata spec) (fun e => if e = .api .alreadyExists then pure () else throw e)
    get .config n

def receiptOf (c : Instance) (pvc : Volume) (binding : ImageBinding) : RetainedImages :=
  ⟨c.key.1,c.spec.projectId,c.spec.instanceId,pvc.uid,binding⟩
def recordMeta (c : Instance) : ConfigMeta := { labels := markLabels c (marks c), purpose := some purpose }
def recordSpec (codec : Codec) (receipt : RetainedImages) : ConfigSpec :=
  { immutable := some true, data := [("binding.json",codec.marshal receipt)] }

/-- Whether a record is what it should be. -/
def intact (record : ConfigMap) (metadata : ConfigMeta) (spec : ConfigSpec) : Bool :=
  decide (record.spec.immutable = some true ∧ record.metadata.owners = [] ∧ record.deleting = false ∧
    record.spec.data = spec.data ∧ record.spec.binaryData = []) &&
  decide (record.metadata.labels = metadata.labels ∧ record.metadata.purpose = metadata.purpose ∧
    record.metadata.otherLabels = metadata.otherLabels)

/-- Records the images of a retained volume. Without a trusted set the volume is
    retained all the same. -/
def retainImages (codec : Codec) (c : Instance) (pvc : Volume) (sts : Option Workload) : Io Unit :=
  match c.metadata.status.imageBinding with
  | none => return ()
  | some binding =>
    match trustedBinding c binding with
    | .error _ => return ()
    | .ok adapter =>
      if sts.any (fun sts => !matchesImages sts adapter.images) then return ()
      else do
        let name := codec.recordName c.uid pvc.uid
        let spec := recordSpec codec (receiptOf c pvc binding)
        let record ← findOrCreate (c.key.1,name) (recordMeta c) spec
        if !intact record (recordMeta c) spec then return ()
        else if pvc.metadata.retainedImagesName = some name ∧ pvc.metadata.retainedImagesUid = some record.uid then return ()
        else patch .volume c.key pvc { pvc.metadata with retainedImagesName := some name, retainedImagesUid := some record.uid } pvc.spec

/-- What becomes of the claim. -/
def releaseVolume (codec : Codec) (c : Instance) (sts : Option Workload) : Io Unit := do
  let found ← find .volume c.key
  match found with
  | none => return ()
  | some pvc => do
    need (pvc.metadata.labels.instanceUid = some c.uid) (.failed "volume ownership conflict during deletion")
    match c.spec.storage.deletionPolicy with
    | .delete => do
      delete .volume c.key pvc none
      throw (.own .requeue)
    | .retain => retainImages codec c pvc sts

def finalize (codec : Codec) (c : Instance) : Io Unit :=
  if c.metadata.finalizers.cleanup then do
    withdraw c.metadata.finalizers.gateway (removeGateway c)
    withdraw c.metadata.finalizers.monitoring (removeMonitoring c)
    -- access goes before the workload
    removeService c .service
    removeService c .headless
    let sts ← stopWorkload c
    let pods ← list .pod (c.key.1,some c.uid)
    need (pods = []) .requeue
    releaseVolume codec c sts
    patch .cacheInstance c.key c { c.metadata with finalizers := {} } c.spec
  else return ()

/-- `Reconcile`: only the instances of a project in its own namespace are touched. -/
def reconcile (t : Toolkit) (codec : Codec) (settings : Settings) (key : Key) : Io Unit := do
  let found ← find .cacheInstance key
  match found with
  | none => return ()
  | some c => do
    let ns ← find .project key.1
    match ns with
    | none => return ()
    | some ns =>
      if ns.metadata.managed = false ∨ ns.metadata.projectId ≠ some c.spec.projectId then return ()
      else if c.deleting then finalize codec c
      else if !c.metadata.finalizers.cleanup then setFinalizers c { c.metadata.finalizers with cleanup := true }
      else reconcileMonitoring t codec settings c

end Expbuild.Reconciler
