import Expbuild.Clusters
import Expbuild.Cleanup

/-!
The kinds of objects that the operator works with, as a scheme of the API server: the
`CacheInstance` with its finalizers and its status, what is rendered from it, and what
the operator only looks at. Services, routes, network policies and monitors are
`child` objects, named after the instance.

Only what the operator reads or writes is kept of an object. A quantity is its value.
-/
namespace Expbuild.Kinds
open Expbuild.Contract Expbuild.Clusters
open Expbuild.Calls (Key)
open Expbuild.Cleanup (OwnerReference ConfigBody controllerOf)

structure ObjectMeta where
  labels : Labels := {}
  owners : List OwnerReference := []
  deriving DecidableEq

/-! ### The instance -/

structure TemplateRef where
  name : Template
  version : TemplateVersion
  deriving DecidableEq,Repr

/-- A map from containers to images. -/
abbrev Images := Finmap (fun _ : String => String)

structure ImageBinding where
  format : String
  instanceUid : KubeUid
  templateRef : TemplateRef
  images : Images
  deriving DecidableEq

structure Endpoint where
  protocol : String
  url : String
  deriving DecidableEq,Repr

structure InstanceStatus extends Status where
  imageBinding : Option ImageBinding := none
  appliedConfigHash : Option String := none
  credentialRevision : Option Nat := none
  appliedTemplateVersion : Option TemplateVersion := none
  endpoints : List Endpoint := []
  deriving DecidableEq

/-- The finalizers of the operator. -/
structure Finalizers where
  cleanup : Bool := false
  gateway : Bool := false
  monitoring : Bool := false
  deriving DecidableEq,Repr

structure InstanceMeta where
  labels : Labels := {}
  annotations : Annotations := {}
  finalizers : Finalizers := {}
  status : InstanceStatus := {}
  deriving DecidableEq

/-! ### What is rendered from it -/

/-- A persistent volume claim; the annotations say which image record belongs to the
    volume and whom it was reclaimed from. -/
structure VolumeMeta extends ObjectMeta where
  phase : String := ""
  capacity : Option ℚ := none
  reclaimedFrom : Option KubeUid := none
  retainedImagesName : Option String := none
  retainedImagesUid : Option Nat := none
  deriving DecidableEq
structure VolumeSpec where
  storageClassName : Option String
  accessModes : List String
  /-- The request for storage. -/
  request : Option ℚ
  deriving DecidableEq

structure ConfigMeta extends ObjectMeta where
  /-- The label `cache.expbuild.io/purpose`. -/
  purpose : Option String := none
  otherLabels : List (String × String) := []
  deriving DecidableEq
structure ConfigSpec extends ConfigBody where
  binaryData : List String := []
  deriving DecidableEq

/-- A container. Of its environment only the names of ConfigMaps are kept. -/
structure Container extends Cleanup.Container where
  name : String
  image : String
  command : List String := []
  args : List String := []
  requests : List (String × ℚ) := []
  limits : List (String × ℚ) := []
  deriving DecidableEq
/-- A volume of a Pod; a claim goes by the instance that it is named after. -/
structure PodVolume extends Cleanup.Volume where
  name : String
  claim : Option ResourceName := none
  secret : Option (SecretName × List String) := none
  deriving DecidableEq
structure PodSpec where
  containers : List Container
  initContainers : List Container := []
  ephemeralContainers : List Container := []
  volumes : List PodVolume := []
  deriving DecidableEq

structure PodTemplate where
  labels : Labels
  /-- The annotation `config-hash`. -/
  configHash : String
  /-- The annotation `credential-revision`. -/
  credentialRevision : Option Nat := none
  spec : PodSpec
  deriving DecidableEq
structure WorkloadStatus where
  observedGeneration : Nat := 0
  readyReplicas : Nat := 0
  updatedReplicas : Nat := 0
  currentRevision : String := ""
  updateRevision : String := ""
  deriving DecidableEq,Repr
/-- A StatefulSet. -/
structure WorkloadMeta extends ObjectMeta where
  status : WorkloadStatus := {}
  deriving DecidableEq
structure WorkloadSpec where
  replicas : Option Nat
  template : PodTemplate
  deriving DecidableEq

/-- Routes, network policies, monitors and Services, by their names after the
    instance. -/
inductive ChildName where
  | httpRoute | grpcRoute | gatewayPolicy | serviceMonitor | metricsPolicy | service | headless
  deriving DecidableEq,Repr
structure ServicePort where
  name : String
  port : Nat
  appProtocol : Option String := none
  deriving DecidableEq,Repr
/-- The Gateway that a route is attached to. -/
structure ParentRef where
  group : Option String
  kind : Option String
  ns : Option String
  name : String
  sectionName : Option String
  deriving DecidableEq,Repr
structure ServiceMonitor where
  selector : Labels
  ns : Namespace
  port : String
  path : String
  credentials : SecretName
  service : ResourceName
  projectId : ProjectId
  instanceUid : KubeUid
  clusterId : String
  deriving DecidableEq,Repr
inductive ChildSpec where
  | service (selector : Labels) (ports : List ServicePort)
  | route (parent : ParentRef) (host : String) (service : ResourceName) (port : Nat)
  | policy (selector : Labels) (peerNamespace peerLabel : String) (ports : List Nat)
  | monitor (spec : ServiceMonitor)
  deriving DecidableEq,Repr

structure ParentStatus where
  parent : ParentRef
  controllerName : String
  conditions : List Condition
  deriving DecidableEq,Repr
structure ChildMeta extends ObjectMeta where
  /-- The status of a route. -/
  parents : List ParentStatus := []
  deriving DecidableEq

/-! ### What the operator only looks at -/

structure Listener where
  name : String
  protocol : String
  port : Nat
  /-- The TLS settings: the mode, and whether there are certificates. -/
  tls : Option (Option String × Bool)
  deriving DecidableEq,Repr
structure GatewayMeta where
  conditions : List Condition := []
  listeners : List (String × List Condition) := []
  deriving DecidableEq,Repr

inductive Kind where
  | project | cacheInstance | secret | volume | workload | child | config | pod | gateway
  deriving DecidableEq,Repr

namespace Kind

def Name : Kind → Type
  | .project => Namespace
  | .cacheInstance | .volume | .workload => Key
  | .secret => Namespace × SecretName
  | .child => Key × ChildName
  | .config => Namespace × String
  | .pod => Namespace × Nat
  | .gateway => String × String

def Meta : Kind → Type
  | .project => Labels
  | .cacheInstance => InstanceMeta
  | .secret | .pod => ObjectMeta
  | .volume => VolumeMeta
  | .workload => WorkloadMeta
  | .child => ChildMeta
  | .config => ConfigMeta
  | .gateway => GatewayMeta

/-- Of a Secret, the bytes under `htpasswd`. -/
def Spec : Kind → Type
  | .project => Unit
  | .cacheInstance => Contract.Spec
  | .secret => List UInt8
  | .volume => VolumeSpec
  | .workload => WorkloadSpec
  | .child => ChildSpec
  | .config => ConfigSpec
  | .pod => PodSpec
  | .gateway => List Listener

/-- A patch without a lock only ever sets the finalizers of an instance. -/
def Patch : Kind → Type
  | .cacheInstance => Finalizers
  | _ => Empty

/-- Pods and configurations are listed by namespace, and by the label of the instance
    if there is one. -/
def Selector : Kind → Type
  | .pod | .config => Namespace × Option KubeUid
  | _ => Empty

end Kind

/-! ### The scheme -/

def names : (k : Kind) → DecidableEq k.Name
  | .project => inferInstanceAs (DecidableEq Namespace)
  | .cacheInstance | .volume | .workload => inferInstanceAs (DecidableEq Key)
  | .secret => inferInstanceAs (DecidableEq (Namespace × SecretName))
  | .child => inferInstanceAs (DecidableEq (Key × ChildName))
  | .config => inferInstanceAs (DecidableEq (Namespace × String))
  | .pod => inferInstanceAs (DecidableEq (Namespace × Nat))
  | .gateway => inferInstanceAs (DecidableEq (String × String))

def specs : (k : Kind) → DecidableEq k.Spec
  | .project => inferInstanceAs (DecidableEq Unit)
  | .cacheInstance => inferInstanceAs (DecidableEq Contract.Spec)
  | .secret => inferInstanceAs (DecidableEq (List UInt8))
  | .volume => inferInstanceAs (DecidableEq VolumeSpec)
  | .workload => inferInstanceAs (DecidableEq WorkloadSpec)
  | .child => inferInstanceAs (DecidableEq ChildSpec)
  | .config => inferInstanceAs (DecidableEq ConfigSpec)
  | .pod => inferInstanceAs (DecidableEq PodSpec)
  | .gateway => inferInstanceAs (DecidableEq (List Listener))

/-- The finalizers of the operator hold an instance. -/
def held : (k : Kind) → k.Meta → Bool
  | .cacheInstance,(m : InstanceMeta) => decide (m.finalizers ≠ {})
  | _,_ => false

def merge : (k : Kind) → k.Patch → k.Meta → k.Meta
  | .cacheInstance,(p : Finalizers),(m : InstanceMeta) => { m with finalizers := p }
  | .project,p,_ | .secret,p,_ | .volume,p,_ | .workload,p,_ | .child,p,_ | .config,p,_ | .pod,p,_ | .gateway,p,_ => Empty.elim p

/-- The finalizers of one set are among those of another. -/
def among (p q : Finalizers) : Bool := (!p.cleanup || q.cleanup) && (!p.gateway || q.gateway) && (!p.monitoring || q.monitoring)

/-- No finalizer is added to an object that is being deleted. -/
def admits : (k : Kind) → k.Patch → k.Meta → Bool
  | .cacheInstance,(p : Finalizers),(m : InstanceMeta) => among p m.finalizers
  | _,_,_ => true

def inNamespace (select : Namespace × Option KubeUid) (ns : Namespace) (m : Labels) : Bool :=
  decide (ns = select.1) && select.2.all (fun uid => decide (m.instanceUid = some uid))

def selects : (k : Kind) → k.Selector → k.Name → k.Meta → Bool
  | .pod,select,(n : Namespace × Nat),(m : ObjectMeta) => inNamespace select n.1 m.labels
  | .config,select,(n : Namespace × String),(m : ConfigMeta) => inNamespace select n.1 m.labels
  | _,_,_,_ => false

def scheme : Scheme where
  Kind := Kind
  Name := Kind.Name
  Meta := Kind.Meta
  Spec := Kind.Spec
  Patch := Kind.Patch
  Selector := Kind.Selector
  -- a probe of the running engine
  Outside := Key
  kinds := inferInstance
  names := names
  specs := specs
  held := held
  merge := merge
  admits := admits
  selects := selects

abbrev Instance := Item scheme Kind.cacheInstance
abbrev Secret := Item scheme Kind.secret
abbrev Volume := Item scheme Kind.volume
abbrev Workload := Item scheme Kind.workload
abbrev Child := Item scheme Kind.child
abbrev ConfigMap := Item scheme Kind.config
abbrev Pod := Item scheme Kind.pod
abbrev Gateway := Item scheme Kind.gateway

end Expbuild.Kinds
