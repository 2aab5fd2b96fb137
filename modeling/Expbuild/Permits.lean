import Expbuild.Guarantees
import Expbuild.Reconciler

/-!
What a pass of the operator has seen before it writes. Every write comes with its
evidence: which instance the pass works on, what it read of the object that it writes,
and what else it looked at. `permit` says what a pass may request after a given past.
-/
namespace Expbuild.Permits
open Expbuild.Contract Expbuild.Programs Expbuild.Clusters Expbuild.Guarantees Expbuild.Kinds Expbuild.Adapters Expbuild.Exposures
  Expbuild.Reconciler
open Expbuild.Calls (Key)
open Expbuild.Cleanup (controllerOf)

abbrev Past := Controllers.Past scheme
abbrev Happened := Event (Request.Answer (S := scheme))

/-! ### Evidence -/

section
variable (past : Past)

def Read (k : Kind) (n : k.Name) (e : Item scheme k) : Prop := (⟨Request.get k n,.ok e⟩ : Happened) ∈ past
def Absent (k : Kind) (n : k.Name) : Prop := (⟨Request.get k n,.error .notFound⟩ : Happened) ∈ past
def Listed (k : Kind) (select : k.Selector) (es : List (Item scheme k)) : Prop := (⟨Request.list k select,.ok es⟩ : Happened) ∈ past

/-- What the pass found. -/
def Found (k : Kind) (n : k.Name) : Option (Item scheme k) → Prop
  | some e => Read past k n e
  | none => Absent past k n

/-- Nothing that is named after an instance was created yet. -/
def Unexposed : Prop := ∀ n m s x, (⟨Request.create Kind.child n m s,x⟩ : Happened) ∉ past

/-- The instance that a pass works on is what it read first, and its namespace belongs
    to the project of the instance. -/
structure Works (key : Key) (c : Instance) : Prop where
  first : [(⟨Request.get Kind.cacheInstance key,.ok c⟩ : Happened)] <:+ past
  project : ∃ ns : Item scheme Kind.project, Read past .project key.1 ns ∧ ns.metadata.managed = true ∧
    ns.metadata.projectId = some c.spec.projectId

end

section
variable (t : Toolkit) (codec : Codec) (settings : Settings) (past : Past) (c : Instance)

/-- The instance is bound to the images of the adapter. -/
def Bound (a : Adapter) : Prop := ∃ binding, c.metadata.status.imageBinding = some binding ∧ trustedBinding c binding = .ok a

/-- The workload that was found and the Pods that were listed run these images. -/
structure Vetted (sts : Option Workload) (images : Images) : Prop where
  found : Found past .workload c.key sts
  matching : ∀ s ∈ sts, ownedWorkload c s = true ∧ matchesImages s images = true
  pods : ∃ pods, Listed past .pod (c.key.1,none) pods ∧ ∀ pod ∈ pods, objection c sts images pod = none

/-- The images in the record of a retained volume. -/
structure Recovered (a : Adapter) (claim : Reclaim) (pvc : Volume) (record : ConfigMap) (receipt : RetainedImages) : Prop where
  asked : c.spec.storage.reclaim = some claim
  volume : claim.previousInstanceUID ≠ c.uid ∧ claim.volumeUID = pvc.uid
  named : ∃ name, pvc.metadata.retainedImagesName = some name ∧ pvc.metadata.retainedImagesUid = some record.uid ∧
    ∃ before, ⟨Request.get Kind.config (c.key.1,name),.ok record⟩ :: before <:+ past ∧ Read before .volume c.key pvc
  genuine : record.spec.immutable = some true ∧ record.metadata.owners = [] ∧
    record.metadata.labels.instanceUid = some claim.previousInstanceUID ∧ record.metadata.purpose = some purpose
  content : record.spec.data.length = 1 ∧ codec.unmarshal ((record.spec.data.lookup "binding.json").getD "") = some receipt
  matching : receipt.volumeUid = claim.volumeUID ∧ receipt.binding.instanceUid = claim.previousInstanceUID ∧
    receipt.binding.templateRef = refOf c
  images : bind_ receipt.binding.templateRef receipt.binding.images = .ok a

/-- Where the images of a binding come from. -/
inductive Origin (sts : Option Workload) (a : Adapter) : Prop where
  | approved (fresh : c.spec.storage.reclaim = none) (resolved : resolve (refOf c) settings.approved = .ok a)
      (new : sts = none → c.spec.pinned = true ∧ Absent past .volume c.key)
  | retained {claim : Reclaim} {pvc : Volume} {record : ConfigMap} {receipt : RetainedImages}
      (recovered : Recovered codec past c a claim pvc record receipt)

/-- What a pass applies is rendered from the instance that it read, with the images that
    the instance was bound to and the credentials of its Secret. -/
structure Provided (a : Adapter) (secret : Secret) (objects : List Desired) : Prop where
  alive : c.deleting = false
  active : suspended c = false
  bound : Bound c a
  vetted : ∃ sts, Vetted past c sts a.images
  rendered : a.render t c c.spec.eviction.enginePolicy = .ok objects
  read : Read past .secret (c.key.1,c.spec.access.credentialsSecretRef) secret
  credentials : secret.metadata.labels.instanceId = some c.spec.instanceId ∧
    secret.metadata.labels.projectId = some c.spec.projectId ∧ List.length secret.spec ≠ 0

/-- An object that a pass applies: of the cache itself, or for access from outside or
    for metrics, under the finalizer that keeps track of it. -/
inductive Wanted (d : Desired) : Prop where
  | cache {a : Adapter} {secret : Secret} {objects : List Desired} (provided : Provided t past c a secret objects)
      (member : d ∈ prepared c secret objects)
  | gateway {g : GatewayConfig} {objects : List Desired} (set : settings.gateway = some g) (alive : c.deleting = false)
      (asked : exposed c = true ∧ running c = true)
      (held : c.metadata.finalizers.cleanup = true ∧ c.metadata.finalizers.gateway = true)
      (rendered : g.render t.library c = .ok objects) (member : d ∈ objects.map (control c))
      (bound : ∃ a, Bound c a)
  | monitoring {m : MonitoringConfig} {objects : List Desired} (alive : c.deleting = false)
      (asked : monitored settings c = some m)
      (held : c.metadata.finalizers.cleanup = true ∧ c.metadata.finalizers.monitoring = true)
      (rendered : m.render t.library c = .ok objects) (member : d ∈ objects.map (control c))
      (bound : ∃ a, Bound c a)

/-- An object was created, or an owned one was found as it should be or made so. -/
inductive Put (k : Kind) (n : k.Name) (m : k.Meta) (s : k.Spec) (update : Item scheme k → Except String (Option k.Spec)) : Prop where
  | created (done : (⟨Request.create k n m s,.ok ()⟩ : Happened) ∈ past)
  | found {e : Item scheme k} {next : Option k.Spec} (read : Read past k n e)
      (own : (identity k e.metadata).labels.instanceUid = (identity k m).labels.instanceUid) (updated : update e = .ok next)
      (settled : ∀ s', next = some s' → s' = e.spec ∨ (⟨Request.patch k n e.version e.metadata s',.ok ()⟩ : Happened) ∈ past)

def InPlace : Desired → Prop
  | .volume n m s => Put past .volume n m s (updateVolume s)
  | .config n m s => Put past .config n m s (updateConfig s)
  | .child n m s => Put past .child n m s (fun _ => .ok (some s))
  | .workload n m s => Put past .workload n m s (updateWorkload s)

/-- The Gateway and the routes were found as they should be. -/
structure Reachable (g : GatewayConfig) : Prop where
  gateway : ∃ gateway : Gateway, Read past .gateway (g.ns,g.name) gateway ∧ g.ready gateway = true
  routes : ∃ objects, g.render t.library c = .ok objects ∧ ∀ n m parent host service port,
    Desired.child n m (.route parent host service port) ∈ objects →
      ∃ route, Read past .child n route ∧ routeReady g c (.route parent host service port) route = true

/-- What was verified before an instance is reported as ready. -/
structure Verified (a : Adapter) (secret : Secret) (objects : List Desired) (sts : Workload) (x : Applied) : Prop where
  provided : Provided t past c a secret objects
  applied : ∀ d ∈ prepared c secret objects, InPlace past d
  observed : ∃ before, ⟨Request.get Kind.workload c.key,.ok sts⟩ :: before <:+ past ∧
    ∀ n m s, Desired.workload n m s ∈ prepared c secret objects → Knows Kind.workload n s before
  rollout : rolledOut sts = true
  volume : ∃ pvc, Read past .volume c.key pvc ∧ pvc.metadata.phase = "Bound"
  probe : (⟨Request.outside c.key,.ok ()⟩ : Happened) ∈ past
  reachable : exposed c = true → ∃ g, settings.gateway = some g ∧ Reachable t past c g ∧ x.endpoints = g.endpoints c
  hash : x.configHash = sts.spec.template.configHash
  revision : x.credentialRevision = secret.version

/-- What was verified before an instance is reported as suspended. -/
structure Stopped : Prop where
  asked : suspended c = true
  workload : Absent past .workload c.key ∨ ∃ sts, Read past .workload c.key sts ∧ ownedWorkload c sts = true ∧
    (scaled sts = true ∨
      (⟨Request.patch Kind.workload c.key sts.version sts.metadata { sts.spec with replicas := some 0 },.ok ()⟩ : Happened) ∈ past)
  pods : Listed past .pod (c.key.1,some c.uid) []

/-! ### Writes -/

/-- The finalizers that a pass sets without a lock. -/
inductive Marks : Finalizers → Prop where
  | first (new : c.metadata.finalizers.cleanup = false) : Marks { c.metadata.finalizers with cleanup := true }
  | monitor (held : c.metadata.finalizers.cleanup = true) : Marks { c.metadata.finalizers with monitoring := true }
  | expose (held : c.metadata.finalizers.cleanup = true) : Marks { c.metadata.finalizers with gateway := true }
  | unmonitor (held : c.metadata.finalizers.cleanup = true) (ended : monitored settings c = none)
      (gone : ∀ name ∈ monitoringChildren, Absent past .child (c.key,name)) : Marks { c.metadata.finalizers with monitoring := false }
  | withdraw (held : c.metadata.finalizers.cleanup = true) (ended : exposed c = false ∨ suspended c = true)
      (gone : ∀ name ∈ gatewayChildren, Absent past .child (c.key,name)) : Marks { c.metadata.finalizers with gateway := false }

/-- What a pass saw before it lets an instance go. -/
structure Released : Prop where
  deleting : c.deleting = true
  held : c.metadata.finalizers.cleanup = true
  gateway : c.metadata.finalizers.gateway = true → ∀ name ∈ gatewayChildren, Absent past .child (c.key,name)
  monitoring : c.metadata.finalizers.monitoring = true → ∀ name ∈ monitoringChildren, Absent past .child (c.key,name)
  workload : Absent past .workload c.key ∨ ∃ sts, Read past .workload c.key sts ∧ ownedWorkload c sts = true ∧ scaled sts = true
  pods : Listed past .pod (c.key.1,some c.uid) []
  volume : Absent past .volume c.key ∨ c.spec.storage.deletionPolicy = .retain

inductive InstanceWrite : Key → Nat → InstanceMeta → Spec → Prop where
  /-- `resolveImageBinding` -/
  | bound {sts : Option Workload} {a : Adapter} {objects : List Desired} (alive : c.deleting = false)
      (unbound : c.metadata.status.imageBinding = none) (origin : Origin codec settings past c sts a)
      (vetted : Vetted past c sts a.images) (rendered : a.render t c c.spec.eviction.enginePolicy = .ok objects) :
      InstanceWrite c.key c.version
        { c.metadata with status := { c.metadata.status with imageBinding := some (bindingOf c a) } } c.spec
  /-- `report` -/
  | reported {conditions : List Condition} {current : Instance} {applied : Option Applied} {reason : String}
      (alive : c.deleting = false) (read : Read past .cacheInstance c.key current)
      (same : current.generation = c.generation ∧ current.uid = c.uid)
      (ready : ∀ x, applied = some x → ∃ a secret objects sts, Verified t settings past c a secret objects sts x)
      (stopped : reason = "Suspended" → Stopped past c) :
      InstanceWrite c.key current.version
        { current.metadata with status := reported ⟨c,conditions⟩ current.metadata.status applied reason } current.spec
  /-- `finalize` -/
  | released (released : Released past c) : InstanceWrite c.key c.version { c.metadata with finalizers := {} } c.spec

inductive VolumeWrite : Key → Nat → VolumeMeta → VolumeSpec → Prop where
  /-- `apply` -/
  | grown {pvc : Volume} {m : VolumeMeta} {d s : VolumeSpec} (wanted : Wanted t settings past c (.volume c.key m d))
      (read : Read past .volume c.key pvc) (own : pvc.metadata.labels.instanceUid = some c.uid)
      (updated : updateVolume d pvc = .ok (some s)) : VolumeWrite c.key pvc.version pvc.metadata s
  /-- `reclaimVolume` -/
  | reclaimed {pvc : Volume} {claim : Reclaim} {pods : List Pod} (alive : c.deleting = false)
      (asked : c.spec.storage.reclaim = some claim) (other : claim.previousInstanceUID ≠ c.uid) (read : Read past .volume c.key pvc)
      (reclaimable : reclaimable c claim pvc) (class_ : pvc.spec.storageClassName = some c.spec.storage.className)
      (modes : pvc.spec.accessModes = ["ReadWriteOnce"]) (fits : fits t c pvc = true)
      (former : pvc.metadata.labels.instanceUid = some claim.previousInstanceUID)
      (marker : c.metadata.annotations.reclaimBoundUid = some c.uid) (listed : Listed past .pod (c.key.1,none) pods)
      (unmounted : pods.any (mounts c) = false) : VolumeWrite c.key pvc.version (transferred c claim pvc) pvc.spec
  /-- `retainImages` -/
  | recorded {pvc : Volume} {binding : ImageBinding} {a : Adapter} {record : ConfigMap} (deleting : c.deleting = true)
      (retain : c.spec.storage.deletionPolicy = .retain) (read : Read past .volume c.key pvc)
      (own : pvc.metadata.labels.instanceUid = some c.uid) (bound : c.metadata.status.imageBinding = some binding)
      (trusted : trustedBinding c binding = .ok a)
      (seen : Read past .config (c.key.1,codec.recordName c.uid pvc.uid) record)
      (intact : intact record (recordMeta c) (recordSpec codec (receiptOf c pvc binding)) = true) :
      VolumeWrite c.key pvc.version
        { pvc.metadata with retainedImagesName := some (codec.recordName c.uid pvc.uid), retainedImagesUid := some record.uid }
        pvc.spec

inductive WorkloadWrite : Key → Nat → WorkloadMeta → WorkloadSpec → Prop where
  /-- `suspendBoundWorkload`, `finalize` -/
  | stopped {sts : Workload} (why : c.deleting = true ∨ suspended c = true) (read : Read past .workload c.key sts)
      (owned : ownedWorkload c sts = true) : WorkloadWrite c.key sts.version sts.metadata { sts.spec with replicas := some 0 }
  /-- `apply` -/
  | applied {sts : Workload} {m : WorkloadMeta} {d s : WorkloadSpec} (wanted : Wanted t settings past c (.workload c.key m d))
      (read : Read past .workload c.key sts) (own : sts.metadata.labels.instanceUid = some c.uid)
      (updated : updateWorkload d sts = .ok (some s)) : WorkloadWrite c.key sts.version sts.metadata s

inductive ChildWrite : Key × ChildName → Nat → ChildMeta → ChildSpec → Prop where
  | applied {name : ChildName} {e : Child} {m : ChildMeta} {s : ChildSpec} (wanted : Wanted t settings past c (.child (c.key,name) m s))
      (read : Read past .child (c.key,name) e) (own : e.metadata.labels.instanceUid = some c.uid) :
      ChildWrite (c.key,name) e.version e.metadata s

inductive Creates : (k : Kind) → k.Name → k.Meta → k.Spec → Prop where
  | volume {m : VolumeMeta} {s : VolumeSpec} (wanted : Wanted t settings past c (.volume c.key m s)) : Creates .volume c.key m s
  | config {name : String} {m : ConfigMeta} {s : ConfigSpec} (wanted : Wanted t settings past c (.config (c.key.1,name) m s)) :
      Creates .config (c.key.1,name) m s
  | child {name : ChildName} {m : ChildMeta} {s : ChildSpec} (wanted : Wanted t settings past c (.child (c.key,name) m s)) :
      Creates .child (c.key,name) m s
  | workload {m : WorkloadMeta} {s : WorkloadSpec} (wanted : Wanted t settings past c (.workload c.key m s)) :
      Creates .workload c.key m s
  /-- `retainImages` -/
  | record {pvc : Volume} {binding : ImageBinding} {a : Adapter} (deleting : c.deleting = true) (read : Read past .volume c.key pvc)
      (own : pvc.metadata.labels.instanceUid = some c.uid) (bound : c.metadata.status.imageBinding = some binding)
      (trusted : trustedBinding c binding = .ok a) :
      Creates .config (c.key.1,codec.recordName c.uid pvc.uid) (recordMeta c) (recordSpec codec (receiptOf c pvc binding))

/-- A configuration that nothing refers to. -/
structure Unused (sts : Workload) (config : ConfigMap) : Prop where
  workload : Read past .workload c.key sts
  listed : ∃ configs, Listed past .config (c.key.1,some c.uid) configs ∧ config ∈ configs
  template : ¬Cleanup.Refers (references sts.spec.template.spec) config.key.2
  pods : ∃ pods, Listed past .pod (c.key.1,none) pods ∧ ∀ pod ∈ pods, ¬Cleanup.Refers (references pod.spec) config.key.2
  owned : config.spec.immutable = some true ∧ ∃ owner, controllerOf config.metadata.owners = some owner ∧ owner.uid = c.uid
  /-- The workload was looked at again. -/
  still : ∃ latest, Read past .workload sts.key latest ∧ latest.uid = sts.uid ∧ latest.version = sts.version

inductive Deletes : (k : Kind) → k.Name → Nat → Option Nat → Prop where
  /-- `removeGateway`, `removeMonitoring` -/
  | exposed {name : ChildName} {e : Child} (tracked : name ∈ gatewayChildren ∨ name ∈ monitoringChildren)
      (read : Read past .child (c.key,name) e) (own : e.metadata.labels.instanceUid = some c.uid) :
      Deletes .child (c.key,name) e.uid (some e.version)
  /-- `finalize` -/
  | service {name : ChildName} {e : Child} (deleting : c.deleting = true) (read : Read past .child (c.key,name) e)
      (own : e.metadata.labels.instanceUid = some c.uid) : Deletes .child (c.key,name) e.uid none
  | volume {pvc : Volume} (deleting : c.deleting = true) (policy : c.spec.storage.deletionPolicy = .delete)
      (read : Read past .volume c.key pvc) (own : pvc.metadata.labels.instanceUid = some c.uid)
      (pods : Listed past .pod (c.key.1,some c.uid) []) : Deletes .volume c.key pvc.uid none
  /-- `cleanupConfigs` -/
  | config {sts : Workload} {config : ConfigMap} (unused : Unused past c sts config) :
      Deletes .config config.key config.uid (some config.version)

end

/-- What a pass may request after a past. -/
def permit (t : Toolkit) (codec : Codec) (key : Key) (settings : Settings) (past : Past) : Request scheme → Prop
  | .get _ _ | .list _ _ | .outside _ => True
  | .create k n m s => ∃ c, Works past key c ∧ Creates t codec settings past c k n m s
  | .patch .cacheInstance n version m s => ∃ c, Works past key c ∧ InstanceWrite t codec settings past c n version m s
  | .patch .volume n version m s => ∃ c, Works past key c ∧ VolumeWrite t codec settings past c n version m s
  | .patch .workload n version m s => ∃ c, Works past key c ∧ WorkloadWrite t settings past c n version m s
  | .patch .child n version m s => ∃ c, Works past key c ∧ ChildWrite t settings past c n version m s
  | .patch _ _ _ _ _ => False
  | .merge .cacheInstance n p => ∃ c, Works past key c ∧ c.deleting = false ∧ n = c.key ∧ Marks settings past c p ∧ Unexposed past
  | .merge _ _ _ => False
  | .delete k n uid version => ∃ c, Works past key c ∧ Deletes past c k n uid version

/-! ### What was seen stays seen -/

section
variable {t : Toolkit} {codec : Codec} {settings : Settings} {past later : Past} {key : Key} {c : Instance} {k : Kind} {n : k.Name}

theorem Found.mono {e : Option (Item scheme k)} (after : past <:+ later) (found : Found past k n e) : Found later k n e := by
  cases e with
  | none => exact after.subset found
  | some e => exact after.subset found

theorem Works.mono (after : past <:+ later) (works : Works past key c) : Works later key c := by
  obtain ⟨ns,read,own⟩ := works.project
  exact ⟨works.first.trans after,ns,after.subset read,own⟩

theorem Vetted.mono {sts : Option Workload} {images : Images} (after : past <:+ later) (vetted : Vetted past c sts images) :
    Vetted later c sts images := by
  obtain ⟨pods,listed,silent⟩ := vetted.pods
  exact ⟨vetted.found.mono after,vetted.matching,pods,after.subset listed,silent⟩

theorem Recovered.mono {a : Adapter} {claim : Reclaim} {pvc : Volume} {record : ConfigMap} {receipt : RetainedImages} (after : past <:+ later)
    (recovered : Recovered codec past c a claim pvc record receipt) : Recovered codec later c a claim pvc record receipt := by
  obtain ⟨name,named,uid,before,inside,read⟩ := recovered.named
  exact ⟨recovered.asked,recovered.volume,⟨name,named,uid,before,inside.trans after,read⟩,recovered.genuine,recovered.content,
    recovered.matching,recovered.images⟩

theorem Origin.mono {sts : Option Workload} {a : Adapter} (after : past <:+ later) (origin : Origin codec settings past c sts a) :
    Origin codec settings later c sts a := by
  cases origin with
  | approved fresh resolved new =>
    refine .approved fresh resolved (fun missing => ?_)
    obtain ⟨pinned,absent⟩ := new missing
    exact ⟨pinned,after.subset absent⟩
  | retained recovered => exact .retained (recovered.mono after)

theorem Provided.mono {a : Adapter} {secret : Secret} {objects : List Desired} (after : past <:+ later)
    (provided : Provided t past c a secret objects) : Provided t later c a secret objects := by
  obtain ⟨sts,vetted⟩ := provided.vetted
  exact ⟨provided.alive,provided.active,provided.bound,⟨sts,vetted.mono after⟩,provided.rendered,after.subset provided.read,
    provided.credentials⟩

theorem Wanted.mono {d : Desired} (after : past <:+ later) (wanted : Wanted t settings past c d) : Wanted t settings later c d := by
  cases wanted with
  | cache provided member => exact .cache (provided.mono after) member
  | gateway set alive asked held rendered member bound => exact .gateway set alive asked held rendered member bound
  | monitoring alive asked held rendered member bound => exact .monitoring alive asked held rendered member bound

theorem Put.mono {m : k.Meta} {s : k.Spec} {update : Item scheme k → Except String (Option k.Spec)} (after : past <:+ later)
    (put : Put past k n m s update) : Put later k n m s update := by
  cases put with
  | created done => exact .created (after.subset done)
  | found read own updated settled =>
    refine .found (after.subset read) own updated (fun s' next => ?_)
    rcases settled s' next with same | done
    · exact .inl same
    · exact .inr (after.subset done)

theorem InPlace.mono {d : Desired} (after : past <:+ later) (inPlace : InPlace past d) : InPlace later d := by
  cases d with
  | volume n m s => exact Put.mono after inPlace
  | config n m s => exact Put.mono after inPlace
  | child n m s => exact Put.mono after inPlace
  | workload n m s => exact Put.mono after inPlace

theorem Reachable.mono {g : GatewayConfig} (after : past <:+ later) (reachable : Reachable t past c g) : Reachable t later c g := by
  obtain ⟨gateway,read,ready⟩ := reachable.gateway
  obtain ⟨objects,rendered,routes⟩ := reachable.routes
  refine ⟨⟨gateway,after.subset read,ready⟩,objects,rendered,fun n m parent host service port member => ?_⟩
  obtain ⟨route,found,accepted⟩ := routes n m parent host service port member
  exact ⟨route,after.subset found,accepted⟩

theorem Verified.mono {a : Adapter} {secret : Secret} {objects : List Desired} {sts : Workload} {x : Applied} (after : past <:+ later)
    (verified : Verified t settings past c a secret objects sts x) : Verified t settings later c a secret objects sts x := by
  obtain ⟨before,inside,knows⟩ := verified.observed
  obtain ⟨pvc,read,phase⟩ := verified.volume
  refine ⟨verified.provided.mono after,fun d member => (verified.applied d member).mono after,⟨before,inside.trans after,knows⟩,
    verified.rollout,⟨pvc,after.subset read,phase⟩,after.subset verified.probe,fun asked => ?_,verified.hash,verified.revision⟩
  obtain ⟨g,set,reachable,endpoints⟩ := verified.reachable asked
  exact ⟨g,set,reachable.mono after,endpoints⟩

theorem Stopped.mono (after : past <:+ later) (stopped : Stopped past c) : Stopped later c := by
  refine ⟨stopped.asked,?_,after.subset stopped.pods⟩
  rcases stopped.workload with absent | ⟨sts,read,owned,down⟩
  · exact .inl (after.subset absent)
  · exact .inr ⟨sts,after.subset read,owned,down.imp_right (fun done => after.subset done)⟩

end
end Expbuild.Permits
