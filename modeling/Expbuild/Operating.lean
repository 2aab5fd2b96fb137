import Expbuild.Headroom
import Expbuild.Permissions

/-!
The operator at work: passes for any number of instances, with any settings, while
anybody else changes the cluster between any two requests, answers get lost and the
process ends anywhere. Whatever takes effect was permitted, and met what the pass had
read (`deed_permitted`, `patch_meets`).

Two results need nothing from anybody else: a pass only writes what goes by the name of
its own instance, in a namespace of its project, and carries its UID (`writes_own`); and a
claim is treated with all the care that its data deserve (`volumes_safe`).
-/
namespace Expbuild.Operating
open Expbuild.Contract Expbuild.Objects Expbuild.Programs Expbuild.Runs Expbuild.Clusters Expbuild.Controllers Expbuild.Guarantees
  Expbuild.Kinds Expbuild.Adapters Expbuild.Reconciler Expbuild.Permits Expbuild.Permissions
open Expbuild.Calls (Key)

/-- The passes of the operator, by the key of the instance and the settings that the
    process was started with. -/
def operator (t : Toolkit) (codec : Codec) (tag : Key × Settings) : Io Unit := reconcile t codec tag.2 tag.1

abbrev Operators (t : Toolkit) (codec : Codec) := System (operator t codec)
abbrev OperatorDeed := Deed scheme Key Settings

/-- A run of the operator among others who keep to a rule. -/
abbrev Operates (t : Toolkit) (codec : Codec) (rely : Cluster scheme → Cluster scheme → Prop) (a s : Operators t codec) : Prop :=
  Start (operator t codec) a ∧ Reaches (step (operator t codec)) (Orderly (operator t codec) rely) a s

/-! ### An instance that is deleted with its data -/

/-- The cluster that requests make of an empty one. -/
def populated (requests : List (Request scheme)) : Cluster scheme :=
  requests.foldl (fun c r => (perform .delivered r c).1) (fun _ => {})

theorem populated_wf (requests : List (Request scheme)) (k : scheme.Kind) : Wf (populated requests k) := by
  have grows : ∀ c : Cluster scheme, (∀ k, Wf (c k)) → ∀ k, Wf (requests.foldl (fun c r => (perform .delivered r c).1) c k) := by
    induction requests with
    | nil => exact fun c wf => wf
    | cons r rest ih => exact fun c wf => ih _ (fun k => (wf k).step ((perform_outcome rfl).steps wf k))
  exact grows _ (fun _ => Wf.empty) k

/-- Nobody else does anything. -/
def undisturbed {t : Toolkit} {codec : Codec} (_ : Operators t codec) : Label scheme Key Settings → Bool
  | .others _ => false
  | _ => true

theorem orderly_undisturbed {t : Toolkit} {codec : Codec} {rely : Cluster scheme → Cluster scheme → Prop} {s : Operators t codec}
    {l : Label scheme Key Settings} (alone : undisturbed s l = true) : Orderly (operator t codec) rely s l := by
  cases l with
  | others after => cases alone
  | start key config => trivial
  | run key fault => trivial
  | stop key => trivial

def toolkit : Toolkit where
  library := { Headroom.library with parseQuantity := fun text => if text = "1" then some 1 else Headroom.library.parseQuantity text }
  sha256 := fun text => text
  ns := fun _ => "project"
  name := fun _ => "cache"
  instanceId := fun _ => "id"
  projectId := fun _ => "id"
  secret := fun _ => "auth"
  httpdConf := ""

def image : String := "registry/cache@sha256:" ++ String.ofList (List.replicate 64 '0')

def records : Codec where
  recordName := fun uid volume => "images-" ++ toString uid ++ "-" ++ toString volume
  marshal := fun record => toString record.instanceId
  unmarshal := fun _ => none

def discardedKey : Key := (⟨1⟩,⟨1⟩)
def discardedSpec : Spec where
  instanceId := 1
  projectId := 1
  pinned := true
  templateName := .nxHttp
  templateVersion := .v010
  desiredState := .running
  storage := ⟨"standard","2Gi",.delete,none⟩
  access := ⟨.clusterInternal,.initial 1,none⟩
  eviction := ⟨1,.lru⟩
  requests := {}
  limits := {}
def discardedLabels : Labels := { labels 1 (some 1) with instanceUid := some 0 }
def discardedBinding : ImageBinding := ⟨"v1",0,⟨.nxHttp,.v010⟩,Finmap.singleton "cache" "nx"⟩

/-- A deleted instance with its workload and its claim. -/
def discarding : Operators toolkit records where
  cluster := populated [
    .create Kind.project (⟨1⟩ : Namespace) (labels 1 : Labels) (),
    .create Kind.cacheInstance discardedKey
      ({ labels := labels 1 (some 1), finalizers := { cleanup := true }, status := { imageBinding := some discardedBinding } } : InstanceMeta)
      discardedSpec,
    .create Kind.workload discardedKey
      ({ labels := discardedLabels, owners := [⟨Cleanup.groupVersion,"CacheInstance",⟨1⟩,0,some true⟩] } : WorkloadMeta)
      (⟨some 1,{ labels := discardedLabels, configHash := "", spec := { containers := [] } }⟩ : WorkloadSpec),
    .create Kind.volume discardedKey ({ labels := discardedLabels } : VolumeMeta)
      (⟨some "standard",["ReadWriteOnce"],some 2147483648⟩ : VolumeSpec),
    .delete Kind.cacheInstance discardedKey 0 none]

theorem discarding_start : Start (operator toolkit records) discarding := ⟨populated_wf _,rfl,rfl,rfl⟩

/-- The first pass stops the workload, the second one deletes the claim. -/
def discards : List (Label scheme Key Settings) :=
  let settings : Settings := ⟨{},none,none,false⟩
  .start discardedKey settings :: List.replicate 6 (.run discardedKey .delivered) ++
    .stop discardedKey :: .start discardedKey settings :: List.replicate 8 (.run discardedKey .delivered)

def stopsWorkload (d : OperatorDeed) : Bool :=
  match d.request with
  | .patch .workload _ _ _ _ => true
  | _ => false
def removesVolume (d : OperatorDeed) : Bool :=
  match d.request with
  | .delete .volume _ _ _ => true
  | _ => false

theorem stopsWorkload_touches {d : OperatorDeed} (stops : stopsWorkload d = true) : ∃ n : Key, Touches (S := scheme) Kind.workload n d.request := by
  unfold stopsWorkload at stops
  split at stops
  · rename_i n version metadata spec request
    exact ⟨n,request ▸ .patch version metadata spec⟩
  · cases stops

theorem removesVolume_touches {d : OperatorDeed} (removes : removesVolume d = true) : ∃ n : Key, Touches (S := scheme) Kind.volume n d.request := by
  unfold removesVolume at removes
  split at removes
  · rename_i n uid version request
    exact ⟨n,request ▸ .delete uid version⟩
  · cases removes

/-- The run, whatever is asked of others. -/
theorem discards_reached (rely : Cluster scheme → Cluster scheme → Prop) : ∃ s, Operates toolkit records rely discarding s ∧
    (∃ d ∈ s.deeds, ∃ n : Key, Touches (S := scheme) Kind.workload n d.request) ∧
    ∃ d ∈ s.deeds, ∃ n : Key, Touches (S := scheme) Kind.volume n d.request := by
  have ends : (run (step (operator toolkit records)) undisturbed discards discarding).any
      (fun s => s.deeds.any stopsWorkload && s.deeds.any removesVolume) = true := by decide +kernel
  obtain ⟨s,reached,did⟩ := reaches_of_run (fun _ _ alone => orderly_undisturbed alone) ends
  obtain ⟨stops,removes⟩ := Bool.and_eq_true_iff.mp did
  obtain ⟨d,member,stops⟩ := List.any_eq_true.mp stops
  obtain ⟨d',member',removes⟩ := List.any_eq_true.mp removes
  exact ⟨s,⟨discarding_start,reached⟩,⟨d,member,stopsWorkload_touches stops⟩,⟨d',member',removesVolume_touches removes⟩⟩

/-! ### What is known of a deed -/

instance (k : Kind) : DecidableEq (scheme.Name k) := scheme.names k

section
variable {t : Toolkit} {codec : Codec} {rely : Cluster scheme → Cluster scheme → Prop} {a s : Operators t codec} {d : OperatorDeed}
  {k : Kind} {n : k.Name}

theorem deed_sound (runs : Operates t codec rely a s) (member : d ∈ s.deeds) : Sound (operator t codec) d :=
  deeds_sound runs.1 runs.2 d member

theorem deed_permitted (sound : Sound (operator t codec) d) : permit t codec d.key d.config d.past d.request :=
  sound.licensed (reconcile_permitted t codec d.config d.key)

/-- The instance that a pass works on is one that there was under its key. -/
theorem works_on (sound : Sound (operator t codec) d) {c : Instance} (works : Works d.past d.key c) :
    c.key = d.key ∧ c ∈ (d.before Kind.cacheInstance).past := by
  obtain ⟨was,key⟩ := sound.real.got Kind.cacheInstance d.key c (works.first.subset (List.mem_singleton_self _))
  exact ⟨key,was⟩

/-- A write under an optimistic lock meets the object that was read. -/
theorem served_meets {e : Item scheme k} {m : k.Meta} {spec : k.Spec} (wf : ∀ k, Wf (d.before k)) (real : Controllers.Real d.past d.before)
    (served : ∃ after v, Served d.before d.request after v) (request : d.request = Request.patch k n e.version m spec)
    (read : Read d.past k n e) : d.before.at_ k n = some e := by
  rw [request] at served
  obtain ⟨after,v,served⟩ := served
  generalize version : e.version = number at served
  cases served with
  | patched _ _ present =>
    rw [real.current wf read present version.symm] at present
    exact present

theorem patch_meets (sound : Sound (operator t codec) d) {e : Item scheme k} {m : k.Meta} {spec : k.Spec}
    (request : d.request = Request.patch k n e.version m spec) (read : Read d.past k n e) : d.before.at_ k n = some e :=
  served_meets sound.stores sound.real sound.served request read

/-- A deletion meets an object with the identity that it expects. -/
theorem delete_meets (sound : Sound (operator t codec) d) {uid : Nat} {version : Option Nat}
    (request : d.request = Request.delete k n uid version) :
    ∃ e, d.before.at_ k n = some e ∧ e.uid = uid ∧ ∀ v, version = some v → v = e.version := by
  have served := sound.served
  rw [request] at served
  obtain ⟨after,v,served⟩ := served
  cases served with
  | deleted _ present current => exact ⟨_,present,rfl,current⟩

/-- A creation meets nothing. -/
theorem create_meets (sound : Sound (operator t codec) d) {m : k.Meta} {spec : k.Spec}
    (request : d.request = Request.create k n m spec) : d.before.at_ k n = none := by
  have served := sound.served
  rw [request] at served
  obtain ⟨after,v,served⟩ := served
  cases served with
  | created _ _ absent => exact absent

/-! ### Whose objects a pass writes -/

/-- What goes by the name of an instance. -/
def Own (key : Key) : (k : Kind) → k.Name → Prop
  | .cacheInstance,(n : Key) | .volume,(n : Key) | .workload,(n : Key) => n = key
  | .child,(n : Key × ChildName) => n.1 = key
  | .config,(n : Namespace × String) => n.1 = key.1
  | _,_ => False

/-- The object carries the UID of the instance, or it is the volume that the instance
    reclaims from another. -/
def Carries (c : Instance) (k : Kind) (m : k.Meta) : Prop :=
  (identity k m).labels.instanceUid = some c.uid ∨
    k = .volume ∧ ∃ claim, c.spec.storage.reclaim = some claim ∧ (identity k m).labels.instanceUid = some claim.previousInstanceUID

/-- The write of a pass is on the name of its instance, and if it meets anything but the
    instance itself, it meets what the pass had seen carry the UID of the instance. -/
structure Rightful (d : OperatorDeed) (c : Instance) (k : Kind) (n : k.Name) : Prop where
  works : Works d.past d.key c
  own : Own d.key k n
  carries : k ≠ .cacheInstance → ∀ e, d.before.at_ k n = some e → ∃ e' ∈ (d.before k).past, e'.uid = e.uid ∧ Carries c k e'.metadata

/-- Whatever others do, a pass writes nothing but what belongs to its own instance, in a
    namespace that belongs to the project of the instance. -/
theorem writes_own (runs : Operates t codec rely a s) : ∀ d ∈ s.deeds, ∀ (k : Kind) (n : k.Name), Touches (S := scheme) k n d.request →
    ∃ c, Rightful d c k n := by
  intro d member k n touches
  have sound := deed_sound runs member
  have permitted := deed_permitted sound
  -- what a patch meets is what was read
  have patched : ∀ {c : Instance} {j : Kind} {n : j.Name} {e : Item scheme j} {m : j.Meta} {spec : j.Spec},
      d.request = Request.patch j n e.version m spec → Read d.past j n e → Carries c j e.metadata →
        ∀ met, d.before.at_ j n = some met → ∃ e' ∈ (d.before j).past, e'.uid = met.uid ∧ Carries c j e'.metadata := by
    intro c j n e m spec request read carries met present
    have same := patch_meets sound request read
    rw [same] at present
    cases present
    exact ⟨e,(sound.real.got j n e read).1,rfl,carries⟩
  have deleted : ∀ {c : Instance} {j : Kind} {n : j.Name} {e : Item scheme j} {version : Option Nat},
      d.request = Request.delete j n e.uid version → e ∈ (d.before j).past → Carries c j e.metadata →
        ∀ met, d.before.at_ j n = some met → ∃ e' ∈ (d.before j).past, e'.uid = met.uid ∧ Carries c j e'.metadata := by
    intro c j n e version request was carries met present
    obtain ⟨met',present',uid,_⟩ := delete_meets sound request
    rw [present'] at present
    cases present
    exact ⟨e,was,uid.symm,carries⟩
  generalize request : d.request = r at touches permitted
  cases touches with
  | create m spec =>
    obtain ⟨c,works,creates⟩ := permitted
    have key := (works_on sound works).1
    have nothing := create_meets sound request
    refine ⟨c,works,?_,fun _ e present => ?_⟩
    · cases creates with
      | volume wanted => exact key
      | config wanted => exact congrArg Prod.fst key
      | child wanted => exact key
      | workload wanted => exact key
      | record deleting read own bound trusted => exact congrArg Prod.fst key
    · rw [nothing] at present
      cases present
  | patch version m spec =>
    cases k with
    | cacheInstance =>
      obtain ⟨c,works,write⟩ := permitted
      refine ⟨c,works,?_,fun other => absurd rfl other⟩
      have key := (works_on sound works).1
      cases write with
      | bound alive unbound origin vetted rendered => exact key
      | reported alive read same ready stopped => exact key
      | released released => exact key
    | volume =>
      obtain ⟨c,works,write⟩ := permitted
      have key := (works_on sound works).1
      cases write with
      | grown wanted read own updated => exact ⟨c,works,key,fun _ => patched request read (.inl own)⟩
      | reclaimed alive asked other read reclaimable class_ modes fits former marker listed unmounted =>
        exact ⟨c,works,key,fun _ => patched request read (.inr ⟨rfl,_,asked,former⟩)⟩
      | recorded deleting retain read own bound trusted seen intact => exact ⟨c,works,key,fun _ => patched request read (.inl own)⟩
    | workload =>
      obtain ⟨c,works,write⟩ := permitted
      have key := (works_on sound works).1
      cases write with
      | stopped why read owned =>
        have own := (of_decide_eq_true (Bool.and_eq_true_iff.mp owned).1).2.2.1
        exact ⟨c,works,key,fun _ => patched request read (.inl own)⟩
      | applied wanted read own updated => exact ⟨c,works,key,fun _ => patched request read (.inl own)⟩
    | child =>
      obtain ⟨c,works,write⟩ := permitted
      have key := (works_on sound works).1
      cases write with
      | applied wanted read own => exact ⟨c,works,key,fun _ => patched request read (.inl own)⟩
    | project => exact permitted.elim
    | secret => exact permitted.elim
    | config => exact permitted.elim
    | pod => exact permitted.elim
    | gateway => exact permitted.elim
  | merge p =>
    cases k with
    | cacheInstance =>
      obtain ⟨c,works,_,rfl,_⟩ := permitted
      exact ⟨c,works,(works_on sound works).1,fun other => absurd rfl other⟩
    | project => exact permitted.elim
    | secret => exact permitted.elim
    | volume => exact permitted.elim
    | workload => exact permitted.elim
    | child => exact permitted.elim
    | config => exact permitted.elim
    | pod => exact permitted.elim
    | gateway => exact permitted.elim
  | delete uid version =>
    obtain ⟨c,works,deletes⟩ := permitted
    have key := (works_on sound works).1
    cases deletes with
    | exposed tracked read own => exact ⟨c,works,key,fun _ => deleted request (sound.real.got _ _ _ read).1 (.inl own)⟩
    | service deleting read own => exact ⟨c,works,key,fun _ => deleted request (sound.real.got _ _ _ read).1 (.inl own)⟩
    | volume deleting policy read own pods => exact ⟨c,works,key,fun _ => deleted request (sound.real.got _ _ _ read).1 (.inl own)⟩
    | config unused =>
      obtain ⟨configs,listed,inside⟩ := unused.listed
      obtain ⟨was,selected⟩ := sound.real.listed _ _ _ listed _ inside
      obtain ⟨ns,label⟩ := Bool.and_eq_true_iff.mp selected
      refine ⟨c,works,(of_decide_eq_true ns).trans (congrArg Prod.fst key),fun _ => deleted request was (.inl ?_)⟩
      exact of_decide_eq_true label

theorem writes_own_discarding : ∃ s, Operates toolkit records (fun _ _ => True) discarding s ∧
    ∃ d ∈ s.deeds, ∃ (n : Key) (c : Instance), Touches (S := scheme) Kind.workload n d.request ∧ Rightful d c .workload n := by
  obtain ⟨s,runs,⟨d,member,n,touches⟩,_⟩ := discards_reached (fun _ _ => True)
  obtain ⟨c,rightful⟩ := writes_own runs d member .workload n touches
  exact ⟨s,runs,d,member,n,c,touches,rightful⟩

/-! ### Volumes -/

/-- What the operator does to a volume, in a cluster where it finds the volume so. -/
inductive VolumeDeed (t : Toolkit) (d : OperatorDeed) (c : Instance) : Request scheme → Prop where
  | created {m : VolumeMeta} {s : VolumeSpec} (absent : d.before.at_ Kind.volume d.key = none) (alive : c.deleting = false)
      (marked : m.labels.instanceUid = some c.uid) (class_ : s.storageClassName = some c.spec.storage.className) :
      VolumeDeed t d c (Request.create Kind.volume d.key m s)
  /-- The request for storage grows, and nothing else changes. -/
  | grown {pvc : Volume} {request : Option ℚ} (met : d.before.at_ Kind.volume d.key = some pvc) (alive : c.deleting = false)
      (own : pvc.metadata.labels.instanceUid = some c.uid) (more : pvc.spec.request.getD 0 ≤ request.getD 0) :
      VolumeDeed t d c (Request.patch Kind.volume d.key pvc.version pvc.metadata { pvc.spec with request := request })
  /-- A record of the images is attached to a volume that outlives its instance. -/
  | recorded {pvc : Volume} {name : String} {uid : Nat} (met : d.before.at_ Kind.volume d.key = some pvc) (deleting : c.deleting = true)
      (retain : c.spec.storage.deletionPolicy = .retain) (own : pvc.metadata.labels.instanceUid = some c.uid) :
      VolumeDeed t d c (Request.patch Kind.volume d.key pvc.version
        { pvc.metadata with retainedImagesName := some name, retainedImagesUid := some uid } pvc.spec)
  /-- A retained volume comes to belong to another instance. -/
  | reclaimed {pvc : Volume} {claim : Reclaim} {pods : List Pod} (met : d.before.at_ Kind.volume d.key = some pvc)
      (alive : c.deleting = false) (asked : c.spec.storage.reclaim = some claim) (other : claim.previousInstanceUID ≠ c.uid)
      (former : pvc.metadata.labels.instanceUid = some claim.previousInstanceUID) (reclaimable : reclaimable c claim pvc)
      (class_ : pvc.spec.storageClassName = some c.spec.storage.className) (modes : pvc.spec.accessModes = ["ReadWriteOnce"])
      (fits : fits t c pvc = true) (marker : c.metadata.annotations.reclaimBoundUid = some c.uid)
      (listed : Listed d.past .pod (d.key.1,none) pods) (unmounted : pods.any (mounts c) = false) :
      VolumeDeed t d c (Request.patch Kind.volume d.key pvc.version (transferred c claim pvc) pvc.spec)
  | deleted {pvc current : Volume} (met : d.before.at_ Kind.volume d.key = some current) (same : current.uid = pvc.uid)
      (read : Read d.past .volume d.key pvc) (own : pvc.metadata.labels.instanceUid = some c.uid) (deleting : c.deleting = true)
      (policy : c.spec.storage.deletionPolicy = .delete) (pods : Listed d.past .pod (d.key.1,some c.uid) []) :
      VolumeDeed t d c (Request.delete Kind.volume d.key pvc.uid none)

/-- What changes in a volume that is brought up to date. -/
theorem updateVolume_grows {d : VolumeSpec} {pvc : Volume} {s : VolumeSpec} (updated : updateVolume d pvc = .ok (some s)) :
    s = { pvc.spec with request := d.request } ∧ pvc.spec.request.getD 0 ≤ d.request.getD 0 := by
  obtain ⟨_,_,updated⟩ := Renderers.bind_ok updated
  obtain ⟨_,_,updated⟩ := Renderers.bind_ok updated
  obtain ⟨_,grows,updated⟩ := Renderers.bind_ok updated
  cases updated
  have grows := Renderers.require_ok grows
  exact ⟨rfl,not_lt.mp (by simpa using grows)⟩

/-- What is wanted besides Services, routes, policies and monitors is rendered for the
    cache. -/
theorem wanted_rendered {past : Past} {settings : Settings} {c : Instance} {desired : Desired} (wanted : Wanted t settings past c desired)
    (other : ∀ n m s, desired ≠ .child n m s) : ∃ adapter secret objects d', Provided t past c adapter secret objects ∧
      Renders t c adapter.images d' ∧ control c (label c secret d') = desired := by
  have child : ∀ {among : ChildName → Bool} {objects : List Desired}, Exposures.Belong c among objects →
      desired ∉ objects.map (control c) := by
    intro among objects belong member
    obtain ⟨d',inside,same⟩ := List.mem_map.mp member
    obtain ⟨name,spec,rfl,_⟩ := belong d' inside
    exact other _ _ _ same.symm
  cases wanted with
  | cache provided member =>
    obtain ⟨d',inside,same⟩ := List.mem_map.mp member
    exact ⟨_,_,_,d',provided,(provided_whole provided).all d' inside,same⟩
  | gateway set alive asked held rendered member bound => exact absurd member (child (Exposures.gateway_belong rendered))
  | monitoring alive asked held rendered member bound => exact absurd member (child (Exposures.monitoring_belong rendered))

theorem wanted_volume {past : Past} {settings : Settings} {c : Instance} {n : Key} {m : VolumeMeta} {spec : VolumeSpec}
    (wanted : Wanted t settings past c (.volume n m spec)) :
    c.deleting = false ∧ m.labels.instanceUid = some c.uid ∧ spec.storageClassName = some c.spec.storage.className := by
  obtain ⟨adapter,secret,objects,d',provided,renders,same⟩ := wanted_rendered wanted (fun _ _ _ wrong => by cases wrong)
  cases renders with
  | volume =>
    cases same
    exact ⟨provided.alive,rfl,rfl⟩
  | config name spec => cases same
  | child spec own => cases same
  | workload runs marked => cases same

/-- Whatever others do, the operator changes a volume only while it belongs to the
    instance of the pass, takes it over only as it was promised, never shrinks it or
    changes its class, and deletes it only for a deleted instance that asks for that. -/
theorem volumes_safe (runs : Operates t codec rely a s) : ∀ d ∈ s.deeds, ∀ n : Key, Touches (S := scheme) Kind.volume n d.request →
    ∃ c, Works d.past d.key c ∧ VolumeDeed t d c d.request := by
  intro d member n touches
  have sound := deed_sound runs member
  have permitted := deed_permitted sound
  generalize request : d.request = r at touches permitted ⊢
  cases touches with
  | create m spec =>
    obtain ⟨c,works,creates⟩ := permitted
    have key := (works_on sound works).1
    have absent := create_meets sound request
    cases creates with
    | volume wanted =>
      obtain ⟨alive,marked,class_⟩ := wanted_volume wanted
      rw [key] at absent ⊢
      exact ⟨c,works,.created absent alive marked class_⟩
  | patch version m spec =>
    obtain ⟨c,works,write⟩ := permitted
    have key := (works_on sound works).1
    cases write with
    | grown wanted read own updated =>
      have met := patch_meets sound request read
      obtain ⟨rfl,more⟩ := updateVolume_grows updated
      rw [key] at met ⊢
      exact ⟨c,works,.grown met (wanted_volume wanted).1 own more⟩
    | reclaimed alive asked other read reclaimable class_ modes fits former marker listed unmounted =>
      have met := patch_meets sound request read
      rw [key] at met listed ⊢
      exact ⟨c,works,.reclaimed met alive asked other former reclaimable class_ modes fits marker listed unmounted⟩
    | recorded deleting retain read own bound trusted seen intact =>
      have met := patch_meets sound request read
      rw [key] at met ⊢
      exact ⟨c,works,.recorded met deleting retain own⟩
  | merge p => exact permitted.elim
  | delete uid version =>
    obtain ⟨c,works,deletes⟩ := permitted
    have key := (works_on sound works).1
    cases deletes with
    | volume deleting policy read own pods =>
      obtain ⟨met,present,uid,_⟩ := delete_meets sound request
      rw [key] at present read pods ⊢
      exact ⟨c,works,.deleted present uid read own deleting policy pods⟩

theorem volumes_safe_discarding : ∃ s, Operates toolkit records (fun _ _ => True) discarding s ∧
    ∃ d ∈ s.deeds, ∃ (n : Key) (c : Instance), Touches (S := scheme) Kind.volume n d.request ∧ VolumeDeed toolkit d c d.request := by
  obtain ⟨s,runs,_,d,member,n,touches⟩ := discards_reached (fun _ _ => True)
  obtain ⟨c,_,safe⟩ := volumes_safe runs d member n touches
  exact ⟨s,runs,d,member,n,c,touches,safe⟩

end
end Expbuild.Operating
