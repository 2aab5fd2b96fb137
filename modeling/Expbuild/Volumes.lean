import Expbuild.Bindings

/-!
What the operator does to persistent volume claims, whatever others do meanwhile: a pass
changes or deletes the claim that goes by the name of its own instance, after it has read
that claim and only while it carries the UID of the instance. The one claim of somebody
else that it changes is the one that its instance reclaims (`volumes_owned`).
-/
namespace Expbuild.Volumes
open Expbuild.Contract Expbuild.Objects Expbuild.Programs Expbuild.Runs Expbuild.Clusters Expbuild.Controllers Expbuild.Guarantees
  Expbuild.Kinds Expbuild.Adapters Expbuild.Reconciler Expbuild.Permits Expbuild.Permissions Expbuild.Operating Expbuild.Bindings
open Expbuild.Calls (Key)

/-- A retained volume is given to the instance that reclaims it, and it is as the
    instance claims. -/
structure Takes (t : Toolkit) (d : OperatorDeed) (c : Instance) (pvc : Volume) (m : VolumeMeta) : Prop where
  claimed : ∃ claim, c.spec.storage.reclaim = some claim ∧ pvc.uid = claim.volumeUID ∧
    pvc.metadata.labels.instanceUid = some claim.previousInstanceUID ∧ m = transferred c claim pvc
  labels : pvc.metadata.labels.managed = true ∧ pvc.metadata.labels.projectId = some c.spec.projectId ∧
    pvc.metadata.labels.instanceId = some c.spec.instanceId
  modes : pvc.spec.accessModes = ["ReadWriteOnce"]
  class_ : pvc.spec.storageClassName = some c.spec.storage.className
  phase : pvc.metadata.phase = "Bound"
  fits : ∃ requested request capacity, t.library.parseQuantity c.spec.storage.capacity = some requested ∧
    pvc.spec.request = some request ∧ pvc.metadata.capacity = some capacity ∧ request ≤ requested ∧ capacity ≤ requested
  /-- No Pod of the namespace mounted it. -/
  unmounted : ∃ pods, Listed d.past .pod (d.key.1,none) pods ∧ ∀ pod ∈ pods, mounts c pod = false
  marker : c.metadata.annotations.reclaimBoundUid = some c.uid

/-- A patch of the claim that the pass has read, which is still the same version. -/
structure Patches (t : Toolkit) (d : OperatorDeed) (version : Nat) (m : VolumeMeta) (spec : VolumeSpec) (c : Instance) (pvc : Volume) :
    Prop where
  works : Works d.past d.key c
  read : Read d.past .volume d.key pvc
  current : version = pvc.version ∧ d.before.at_ Kind.volume d.key = some pvc
  own : pvc.metadata.labels.instanceUid = some c.uid ∧ m.toObjectMeta = pvc.metadata.toObjectMeta ∨ Takes t d c pvc m
  grows : pvc.spec.request.getD 0 ≤ spec.request.getD 0
  class_ : spec.storageClassName = pvc.spec.storageClassName

/-- A deletion of the claim that the pass has read, which is still the same object. -/
structure Deletes (d : OperatorDeed) (uid : Nat) (c : Instance) (pvc : Volume) : Prop where
  works : Works d.past d.key c
  read : Read d.past .volume d.key pvc
  current : uid = pvc.uid ∧ ∃ met, d.before.at_ Kind.volume d.key = some met ∧ met.uid = pvc.uid
  own : pvc.metadata.labels.instanceUid = some c.uid
  deleting : c.deleting = true
  policy : c.spec.storage.deletionPolicy = .delete

section
variable {t : Toolkit} {codec : Codec} {rely : Cluster scheme → Cluster scheme → Prop} {a s : Operators t codec} {d : OperatorDeed}
  {c : Instance} {pvc : Volume} {n : Key} {version : Nat} {m : VolumeMeta} {spec : VolumeSpec}

theorem fits_amounts (holds : fits t c pvc = true) : ∃ requested request capacity,
    t.library.parseQuantity c.spec.storage.capacity = some requested ∧ pvc.spec.request = some request ∧
      pvc.metadata.capacity = some capacity ∧ request ≤ requested ∧ capacity ≤ requested := by
  unfold fits at holds
  split at holds
  · rename_i requested request capacity parsed asked allocated
    exact ⟨requested,request,capacity,parsed,asked,allocated,of_decide_eq_true holds⟩
  · cases holds

theorem patches_owned (sound : Sound (operator t codec) d) (request : d.request = Request.patch Kind.volume n version m spec) :
    n = d.key ∧ ∃ c pvc, Patches t d version m spec c pvc := by
  have permitted := deed_permitted sound
  rw [request] at permitted
  obtain ⟨c,works,write⟩ := permitted
  have key := (works_on sound works).1
  cases write with
  | grown wanted read own updated =>
    have met := patch_meets sound request read
    obtain ⟨rfl,more⟩ := updateVolume_grows updated
    rw [key] at met read ⊢
    exact ⟨rfl,c,_,works,read,⟨rfl,met⟩,.inl ⟨own,rfl⟩,more,rfl⟩
  | reclaimed alive asked other read reclaimable class_ modes fits former marker listed unmounted =>
    have met := patch_meets sound request read
    obtain ⟨uid,_,_,project,instanceId,managed,phase⟩ := reclaimable
    rw [key] at met read listed ⊢
    have takes : Takes t d c _ _ := ⟨⟨_,asked,uid,former,rfl⟩,⟨managed,project,instanceId⟩,modes,class_,phase,fits_amounts fits,
      ⟨_,listed,by simpa using unmounted⟩,marker⟩
    exact ⟨rfl,c,_,works,read,⟨rfl,met⟩,.inr takes,le_rfl,rfl⟩
  | recorded deleting retain read own bound trusted seen intact =>
    have met := patch_meets sound request read
    rw [key] at met read ⊢
    exact ⟨rfl,c,_,works,read,⟨rfl,met⟩,.inl ⟨own,rfl⟩,le_rfl,rfl⟩

theorem deletes_owned {uid : Nat} {expected : Option Nat} (sound : Sound (operator t codec) d)
    (request : d.request = Request.delete Kind.volume n uid expected) : n = d.key ∧ ∃ c pvc, Deletes d uid c pvc := by
  have permitted := deed_permitted sound
  rw [request] at permitted
  obtain ⟨c,works,deletes⟩ := permitted
  have key := (works_on sound works).1
  cases deletes with
  | volume deleting policy read own pods =>
    obtain ⟨met,present,same,_⟩ := delete_meets sound request
    rw [key] at present read ⊢
    exact ⟨rfl,c,_,works,read,⟨rfl,met,present,same⟩,own,deleting,policy⟩

/-- Whatever fails and whatever others do, a claim is only patched or deleted as the one
    that the pass has read and that belongs to its instance, or as the one that the
    instance reclaims; it never shrinks or changes its class, and it is deleted only for a
    deleted instance that asks for that. -/
theorem volumes_owned (runs : Operates t codec rely a s) : ∀ d ∈ s.deeds,
    (∀ n version m spec, d.request = Request.patch Kind.volume n version m spec → n = d.key ∧ ∃ c pvc, Patches t d version m spec c pvc) ∧
    (∀ n p, d.request ≠ Request.merge Kind.volume n p) ∧
    ∀ n uid expected, d.request = Request.delete Kind.volume n uid expected → n = d.key ∧ ∃ c pvc, Deletes d uid c pvc := by
  intro d member
  have sound := deed_sound runs member
  refine ⟨fun n version m spec request => patches_owned sound request,fun n p request => ?_,
    fun n uid expected request => deletes_owned sound request⟩
  have permitted := deed_permitted sound
  rw [request] at permitted
  exact permitted

end

/-! ### A volume that is taken over -/

/-- The instance reclaims a volume of somebody else, and the management API has bound it. -/
def reclaiming : Instance :=
  { working with
    metadata := { working.metadata with annotations := { reclaimBoundUid := some 0 } }
    spec := { working.spec with storage := ⟨"standard","2Gi",.retain,some ⟨7,0⟩⟩ } }

def successor : Operators toolkit records where
  cluster := populated [
    .create Kind.project (⟨1⟩ : Namespace) (labels 1 : Labels) (),
    .create Kind.cacheInstance workingKey reclaiming.metadata reclaiming.spec,
    .create Kind.secret workingSecret.key workingSecret.metadata workingSecret.spec,
    .create Kind.volume workingKey
      ({ labels := { labels 1 (some 1) with instanceUid := some 7 }, phase := "Bound", capacity := some 2147483648 } : VolumeMeta)
      (⟨some "standard",["ReadWriteOnce"],some 2147483648⟩ : VolumeSpec)]

theorem successor_start : Start (operator toolkit records) successor := ⟨populated_wf _,rfl,rfl,rfl⟩

/-- The volume goes from the one to the other. -/
def takesVolume (d : OperatorDeed) : Bool :=
  match d.request with
  | .patch .volume _ _ (m : VolumeMeta) _ => decide (m.labels.instanceUid = some 0) &&
      (d.before.at_ Kind.volume d.key).any (fun (pvc : Volume) => decide (pvc.metadata.labels.instanceUid = some 7))
  | _ => false

theorem volumes_owned_successor : ∃ s, Operates toolkit records (fun _ _ => True) successor s ∧ ∃ d ∈ s.deeds,
    ∃ (version : Nat) (m : VolumeMeta) (spec : VolumeSpec) (c : Instance) (pvc : Volume), Patches toolkit d version m spec c pvc ∧
      pvc.metadata.labels.instanceUid = some 7 ∧ m.labels.instanceUid = some 0 := by
  have ends : (run (step (operator toolkit records)) undisturbed deploys successor).any (fun s => s.deeds.any takesVolume) = true := by
    decide +kernel
  obtain ⟨s,reached,taken⟩ := reaches_of_run (fun _ _ alone => orderly_undisturbed alone) ends
  obtain ⟨d,member,takes⟩ := List.any_eq_true.mp taken
  unfold takesVolume at takes
  split at takes
  · rename_i n version m spec request
    obtain ⟨own,foreign⟩ := Bool.and_eq_true_iff.mp takes
    obtain ⟨_,c,pvc,patches⟩ := (volumes_owned ⟨successor_start,reached⟩ d member).1 n version m spec request
    obtain ⟨met,present,former⟩ := (Option.any_eq_true _ _).mp foreign
    rw [patches.current.2] at present
    cases present
    exact ⟨s,⟨successor_start,reached⟩,d,member,version,m,spec,c,pvc,patches,of_decide_eq_true former,of_decide_eq_true own⟩
  · cases takes

end Expbuild.Volumes
