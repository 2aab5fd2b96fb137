import Expbuild.Operating

/-!
A reclaim that never took its volume. Its object is deleted when nothing that it had is
left and the claim that it names still belongs to the previous object. `finalize`
compares the label of that claim with the UID of the object itself, so that on every such
cluster it ends with a conflict and the finalizers stay (`finalize_conflict`,
`finalize_undoes_iff`).
-/
namespace Expbuild.Undoing
open Expbuild.Contract Expbuild.Objects Expbuild.Programs Expbuild.Clusters Expbuild.Kinds Expbuild.Reconciler Expbuild.Operating
open Expbuild.Calls (Key)

/-! ### Passes that are not disturbed -/

/-- A pass from start to end, whose requests are all served, one after the other. -/
abbrev alone {α : Type} (p : Io α) (cluster : Cluster scheme) : Except Error α × Cluster scheme := p.runWith (perform .delivered) cluster

section
variable {α : Type} {cluster : Cluster scheme} {k : Kind} {n : k.Name}

theorem find_none (absent : cluster.at_ k n = none) : alone (Reconciler.find k n) cluster = (.ok none,cluster) := by
  have missing : perform .delivered (Request.get k n) cluster = (cluster,.error .notFound) := by
    simp [perform,Cluster.serve,Cluster.find,absent,Except.map]
  simp only [alone,Reconciler.find,Prog.runWith,missing]

theorem find_some {e : Item scheme k} (present : cluster.at_ k n = some e) :
    alone (Reconciler.find k n) cluster = (.ok (some e),cluster) := by
  have got : perform .delivered (Request.get k n) cluster = (cluster,.ok e) := by
    simp [perform,Cluster.serve,Cluster.find,present,Except.map]
  simp only [alone,Reconciler.find,Prog.runWith,got]

theorem list_all (select : k.Selector) (cluster : Cluster scheme) :
    alone (Reconciler.list k select) cluster = (.ok (cluster.list k select),cluster) := rfl

end

/-! ### `finalize` -/

/-- The object of a reclaim is being deleted, nothing of what it had is left, and the
    claim it names still belongs to the previous object. -/
structure Untransferred (cluster : Cluster scheme) (c : Instance) (pvc : Volume) (claim : Reclaim) : Prop where
  present : cluster.at_ Kind.cacheInstance c.key = some c
  deleting : c.deleting = true
  reclaims : c.spec.storage.reclaim = some claim
  children : ∀ name : ChildName, cluster.at_ Kind.child (c.key,name) = none
  workload : cluster.at_ Kind.workload c.key = none
  pods : cluster.list Kind.pod (c.key.1,some c.uid) = []
  claimed : cluster.at_ Kind.volume c.key = some pvc
  volume : pvc.uid = claim.volumeUID
  owner : pvc.metadata.labels.instanceUid = some claim.previousInstanceUID
  other : claim.previousInstanceUID ≠ c.uid

/-- The object has lost its finalizers, if it is still there, and the claim is as it was. -/
def Undone (cluster : Cluster scheme) (c : Instance) (pvc : Volume) : Prop :=
  (∀ c', cluster.at_ Kind.cacheInstance c.key = some c' → c'.metadata.finalizers = {}) ∧ cluster.at_ Kind.volume c.key = some pvc

def conflict : Error := .own (.failed "volume ownership conflict during deletion")

section
variable {cluster : Cluster scheme} {c : Instance} {pvc : Volume} {claim : Reclaim} {codec : Codec}

theorem removeChildren_none (gone : ∀ name : ChildName, cluster.at_ Kind.child (c.key,name) = none) (message : String)
    (names : List ChildName) : alone (removeChildren c message names) cluster = (.ok false,cluster) := by
  induction names with
  | nil => rfl
  | cons name rest ih => exact (runWith_ok (find_none (gone name)) _).trans ih

theorem withdraw_none {remove : Io Bool} (held : Bool) (gone : alone remove cluster = (.ok false,cluster)) :
    alone (withdraw held remove) cluster = (.ok (),cluster) := by
  unfold withdraw
  split
  · exact (runWith_ok gone _).trans (Prog.runWith_require rfl _ _)
  · rfl

theorem removeService_none (gone : ∀ name : ChildName, cluster.at_ Kind.child (c.key,name) = none) (name : ChildName) :
    alone (removeService c name) cluster = (.ok (),cluster) := runWith_ok (find_none (gone name)) _

theorem stopWorkload_none (gone : cluster.at_ Kind.workload c.key = none) : alone (stopWorkload c) cluster = (.ok none,cluster) :=
  runWith_ok (find_none gone) _

theorem releaseVolume_foreign (claimed : cluster.at_ Kind.volume c.key = some pvc)
    (foreign : pvc.metadata.labels.instanceUid ≠ some c.uid) (sts : Option Workload) :
    alone (releaseVolume codec c sts) cluster = (.error conflict,cluster) :=
  (runWith_ok (find_some claimed) _).trans (runWith_error (Prog.runWith_refuse foreign _ _) _)

/-- Such a pass comes to the claim, finds that it belongs to somebody else, and fails
    without having changed anything. -/
theorem finalize_conflict (untransferred : Untransferred cluster c pvc claim) (held : c.metadata.finalizers.cleanup = true) :
    alone (finalize codec c) cluster = (.error conflict,cluster) := by
  have gone := untransferred.children
  have foreign : pvc.metadata.labels.instanceUid ≠ some c.uid := by
    rw [untransferred.owner]
    simpa using untransferred.other
  have gateway : alone (removeGateway c) cluster = (.ok false,cluster) := removeChildren_none gone _ _
  have monitoring : alone (removeMonitoring c) cluster = (.ok false,cluster) := removeChildren_none gone _ _
  rw [finalize,if_pos held]
  calc _ = _ := runWith_ok (withdraw_none _ gateway) _
    _ = _ := runWith_ok (withdraw_none _ monitoring) _
    _ = _ := runWith_ok (removeService_none gone .service) _
    _ = _ := runWith_ok (removeService_none gone .headless) _
    _ = _ := runWith_ok (stopWorkload_none untransferred.workload) _
    _ = _ := runWith_ok (list_all (k := .pod) _ _) _
    _ = _ := runWith_ok (Prog.runWith_require untransferred.pods _ _) _
    _ = _ := runWith_error (releaseVolume_foreign untransferred.claimed foreign none) _

/-- A pass undoes a reclaim that never took its volume only where there is nothing to
    do, since the object carries no finalizer of the operator. -/
theorem finalize_undoes_iff (untransferred : Untransferred cluster c pvc claim) :
    Undone (alone (finalize codec c) cluster).2 c pvc ↔ c.metadata.finalizers = {} := by
  have same : (alone (finalize codec c) cluster).2 = cluster := by
    by_cases held : c.metadata.finalizers.cleanup = true
    · rw [finalize_conflict untransferred held]
    · rw [finalize,if_neg held]
      rfl
  rw [same]
  constructor
  · exact fun undone => undone.1 c untransferred.present
  · intro free
    refine ⟨fun c' present => ?_,untransferred.claimed⟩
    rw [untransferred.present] at present
    cases present
    exact free

end

/-- The object of a reclaim that waited for its marker, and is deleted. -/
def waiting (finalizers : Finalizers) : Instance :=
  ⟨discardedKey,9,1,0,true,true,{ finalizers := finalizers },
    { discardedSpec with storage := ⟨"standard","2Gi",.retain,some ⟨4,3⟩⟩ }⟩
/-- The claim that it asks for. -/
def retained : Volume :=
  ⟨discardedKey,3,1,0,false,false,{ labels := { labels 1 (some 1) with instanceUid := some 4 }, phase := "Bound" },
    ⟨some "standard",["ReadWriteOnce"],some 2147483648⟩⟩
def waitingCluster (finalizers : Finalizers) : Cluster scheme :=
  (Cluster.with_ (fun _ => {}) Kind.volume (Store.write {} retained)).with_ Kind.cacheInstance (Store.write {} (waiting finalizers))

theorem waiting_untransferred (finalizers : Finalizers) :
    Untransferred (waitingCluster finalizers) (waiting finalizers) retained ⟨4,3⟩ where
  present := rfl
  deleting := rfl
  reclaims := rfl
  children _ := rfl
  workload := rfl
  pods := rfl
  claimed := rfl
  volume := rfl
  owner := rfl
  other := by simp [waiting]

/-- An object that carries only foreign finalizers is let go. -/
theorem finalize_undoes_foreign : Undone (alone (finalize records (waiting {})) (waitingCluster {})).2 (waiting {}) retained :=
  (finalize_undoes_iff (waiting_untransferred {})).mpr rfl

/-- The object that the operator took its cleanup finalizer on is not. -/
theorem finalize_keeps_waiting : Untransferred (waitingCluster { cleanup := true }) (waiting { cleanup := true }) retained ⟨4,3⟩ ∧
    ¬Undone (alone (finalize records (waiting { cleanup := true })) (waitingCluster { cleanup := true })).2
      (waiting { cleanup := true }) retained := by
  have untransferred := waiting_untransferred { cleanup := true }
  refine ⟨untransferred,fun undone => ?_⟩
  rw [finalize_conflict untransferred rfl] at undone
  exact absurd (undone.1 _ untransferred.present) (by decide)

end Expbuild.Undoing
