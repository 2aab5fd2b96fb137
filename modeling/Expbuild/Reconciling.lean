import Expbuild.Drift
import Expbuild.Transactions

/-!
`POST .../reservations/reconcile`: what is observed of an instance is a lower bound
of its reservations (`reservationFloor`), and the transaction raises them to it. The
floor rounds up to the units of the columns, which the comparison reads exactly, so
that a binding that was raised is sound; anything but a missing reservation refuses
the request (`reconcile_closes`).
-/
namespace Expbuild.Reconciling
open Expbuild.Contract Expbuild.Schema Expbuild.Tables Expbuild.Transactions Expbuild.Quantities Expbuild.Readings
open Expbuild.Inventory Expbuild.Drift

/-! ### The floor -/

structure Reservation where
  storageGiB : Nat
  cpuMillis : Nat
  memoryMiB : Nat
  deriving DecidableEq,Repr

/-- The values, if none is missing. -/
def quantities (values : List (Option String)) : Option (List String) :=
  values.mapM (fun value => value.filter (fun text => text ≠ ""))

/-- The largest of the quantities, in units. -/
def ceiling (unit : String) (values : List String) : Option Nat :=
  (values.mapM (fun value => quantityCeil value unit)).map (fun counts => counts.foldl max 0)

def observedFloor (cr : Option CacheObject) (pvc : InventoryVolume) : Option Reservation := do
  let storage ← quantities [pvc.requested,pvc.capacity]
  match cr with
  | none => do
    let storageGiB ← ceiling "1Gi" storage
    return ⟨storageGiB,0,0⟩
  | some cr => do
    let storageGiB ← ceiling "1Gi" (storage ++ [cr.spec.storage.capacity])
    let cpu ← quantities [cr.spec.requests.cpu,cr.spec.limits.cpu]
    let memory ← quantities [cr.spec.requests.memory,cr.spec.limits.memory]
    let cpuMillis ← ceiling "1m" cpu
    let memoryMiB ← ceiling "1Mi" memory
    return ⟨storageGiB,cpuMillis,memoryMiB⟩

def reservationFloor (project : ProjectId) (b : InventoryBinding) (resources : InventoryResources) :
    Except Failure Reservation := do
  demand (b.busy = false ∧ (b.lifecycle = .active ∨ b.lifecycle = .detached))
    (.http 409 "Instance is not stable enough to reconcile")
  let issues := (compareInventory project [b] resources).issues.filter (fun i => i.instanceId = some b.id)
  demand (∀ i ∈ issues, i.code = .resourceReservationUnknown ∨ i.code = .resourceReservationInsufficient)
    (.http 409 "Resolve instance identity or configuration drift first")
  let cr := resources.instances.find? (fun c => c.name = b.resourceName)
  let missing : Failure := .http 409 "Instance or volume is missing or unexpected"
  let pvc ← found (resources.volumes.find? (fun v => v.name = some (.data b.resourceName))) missing
  demand (¬(b.lifecycle = .active ∧ cr = none) ∧ ¬(b.lifecycle = .detached ∧ cr.isSome = true)) missing
  found (observedFloor cr pvc) (.http 409 "Observed resource quantity cannot be safely reconciled")

/-! ### The request -/

/-- `greatest(coalesce(old,0),floor)` -/
def greatest (old : Option Nat) (floor : Nat) : Option Nat := some (max (old.getD 0) floor)

/-- The reservations of a row, raised to a floor; a detached one keeps its CPU and
    memory. -/
def raised (floor : Reservation) (b : Binding) : Binding :=
  { b with reservedStorageGib := greatest b.reservedStorageGib floor.storageGiB
           reservedCpuMillis := if b.lifecycle = .detached then b.reservedCpuMillis
             else greatest b.reservedCpuMillis floor.cpuMillis
           reservedMemoryMib := if b.lifecycle = .detached then b.reservedMemoryMib
             else greatest b.reservedMemoryMib floor.memoryMiB }

section
variable {Digest : Type} [DecidableEq Digest] (fingerprint : List InventoryBinding → Digest)

/-- The transaction of the request, on rows that did not change since they were read. -/
def reconcileReservations (actor : UserId) (project : ProjectId) (id : InstanceId) (ns : Namespace)
    (before : List InventoryBinding) (floor : Reservation) (db : Db) : Except Failure Db := do
  let changed : Failure := .http 409 "Project changed during resource scan"
  demand (platformAdministrator db actor) (.http 403 "Platform administrator required")
  demand ((db.projects.lookup project).any (fun p => p.ns = ns ∧ p.state = .ready) = true) changed
  let current := bindingSQL db project
  demand (current.length ≤ 1000 ∧ fingerprint current = fingerprint before) changed
  demand ((db.bindings.lookup id).any (fun b => b.projectId = project ∧
    (b.lifecycle = .active ∨ b.lifecycle = .detached)) = true) (.http 409 "Instance changed during resource scan")
  return audit { actorId := some actor, projectId := project, instanceId := some id, action := .reservationReconcile }
    (updateBinding (some id) (raised floor) db)

/-- A request between its reads: `access` is what `projectAccess` answers, the project
    and the rows are read from the tables as they are then, `observed` is the answer
    of Kubernetes, and `db` are the tables at the transaction. -/
structure Visit where
  actor : UserId
  project : ProjectId
  id : InstanceId
  access : Except Failure Bool
  kube : Bool
  first : Db
  rows : Db
  observed : Option InventoryResources

def reconcile (r : Visit) (db : Db) : Except Failure Db := do
  let platformAdmin ← r.access
  demand (platformAdmin = true) (.http 403 "Platform administrator required")
  demand (r.kube = true) (.http 503 "Resource inventory is not configured")
  let notReady : Failure := .http 409 "Project is not ready"
  let project ← found (r.first.projects.lookup r.project) notReady
  demand (project.state = .ready) notReady
  let before := bindingSQL r.rows r.project
  demand (before.length ≤ 1000) (.http 409 "Project inventory exceeds the scan limit")
  let b ← found (before.find? (fun b => b.id = r.id)) (.http 404 "Instance not found")
  let observed ← found r.observed (.http 503 "Kubernetes resource inventory is unavailable")
  let floor ← reservationFloor r.project b observed
  reconcileReservations fingerprint r.actor r.project r.id project.ns before floor db

/-- The tables after a request; one that throws leaves them as they were. -/
def after (r : Visit) (db : Db) : Db :=
  match reconcile fingerprint r db with
  | .ok db' => db'
  | .error _ => db

end
/-! ### What is reconciled -/

/-- The quantities that are there have a value. -/
def Readable (values : List (Option String)) : Prop := ∀ value, some value ∈ values → ∃ q, Reads value q

/-- An instance without identity, ownership or configuration problems. -/
structure InstanceFits (project : ProjectId) (b : InventoryBinding) (c : CacheObject) : Prop extends InstanceOwn project b c where
  storage : Readable [some c.spec.storage.capacity]
  cpu : Readable [c.spec.requests.cpu,c.spec.limits.cpu]
  memory : Readable [c.spec.requests.memory,c.spec.limits.memory]

structure VolumeFits (project : ProjectId) (b : InventoryBinding) (v : InventoryVolume) : Prop extends VolumeOwn project b v where
  storage : Readable [v.requested,v.capacity]

/-- A binding of which only the reservations may be wrong. -/
structure Reconcilable (project : ProjectId) (b : InventoryBinding) (resources : InventoryResources) : Prop where
  idle : b.busy = false
  stable : b.lifecycle = .active ∨ b.lifecycle = .detached
  running : b.lifecycle = .active → ∃ c ∈ resources.instances, c.name = b.resourceName ∧ InstanceFits project b c
  released : b.lifecycle = .detached → ∀ c ∈ resources.instances, c.name ≠ b.resourceName
  stored : ∃ v ∈ resources.volumes, v.name = some (.data b.resourceName) ∧ VolumeFits project b v

/-- The row of a binding whose reservations were raised. -/
def raisedRow (floor : Reservation) (b : InventoryBinding) : InventoryBinding :=
  { b with reservedStorageGib := greatest b.reservedStorageGib floor.storageGiB
           reservedCpuMillis := if b.lifecycle = .detached then b.reservedCpuMillis
             else greatest b.reservedCpuMillis floor.cpuMillis
           reservedMemoryMib := if b.lifecycle = .detached then b.reservedMemoryMib
             else greatest b.reservedMemoryMib floor.memoryMiB }

/-! ### The floor covers what is observed -/

theorem le_foldl_max {n : Nat} {counts : List Nat} (start : Nat) (member : n ∈ counts) : n ≤ counts.foldl max start := by
  induction counts generalizing start with
  | nil => cases member
  | cons m counts ih =>
    have grows : ∀ (counts : List Nat) (start : Nat), start ≤ counts.foldl max start := by
      intro counts
      induction counts with
      | nil => exact fun _ => Nat.le_refl _
      | cons k counts ih => exact fun start => Nat.le_trans (Nat.le_max_left _ _) (ih _)
    rcases List.mem_cons.mp member with rfl | member
    · exact Nat.le_trans (Nat.le_max_right _ _) (grows counts _)
    · exact ih _ member

theorem foldl_max_le {bound : Nat} {counts : List Nat} (start : Nat) (first : start ≤ bound) (all : ∀ n ∈ counts, n ≤ bound) :
    counts.foldl max start ≤ bound := by
  induction counts generalizing start with
  | nil => exact first
  | cons m counts ih =>
    exact ih _ (Nat.max_le.mpr ⟨first,all m List.mem_cons_self⟩) (fun n member => all n (List.mem_cons_of_mem _ member))

/-- The largest value of the columns that a floor takes. -/
def largest : Nat := 2147483647

/-- What the largest number of units covers. -/
structure Covers (n : Nat) (unit : ℚ) (values : List String) : Prop where
  within : n ≤ largest
  covers : ∀ value ∈ values, ∃ q, Reads value q ∧ q ≤ n * unit

theorem mapM_range {α β : Type} {f : α → Option β} {xs : List α} {ys : List β} (mapped : xs.mapM f = some ys) :
    ∀ y ∈ ys, ∃ x ∈ xs, f x = some y := by
  induction xs generalizing ys with
  | nil =>
    cases mapped
    intro y member
    cases member
  | cons x xs ih =>
    rw [List.mapM_cons] at mapped
    simp only [Option.bind_eq_bind,Option.bind_eq_some_iff,Option.pure_def,Option.some.injEq] at mapped
    obtain ⟨y,first,rest,others,rfl⟩ := mapped
    intro z member
    rcases List.mem_cons.mp member with rfl | member
    · exact ⟨x,List.mem_cons_self,first⟩
    · obtain ⟨w,inside,same⟩ := ih others z member
      exact ⟨w,List.mem_cons_of_mem _ inside,same⟩

theorem ceiling_covers {unit : String} {u : ℚ} {values : List String} {n : Nat} (reads : Reads unit u)
    (rounded : ceiling unit values = some n) : Covers n u values := by
  obtain ⟨counts,mapped,rfl⟩ := Option.map_eq_some_iff.mp rounded
  constructor
  · refine foldl_max_le 0 (Nat.zero_le _) (fun m member => ?_)
    obtain ⟨value,_,same⟩ := mapM_range mapped m member
    obtain ⟨_,_,_,_,_,_,small⟩ := quantityCeil_reads.mp same
    exact small
  · intro value member
    obtain ⟨m,inside,same⟩ := mapM_isSome mapped value member
    obtain ⟨q,unit',left,right,positive,rounds,_⟩ := quantityCeil_reads.mp same
    rw [right.unique reads] at rounds positive
    have enough : q ≤ m * u := by exact_mod_cast rounds.1
    have larger : (m : ℚ) ≤ (counts.foldl max 0 : Nat) := by exact_mod_cast le_foldl_max 0 inside
    exact ⟨q,left,enough.trans (mul_le_mul_of_nonneg_right larger positive.le)⟩

theorem quantities_all {values : List (Option String)} {texts : List String} (there : quantities values = some texts)
    {value : String} (member : some value ∈ values) : value ∈ texts := by
  obtain ⟨text,inside,same⟩ := mapM_isSome there (some value) member
  rw [Option.filter_some] at same
  split at same
  · cases same
    exact inside
  · cases same

/-- What a floor covers: the values that are there, and those of the instance. -/
structure Floor (cr : Option CacheObject) (pvc : InventoryVolume) (floor : Reservation) : Prop where
  storage : ∃ values, Covers floor.storageGiB gib values ∧ (∀ value, some value ∈ [pvc.requested,pvc.capacity] → value ∈ values) ∧
    ∀ c, cr = some c → c.spec.storage.capacity ∈ values
  cpu : ∀ c, cr = some c → ∃ values, Covers floor.cpuMillis millis values ∧
    ∀ value, some value ∈ [c.spec.requests.cpu,c.spec.limits.cpu] → value ∈ values
  memory : ∀ c, cr = some c → ∃ values, Covers floor.memoryMiB mib values ∧
    ∀ value, some value ∈ [c.spec.requests.memory,c.spec.limits.memory] → value ∈ values

theorem reads_unit {unit suffix : String} {factor : ℚ} (text : unit = toString 1 ++ suffix) (short : suffix.length ≤ 2)
    (suffixed : Suffix suffix.toList factor 0) : Reads unit factor := by
  rw [text]
  simpa using reads_whole (n := 1) (by decide) short suffixed

theorem observedFloor_covers {cr : Option CacheObject} {pvc : InventoryVolume} {floor : Reservation}
    (observed : observedFloor cr pvc = some floor) : Floor cr pvc floor := by
  have inGib : Reads "1Gi" gib := reads_unit (by decide) (by decide) suffix_gib
  have inMillis : Reads "1m" millis := reads_unit (by decide) (by decide) suffix_millis
  have inMib : Reads "1Mi" mib := reads_unit (by decide) (by decide) suffix_mib
  unfold observedFloor at observed
  simp only [Option.bind_eq_bind,Option.bind_eq_some_iff] at observed
  obtain ⟨storage,there,observed⟩ := observed
  cases cr with
  | none =>
    simp only [Option.bind_eq_some_iff,Option.pure_def,Option.some.injEq] at observed
    obtain ⟨storageGiB,rounded,rfl⟩ := observed
    refine ⟨⟨storage,ceiling_covers inGib rounded,fun _ member => quantities_all there member,?_⟩,?_,?_⟩
    · intro _ wrong
      cases wrong
    · intro _ wrong
      cases wrong
    · intro _ wrong
      cases wrong
  | some c =>
    simp only [Option.bind_eq_some_iff,Option.pure_def,Option.some.injEq] at observed
    obtain ⟨storageGiB,rounded,cpu,thereCpu,memory,thereMemory,cpuMillis,roundedCpu,memoryMiB,roundedMemory,rfl⟩ := observed
    refine ⟨⟨storage ++ [c.spec.storage.capacity],ceiling_covers inGib rounded,?_,?_⟩,?_,?_⟩
    · intro value member
      exact List.mem_append_left _ (quantities_all there member)
    · rintro _ ⟨⟩
      exact List.mem_append_right _ List.mem_cons_self
    · rintro _ ⟨⟩
      exact ⟨cpu,ceiling_covers inMillis roundedCpu,fun _ member => quantities_all thereCpu member⟩
    · rintro _ ⟨⟩
      exact ⟨memory,ceiling_covers inMib roundedMemory,fun _ member => quantities_all thereMemory member⟩

/-- A raised reservation covers what its floor does. -/
theorem Covers.raised {n : Nat} {unit : ℚ} {texts : List String} {values : List (Option String)} {old : Option Nat}
    (covers : Covers n unit texts) (positive : 0 ≤ unit) (all : ∀ value, some value ∈ values → value ∈ texts) :
    Covered values (greatest old n) unit := by
  refine ⟨_,rfl,fun value member => ?_⟩
  obtain ⟨q,reads,below⟩ := covers.covers value (all value member)
  have larger : (n : ℚ) ≤ (max (old.getD 0) n : Nat) := by exact_mod_cast Nat.le_max_right _ _
  exact ⟨q,reads,below.trans (mul_le_mul_of_nonneg_right larger positive)⟩

theorem Covers.readable {n : Nat} {unit : ℚ} {texts : List String} {values : List (Option String)}
    (covers : Covers n unit texts) (all : ∀ value, some value ∈ values → value ∈ texts) : Readable values := by
  intro value member
  obtain ⟨q,reads,_⟩ := covers.covers value (all value member)
  exact ⟨q,reads⟩

theorem units_nonneg : 0 ≤ gib ∧ 0 ≤ millis ∧ 0 ≤ mib := by
  unfold gib millis mib
  refine ⟨by positivity,by positivity,by positivity⟩

/-! ### The issues of one binding -/

/-- Every code there is. -/
def everyCode : List IssueCode :=
  [.instanceIdentityConflict,.instanceOwnershipConflict,.unexpectedInstance,.unexpectedInstanceDeletion,.templateIdentityConflict,
    .templateVersionUnknown,.configurationDrift,.resourceReservationUnknown,.resourceReservationInsufficient,.resourceQuantityInvalid,
    .missingInstance,.provisioningIncomplete,.volumeOwnershipConflict,.residualVolume,.volumeDeletionInProgress,.volumeNotBound,
    .missingRetainedVolume,.missingVolume,.untrackedInstance,.untrackedVolume]

theorem codes_length (codes : List IssueCode) : codes.eraseDups.length ≤ 20 := by
  have inside : codes.eraseDups ⊆ everyCode := by
    intro code _
    cases code <;> decide
  exact (List.subperm_of_subset (nodup_eraseDups codes) inside).length_le

section
variable {project : ProjectId} {b : InventoryBinding} {resources : InventoryResources}

/-- The issues of a binding are at the front, within what is reported. -/
theorem reported_eq (instances : (resources.instances.map (fun c => c.name)).Nodup)
    (volumes : (resources.volumes.map (fun v => v.name)).Nodup) (idle : b.busy = false) :
    (compareInventory project [b] resources).issues.filter (fun i => i.instanceId = some b.id) =
      bindingIssues project b (observedInstance resources b) (observedVolume resources b) := by
  rw [compareInventory_eq (by simp) instances volumes]
  simp only [allIssues,List.filter_cons,idle,Bool.not_false,if_true,List.filter_nil,List.flatMap_cons,List.flatMap_nil,
    List.append_nil]
  have short : (bindingIssues project b (observedInstance resources b) (observedVolume resources b)).length ≤ 200 := by
    rw [bindingIssues_eq,List.length_append,List.length_map,List.length_map]
    have first := codes_length (instanceCodes project b (observedInstance resources b))
    have second := codes_length (volumeCodes project b (observedVolume resources b))
    omega
  rw [List.take_append,List.take_of_length_le short,List.filter_append]
  have own : (bindingIssues project b (observedInstance resources b) (observedVolume resources b)).filter
      (fun i => i.instanceId = some b.id) = bindingIssues project b (observedInstance resources b) (observedVolume resources b) := by
    refine List.filter_eq_self.mpr (fun i member => ?_)
    simp [(bindingIssues_about member).1]
  rw [own]
  refine (congrArg _ (List.filter_eq_nil_iff.mpr (fun i member => ?_))).trans (List.append_nil _)
  rcases List.mem_append.mp (List.mem_of_mem_take member) with member | member
  · obtain ⟨c,_,rfl⟩ := List.mem_map.mp member
    simp [untrackedInstance]
  · obtain ⟨v,_,rfl⟩ := List.mem_map.mp member
    simp [untrackedVolume]

theorem observedInstance_find : observedInstance resources b = resources.instances.find? (fun c => c.name = b.resourceName) := by
  simp [observedInstance,getEntry,List.find?_map,Function.comp_def]

theorem observedVolume_find : observedVolume resources b =
    resources.volumes.find? (fun v => v.name = some (.data b.resourceName)) := by
  simp [observedVolume,getEntry,List.find?_map,Function.comp_def]

/-- What a floor was computed from. -/
structure Floored (project : ProjectId) (b : InventoryBinding) (resources : InventoryResources) (floor : Reservation) : Prop where
  idle : b.busy = false
  stable : b.lifecycle = .active ∨ b.lifecycle = .detached
  only : ∀ i ∈ bindingIssues project b (observedInstance resources b) (observedVolume resources b),
    i.code = .resourceReservationUnknown ∨ i.code = .resourceReservationInsufficient
  present : b.lifecycle = .active → observedInstance resources b ≠ none
  absent : b.lifecycle = .detached → observedInstance resources b = none
  observed : ∃ v, observedVolume resources b = some v ∧ observedFloor (observedInstance resources b) v = some floor

theorem reservationFloor_ok (instances : (resources.instances.map (fun c => c.name)).Nodup)
    (volumes : (resources.volumes.map (fun v => v.name)).Nodup) {floor : Reservation}
    (computed : reservationFloor project b resources = .ok floor) : Floored project b resources floor := by
  simp only [reservationFloor,bind_eq_ok,demand_eq_ok,found_eq_ok] at computed
  obtain ⟨_,⟨idle,stable⟩,_,only,v,there,_,⟨present,absent⟩,observed⟩ := computed
  rw [reported_eq instances volumes idle] at only
  rw [← observedVolume_find] at there
  rw [← observedInstance_find] at present absent observed
  refine ⟨idle,stable,only,fun active none_ => present ⟨active,none_⟩,fun detached => ?_,v,there,observed⟩
  by_contra some_
  exact absent ⟨detached,Option.isSome_iff_ne_none.mpr some_⟩

/-- What is not a missing reservation is an own instance, or an own volume. -/
theorem Floored.reconcilable {floor : Reservation} (instances : (resources.instances.map (fun c => c.name)).Nodup)
    (volumes : (resources.volumes.map (fun v => v.name)).Nodup) (floored : Floored project b resources floor) :
    Reconcilable project b resources := by
  obtain ⟨idle,stable,only,present,absent,v,there,observed⟩ := floored
  have floor_ := observedFloor_covers observed
  have reserves : ∀ i ∈ bindingIssues project b (observedInstance resources b) (observedVolume resources b), Reserves i.code := by
    intro i member
    rcases only i member with unknown | insufficient
    · exact .inl unknown
    · exact .inr (.inl insufficient)
  refine ⟨idle,stable,fun active => ?_,fun detached => (getEntry_none instances).mp (absent detached),?_⟩
  · obtain ⟨c,seen⟩ := Option.ne_none_iff_exists'.mp (present active)
    obtain ⟨member,named⟩ := (getEntry_some instances).mp seen
    have own : InstanceOwn project b c := by
      refine instanceIssues_own (by rw [active]; rfl) (fun code raised => ?_)
      refine reserves ⟨code,.cacheInstance b.resourceName,some b.id⟩ (mem_bindingIssues.mpr (.inl ⟨code,?_,rfl⟩))
      rw [seen]
      exact raised
    obtain ⟨_,covers,_,inside⟩ := floor_.storage
    obtain ⟨_,coversCpu,insideCpu⟩ := floor_.cpu c seen
    obtain ⟨_,coversMemory,insideMemory⟩ := floor_.memory c seen
    refine ⟨c,member,named,own,covers.readable ?_,coversCpu.readable insideCpu,coversMemory.readable insideMemory⟩
    intro value same
    rw [List.mem_singleton,Option.some.injEq] at same
    rw [same]
    exact inside c seen
  · obtain ⟨member,named⟩ := (getEntry_some volumes).mp there
    have undeleted : b.lifecycle ≠ .deleted := by
      rcases stable with active | detached
      · rw [active]
        decide
      · rw [detached]
        decide
    have own : VolumeOwn project b v := by
      refine volumeIssues_own undeleted (fun code raised => ?_)
      refine reserves ⟨code,.persistentVolumeClaim (some (.data b.resourceName)),some b.id⟩
        (mem_bindingIssues.mpr (.inr ⟨code,?_,rfl⟩))
      rw [there]
      exact raised
    obtain ⟨_,covers,inside,_⟩ := floor_.storage
    exact ⟨v,member,named,own,covers.readable inside⟩

/-! ### The raised row -/

theorem raisedRow_instance (floor : Reservation) {c : CacheObject} (own : InstanceOwn project b c) :
    InstanceOwn project (raisedRow floor b) c :=
  ⟨own.ofProject,own.id,own.uid,⟨own.labels.ofProject,own.labels.id,own.labels.managed⟩,own.stays,own.template,own.version,
    own.expected⟩

theorem raisedRow_volume (floor : Reservation) {v : InventoryVolume} (own : VolumeOwn project b v) :
    VolumeOwn project (raisedRow floor b) v :=
  ⟨⟨own.labels.ofProject,own.labels.id,own.labels.managed⟩,own.uid,own.owned,own.detached,own.stays,own.bound⟩

theorem raisedRow_active (floor : Reservation) (active : b.lifecycle = .active) :
    (raisedRow floor b).reservedCpuMillis = greatest b.reservedCpuMillis floor.cpuMillis ∧
      (raisedRow floor b).reservedMemoryMib = greatest b.reservedMemoryMib floor.memoryMiB := by
  simp [raisedRow,active]

theorem raisedRow_detached (floor : Reservation) (detached : b.lifecycle = .detached) :
    (raisedRow floor b).reservedCpuMillis = b.reservedCpuMillis ∧
      (raisedRow floor b).reservedMemoryMib = b.reservedMemoryMib := by
  simp [raisedRow,detached]

/-- A raised binding is sound: nothing but its reservations was an issue. -/
theorem Floored.sound {floor : Reservation} (instances : (resources.instances.map (fun c => c.name)).Nodup)
    (volumes : (resources.volumes.map (fun v => v.name)).Nodup) (floored : Floored project b resources floor) :
    BindingSound project (raisedRow floor b) resources := by
  obtain ⟨idle,stable,running,released,v,member,named,fits⟩ := floored.reconcilable instances volumes
  obtain ⟨_,_,_,_,_,v',there,observed⟩ := floored
  have floor_ := observedFloor_covers observed
  obtain ⟨gibNonneg,millisNonneg,mibNonneg⟩ := units_nonneg
  obtain ⟨_,covers,inside,insideInstance⟩ := floor_.storage
  have only : ∀ w ∈ resources.volumes, w.name = some (.data b.resourceName) → w = v' := by
    intro w seen called
    have same := (getEntry_some volumes).mpr ⟨seen,called⟩
    rw [show getEntry _ _ = some v' from there] at same
    exact (Option.some.inj same).symm
  refine ⟨idle,fun gone => ?_,fun runs => ?_,fun deleted => ?_,fun _ => ⟨v,member,named⟩,fun w seen called => ?_⟩
  · rcases stable with active | detached
    · rw [show (raisedRow floor b).lifecycle = .active from active] at gone
      cases gone
    · exact released detached
  · rcases stable with active | detached
    · obtain ⟨c,member,named,fits⟩ := running active
      have seen : observedInstance resources b = some c := (getEntry_some instances).mpr ⟨member,named⟩
      obtain ⟨_,coversCpu,insideCpu⟩ := floor_.cpu c seen
      obtain ⟨_,coversMemory,insideMemory⟩ := floor_.memory c seen
      obtain ⟨cpu,memory⟩ := raisedRow_active floor active
      refine ⟨c,member,named,raisedRow_instance floor fits.toInstanceOwn,covers.raised gibNonneg ?_,?_,?_⟩
      · intro value same
        rw [List.mem_singleton,Option.some.injEq] at same
        rw [same]
        exact insideInstance c seen
      · rw [cpu]
        exact coversCpu.raised millisNonneg insideCpu
      · rw [memory]
        exact coversMemory.raised mibNonneg insideMemory
    · rw [show (raisedRow floor b).lifecycle = .detached from detached] at runs
      cases runs
  · rcases stable with active | detached
    · rw [show (raisedRow floor b).lifecycle = .active from active] at deleted
      cases deleted
    · rw [show (raisedRow floor b).lifecycle = .detached from detached] at deleted
      cases deleted
  · obtain rfl := only w seen called
    obtain rfl := only v member named
    exact ⟨raisedRow_volume floor fits.toVolumeOwn,covers.raised gibNonneg inside⟩

theorem greatest_small {old : Option Nat} {floor : Nat} (small : ∀ n, old = some n → n < 2 ^ 63) (within : floor ≤ largest) :
    ∀ n, greatest old floor = some n → n < 2 ^ 63 := by
  rintro n ⟨⟩
  unfold largest at within
  cases old with
  | none =>
    simp only [Option.getD_none]
    omega
  | some m =>
    have first := small m rfl
    simp only [Option.getD_some]
    omega

theorem Floored.bigint {floor : Reservation} (columns : Bigint b) (floored : Floored project b resources floor) :
    Bigint (raisedRow floor b) := by
  obtain ⟨_,stable,_,present,_,v,there,observed⟩ := floored
  have floor_ := observedFloor_covers observed
  obtain ⟨_,covers,_⟩ := floor_.storage
  rcases stable with active | detached
  · obtain ⟨c,seen⟩ := Option.ne_none_iff_exists'.mp (present active)
    obtain ⟨_,coversCpu,_⟩ := floor_.cpu c seen
    obtain ⟨_,coversMemory,_⟩ := floor_.memory c seen
    obtain ⟨cpu,memory⟩ := raisedRow_active floor active
    refine ⟨greatest_small columns.storage covers.within,?_,?_⟩
    · rw [cpu]
      exact greatest_small columns.cpu coversCpu.within
    · rw [memory]
      exact greatest_small columns.memory coversMemory.within
  · obtain ⟨cpu,memory⟩ := raisedRow_detached floor detached
    refine ⟨greatest_small columns.storage covers.within,?_,?_⟩
    · rw [cpu]
      exact columns.cpu
    · rw [memory]
      exact columns.memory

/-- A known reservation stays known and does not decrease. -/
def Rises (old new : Option Nat) : Prop := ∀ n, old = some n → ∃ m, new = some m ∧ n ≤ m

theorem greatest_rises (old : Option Nat) (floor : Nat) : Rises old (greatest old floor) := by
  rintro n rfl
  exact ⟨_,rfl,Nat.le_max_left _ _⟩

theorem rises_same (old : Option Nat) : Rises old old := fun n same => ⟨n,same,Nat.le_refl n⟩

/-- What a floor does to the row of its binding. -/
structure Closes (project : ProjectId) (b : InventoryBinding) (resources : InventoryResources) (floor : Reservation) : Prop where
  none : ∀ i ∈ (compareInventory project [raisedRow floor b] resources).issues, i.instanceId ≠ some b.id
  storage : Rises b.reservedStorageGib (raisedRow floor b).reservedStorageGib
  cpu : Rises b.reservedCpuMillis (raisedRow floor b).reservedCpuMillis
  memory : Rises b.reservedMemoryMib (raisedRow floor b).reservedMemoryMib
  detached : b.lifecycle = .detached → (raisedRow floor b).reservedCpuMillis = b.reservedCpuMillis ∧
    (raisedRow floor b).reservedMemoryMib = b.reservedMemoryMib

theorem Floored.closes {floor : Reservation} (instances : (resources.instances.map (fun c => c.name)).Nodup)
    (volumes : (resources.volumes.map (fun v => v.name)).Nodup) (columns : Bigint b)
    (floored : Floored project b resources floor) : Closes project b resources floor := by
  have sound := (bindingSound_iff (floored.bigint columns) instances volumes).mp (floored.sound instances volumes)
  refine ⟨fun i member about => ?_,greatest_rises _ _,?_,?_,raisedRow_detached floor⟩
  · have mine : i ∈ (compareInventory project [raisedRow floor b] resources).issues.filter
        (fun i => i.instanceId = some (raisedRow floor b).id) := List.mem_filter.mpr ⟨member,decide_eq_true about⟩
    rw [reported_eq instances volumes sound.1,sound.2] at mine
    cases mine
  · rcases floored.stable with active | detached
    · rw [(raisedRow_active floor active).1]
      exact greatest_rises _ _
    · rw [(raisedRow_detached floor detached).1]
      exact rises_same _
  · rcases floored.stable with active | detached
    · rw [(raisedRow_active floor active).2]
      exact greatest_rises _ _
    · rw [(raisedRow_detached floor detached).2]
      exact rises_same _

end
/-! ### The tables -/

section
variable {Digest : Type} [DecidableEq Digest] {fingerprint : List InventoryBinding → Digest} {r : Visit} {b : InventoryBinding}
  {resources : InventoryResources} {db db' : Db}

/-- What a request that was answered did: the row that it had read is raised. -/
structure Updated (r : Visit) (b : InventoryBinding) (floor : Reservation) (db db' : Db) : Prop where
  row : ∃ row, db.bindings.lookup r.id = some row ∧ bindingRow db r.id row = b ∧
    db'.bindings.lookup r.id = some (raised floor row) ∧ bindingRow db' r.id (raised floor row) = raisedRow floor b
  others : ∀ j, j ≠ r.id → db'.bindings.lookup j = db.bindings.lookup j
  kept : db'.operations = db.operations ∧ db'.projects = db.projects ∧ db'.credentials = db.credentials ∧ db'.now = db.now

theorem mem_bindingSQL {project : ProjectId} (read : b ∈ bindingSQL db project) :
    ∃ row, db.bindings.lookup b.id = some row ∧ bindingRow db b.id row = b := by
  have sorted := List.mem_of_mem_take read
  rw [List.mem_insertionSort,List.mem_map] at sorted
  obtain ⟨⟨i,row⟩,inside,rfl⟩ := sorted
  exact ⟨row,AList.mem_lookup_iff.mpr (List.mem_filter.mp inside).1,rfl⟩

theorem reconcile_ok (faithful : ∀ rows, fingerprint rows = fingerprint (bindingSQL r.rows r.project) → rows = bindingSQL r.rows r.project)
    (read : (bindingSQL r.rows r.project).find? (fun b => b.id = r.id) = some b) (observed : r.observed = some resources)
    (answered : reconcile fingerprint r db = .ok db') :
    ∃ floor, reservationFloor r.project b resources = .ok floor ∧ Updated r b floor db db' := by
  simp only [reconcile,bind_eq_ok,demand_eq_ok,found_eq_ok,read,observed,Option.some.injEq] at answered
  obtain ⟨_,_,_,_,_,_,_,_,_,_,_,_,_,rfl,_,rfl,floor,computed,answered⟩ := answered
  refine ⟨floor,computed,?_⟩
  simp only [reconcileReservations,bind_eq_ok,demand_eq_ok,pure_eq_ok] at answered
  obtain ⟨_,_,_,_,_,⟨_,unchanged⟩,_,_,rfl⟩ := answered
  have member := List.mem_of_find?_eq_some read
  rw [← faithful _ unchanged] at member
  have named : b.id = r.id := by simpa using List.find?_some read
  obtain ⟨row,there,same⟩ := mem_bindingSQL member
  rw [named] at there same
  refine ⟨⟨row,there,same,?_,?_⟩,fun j other => ?_,rfl,rfl,rfl,rfl⟩
  · show (modify r.id (raised floor) db.bindings).lookup r.id = _
    rw [lookup_modify,if_pos rfl,there]
    rfl
  · rw [← same]
    rfl
  · show (modify r.id (raised floor) db.bindings).lookup j = _
    rw [lookup_modify,if_neg other]

/-- A request about a binding with any other problem is refused. -/
theorem reconcile_refused (fingerprint : List InventoryBinding → Digest) (db : Db) (instances : (resources.instances.map (fun c => c.name)).Nodup)
    (volumes : (resources.volumes.map (fun v => v.name)).Nodup)
    (read : (bindingSQL r.rows r.project).find? (fun b => b.id = r.id) = some b) (observed : r.observed = some resources)
    (wrong : ¬Reconcilable r.project b resources) : ∃ e, reconcile fingerprint r db = .error e := by
  cases answered : reconcile fingerprint r db with
  | error e => exact ⟨e,rfl⟩
  | ok db' =>
    simp only [reconcile,bind_eq_ok,demand_eq_ok,found_eq_ok,read,observed,Option.some.injEq] at answered
    obtain ⟨_,_,_,_,_,_,_,_,_,_,_,_,_,rfl,_,rfl,floor,computed,_⟩ := answered
    exact absurd ((reservationFloor_ok instances volumes computed).reconcilable instances volumes) wrong

end

/-- A floor closes what was missing, and a binding with any other problem, or that is
    busy or not stable, is refused without an effect. -/
theorem reconcile_closes (project : ProjectId) (b : InventoryBinding) (resources : InventoryResources)
    (instances : (resources.instances.map (fun c => c.name)).Nodup) (volumes : (resources.volumes.map (fun v => v.name)).Nodup)
    (columns : Bigint b) :
    (∀ floor, reservationFloor project b resources = .ok floor → Closes project b resources floor) ∧
    ∀ {Digest : Type} [DecidableEq Digest] (fingerprint : List InventoryBinding → Digest) (r : Visit) (db : Db),
      r.project = project → (bindingSQL r.rows project).find? (fun b => b.id = r.id) = some b → r.observed = some resources →
      (¬Reconcilable project b resources → (∃ e, reconcile fingerprint r db = .error e) ∧ after fingerprint r db = db) ∧
      ∀ db', (∀ rows, fingerprint rows = fingerprint (bindingSQL r.rows project) → rows = bindingSQL r.rows project) →
        reconcile fingerprint r db = .ok db' →
        ∃ floor, reservationFloor project b resources = .ok floor ∧ Updated r b floor db db' := by
  refine ⟨fun floor computed => (reservationFloor_ok instances volumes computed).closes instances volumes columns,?_⟩
  rintro Digest _ fingerprint r db rfl read observed
  refine ⟨fun wrong => ?_,fun db' faithful answered => reconcile_ok faithful read observed answered⟩
  obtain ⟨e,refused⟩ := reconcile_refused fingerprint db instances volumes read observed wrong
  refine ⟨⟨e,refused⟩,?_⟩
  unfold after
  rw [refused]

/-- An instance of which no reservation is known. -/
def unknownBinding : InventoryBinding :=
  { steadyBinding with reservedStorageGib := none, reservedCpuMillis := none, reservedMemoryMib := some 600 }

theorem reconcile_closes_unknown : reservationFloor 1 unknownBinding steadyResources = .ok ⟨10,500,512⟩ ∧
    (raisedRow ⟨10,500,512⟩ unknownBinding).reservedMemoryMib = some 600 ∧
    Closes 1 unknownBinding steadyResources ⟨10,500,512⟩ := by
  have computed : reservationFloor 1 unknownBinding steadyResources = .ok ⟨10,500,512⟩ := by decide +kernel
  have columns : Bigint unknownBinding := by
    refine ⟨?_,?_,?_⟩ <;> rintro n ⟨⟩
    decide
  exact ⟨computed,rfl,(reconcile_closes 1 unknownBinding steadyResources (by decide) (by decide) columns).1 _ computed⟩

end Expbuild.Reconciling
