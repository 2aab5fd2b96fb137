import Expbuild.Inventory
import Expbuild.Readings

/-!
When an inventory is healthy. `BindingSound` says of one binding what has to be
observed of its instance and its volume, without the order of the checks in
`compareInventory`; a comparison is healthy exactly where every binding is sound and
idle and nothing else is observed, and otherwise it counts every issue once
(`inventory_exact`).
-/
namespace Expbuild.Drift
open Expbuild.Contract Expbuild.Schema Expbuild.Quantities Expbuild.Readings Expbuild.Inventory

/-! ### What has to be observed -/

/-- The quantities that are there are covered by what is reserved, in units. -/
def Covered (values : List (Option String)) (reserved : Option Nat) (unit : ℚ) : Prop :=
  ∃ n, reserved = some n ∧ ∀ value, some value ∈ values → ∃ q, Reads value q ∧ q ≤ n * unit

def gib : ℚ := 1024 ^ 3
def mib : ℚ := 1024 ^ 2
def millis : ℚ := 10 ^ (-3 : Int)

/-- The labels of a resource of the instance. -/
structure Labelled (project : ProjectId) (b : InventoryBinding) (found : Labels) : Prop where
  ofProject : found.projectId = some project
  id : found.instanceId = some b.id
  managed : found.managed = true

/-- An instance that is the binding's own, as it was configured. -/
structure InstanceOwn (project : ProjectId) (b : InventoryBinding) (c : CacheObject) : Prop where
  ofProject : c.spec.projectId = project
  id : c.spec.instanceId = b.id
  uid : ∃ uid, b.kubernetesUid = some uid ∧ c.uid = some uid
  labels : Labelled project b c.labels
  stays : c.deleting = false
  template : c.spec.templateName = b.templateName
  version : b.templateVersion = some c.spec.templateVersion
  expected : ∀ spec, b.expectedSpec = some spec → c.spec = spec

structure InstanceSound (project : ProjectId) (b : InventoryBinding) (c : CacheObject) : Prop extends InstanceOwn project b c where
  storage : Covered [some c.spec.storage.capacity] b.reservedStorageGib gib
  cpu : Covered [c.spec.requests.cpu,c.spec.limits.cpu] b.reservedCpuMillis millis
  memory : Covered [c.spec.requests.memory,c.spec.limits.memory] b.reservedMemoryMib mib

/-- A volume that is the binding's own, and bound. -/
structure VolumeOwn (project : ProjectId) (b : InventoryBinding) (v : InventoryVolume) : Prop where
  labels : Labelled project b v.labels
  uid : ∃ uid, b.kubernetesUid = some uid ∧ v.labels.instanceUid = some uid
  owned : ∀ owner ∈ v.owners, b.kubernetesUid = some owner.uid ∧ owner.kind = "CacheInstance" ∧ owner.name = b.resourceName
  detached : b.lifecycle = .detached → v.owners = []
  stays : v.deleting = false
  bound : v.phase = some "Bound"

structure VolumeSound (project : ProjectId) (b : InventoryBinding) (v : InventoryVolume) : Prop extends VolumeOwn project b v where
  storage : Covered [v.requested,v.capacity] b.reservedStorageGib gib

structure BindingSound (project : ProjectId) (b : InventoryBinding) (resources : InventoryResources) : Prop where
  idle : b.busy = false
  released : b.lifecycle.released = true → ∀ c ∈ resources.instances, c.name ≠ b.resourceName
  running : b.lifecycle.released = false → ∃ c ∈ resources.instances, c.name = b.resourceName ∧ InstanceSound project b c
  deleted : b.lifecycle = .deleted → ∀ v ∈ resources.volumes, v.name ≠ some (.data b.resourceName)
  stored : b.lifecycle = .active ∨ b.lifecycle = .detached → ∃ v ∈ resources.volumes, v.name = some (.data b.resourceName)
  volumes : ∀ v ∈ resources.volumes, v.name = some (.data b.resourceName) → VolumeSound project b v

/-- The reservations are columns of type `bigint`. -/
structure Bigint (b : InventoryBinding) : Prop where
  storage : ∀ n, b.reservedStorageGib = some n → n < 2 ^ 63
  cpu : ∀ n, b.reservedCpuMillis = some n → n < 2 ^ 63
  memory : ∀ n, b.reservedMemoryMib = some n → n < 2 ^ 63

/-! ### The checks -/

theorem mapM_isSome {α β : Type} {f : α → Option β} {xs : List α} {ys : List β} (mapped : xs.mapM f = some ys) :
    ∀ x ∈ xs, ∃ y ∈ ys, f x = some y := by
  induction xs generalizing ys with
  | nil => simp
  | cons x xs ih =>
    rw [List.mapM_cons] at mapped
    simp only [Option.bind_eq_bind,Option.bind_eq_some_iff,Option.pure_def,Option.some.injEq] at mapped
    obtain ⟨y,first,rest,others,rfl⟩ := mapped
    intro z member
    rcases List.mem_cons.mp member with rfl | member
    · exact ⟨y,List.mem_cons_self,first⟩
    · obtain ⟨w,inside,same⟩ := ih others z member
      exact ⟨w,List.mem_cons_of_mem _ inside,same⟩

theorem mapM_all {α β : Type} {f : α → Option β} {xs : List α} {y : β} (all : ∀ x ∈ xs, f x = some y) :
    xs.mapM f = some (List.replicate xs.length y) := by
  induction xs with
  | nil => rfl
  | cons x xs ih =>
    rw [List.mapM_cons,all x List.mem_cons_self,ih (fun z member => all z (List.mem_cons_of_mem _ member))]
    rfl

/-- A reservation is in order exactly where it covers what is observed. -/
theorem checkReservation_nil (values : List (Option String)) {reserved : Option Nat} {suffix : String} {unit : ℚ}
    (small : ∀ n, reserved = some n → n < 2 ^ 63) (short : suffix.length ≤ 2) (suffixed : Suffix suffix.toList unit 0) :
    checkReservation values reserved suffix = [] ↔ Covered values reserved unit := by
  cases reserved with
  | none => simp [checkReservation,Covered]
  | some n =>
    have reads := reads_whole (small n rfl) short suffixed
    have within (value : String) : quantityExceeds value (toString n ++ suffix) = some false ↔ ∃ q, Reads value q ∧ q ≤ n * unit := by
      rw [quantityExceeds_reads]
      constructor
      · rintro ⟨p,q,left,right,decides⟩
        rw [right.unique reads] at decides
        exact ⟨p,left,not_lt.mp (fun above => absurd (decides.mpr above) (by decide))⟩
      · rintro ⟨p,left,below⟩
        exact ⟨p,_,left,reads,by simp [below]⟩
    have members : ∀ value, value ∈ values.filterMap id ↔ some value ∈ values := by simp
    simp only [checkReservation]
    constructor
    · intro fine
      split at fine
      · cases fine
      · rename_i exceeded mapped
        split at fine
        · cases fine
        · rename_i none_
          refine ⟨n,rfl,fun value member => (within value).mp ?_⟩
          obtain ⟨answer,inside,same⟩ := mapM_isSome mapped value ((members value).mpr member)
          cases answer with
          | true => exact absurd (List.any_eq_true.mpr ⟨true,inside,rfl⟩) none_
          | false => exact same
    · rintro ⟨m,same,covers⟩
      cases same
      have all : ∀ value ∈ values.filterMap id, quantityExceeds value (toString n ++ suffix) = some false :=
        fun value member => (within value).mpr (covers value ((members value).mp member))
      rw [mapM_all all]
      simp

theorem suffix_gib : Suffix "Gi".toList gib 0 := .binary (by decide)
theorem suffix_mib : Suffix "Mi".toList mib 0 := .binary (by decide)
theorem suffix_millis : Suffix "m".toList millis 0 := .decimal (by decide)

section
variable {project : ProjectId} {b : InventoryBinding}

theorem labelled_iff {found : Labels} : labelled project b found = true ↔ Labelled project b found := by
  simp only [labelled,Bool.and_eq_true,decide_eq_true_eq]
  constructor
  · rintro ⟨⟨h₁,h₂⟩,h₃⟩
    exact ⟨h₁,h₂,h₃⟩
  · rintro ⟨h₁,h₂,h₃⟩
    exact ⟨⟨h₁,h₂⟩,h₃⟩

/-- An instance of a released binding is always an issue. -/
theorem instanceIssues_released {c : CacheObject} (released : b.lifecycle.released = true) : instanceIssues project b c ≠ [] := by
  unfold instanceIssues
  simp only [released,Bool.not_true,Bool.false_and,Bool.false_eq_true,if_false,if_true,List.append_nil]
  split
  · simp
  · split <;> simp

/-- The codes of `checkReservation`. -/
def Reserves (code : IssueCode) : Prop :=
  code = .resourceReservationUnknown ∨ code = .resourceReservationInsufficient ∨ code = .resourceQuantityInvalid

/-- The reservations of an instance of its own are checked. -/
theorem instanceIssues_eq {c : CacheObject} (running : b.lifecycle.released = false) (own : InstanceOwn project b c) :
    instanceIssues project b c = checkReservation [some c.spec.storage.capacity] b.reservedStorageGib "Gi" ++
      checkReservation [c.spec.requests.cpu,c.spec.limits.cpu] b.reservedCpuMillis "m" ++
      checkReservation [c.spec.requests.memory,c.spec.limits.memory] b.reservedMemoryMib "Mi" := by
  obtain ⟨project_,id_,⟨uid,known,same⟩,labels,stays,template,version,expected⟩ := own
  have own : (decide (c.spec.projectId = project) && decide (c.spec.instanceId = b.id) && b.kubernetesUid.isSome &&
      decide (c.uid = b.kubernetesUid)) = true := by
    simp [project_,id_,known,same]
  have anyway : b.expectedSpec.any (fun spec => !decide (c.spec = spec)) = false := by
    cases recorded : b.expectedSpec with
    | none => rfl
    | some spec => simp [expected spec recorded]
  unfold instanceIssues
  simp [running,own,labelled_iff.mpr labels,stays,template,version,anyway]

/-- Where nothing but reservations is an issue, the instance is its own. -/
theorem instanceIssues_own {c : CacheObject} (running : b.lifecycle.released = false)
    (only : ∀ code ∈ instanceIssues project b c, Reserves code) : InstanceOwn project b c := by
  unfold instanceIssues at only
  simp only [running,Bool.not_false,Bool.true_and,Bool.false_eq_true,if_false,List.mem_append] at only
  have chain := fun code member => only code (.inl member)
  -- every branch of the chain but its last one raises another code
  split at chain
  · exact absurd (chain _ List.mem_cons_self) (by simp [Reserves])
  rename_i own
  split at chain
  · exact absurd (chain _ List.mem_cons_self) (by simp [Reserves])
  rename_i labels
  split at chain
  · exact absurd (chain _ List.mem_cons_self) (by simp [Reserves])
  rename_i stays
  split at chain
  · exact absurd (chain _ List.mem_cons_self) (by simp [Reserves])
  rename_i template
  split at chain
  · exact absurd (chain _ List.mem_cons_self) (by simp [Reserves])
  rename_i version
  split at chain
  · exact absurd (chain _ List.mem_cons_self) (by simp [Reserves])
  rename_i expected
  simp only [Bool.not_eq_true',Bool.not_eq_false] at own labels
  simp only [Bool.and_eq_true,decide_eq_true_eq] at own
  obtain ⟨⟨⟨project_,id_⟩,known⟩,uid⟩ := own
  obtain ⟨uid',known⟩ := Option.isSome_iff_exists.mp known
  rw [not_or] at template
  obtain ⟨version',known'⟩ := Option.ne_none_iff_exists'.mp version
  rw [known'] at template
  simp only [Option.any_some,decide_eq_true_eq,not_not] at template
  refine ⟨project_,id_,⟨uid',known,by rw [uid,known]⟩,labelled_iff.mp labels,by simpa using stays,template.1,?_,?_⟩
  · rw [known',template.2]
  · intro spec recorded
    rw [recorded] at expected
    simpa using expected

theorem instanceIssues_nil {c : CacheObject} (columns : Bigint b) (running : b.lifecycle.released = false) :
    instanceIssues project b c = [] ↔ InstanceSound project b c := by
  have storage := checkReservation_nil [some c.spec.storage.capacity] columns.storage (by decide) suffix_gib
  have cpu := checkReservation_nil [c.spec.requests.cpu,c.spec.limits.cpu] columns.cpu (by decide) suffix_millis
  have memory := checkReservation_nil [c.spec.requests.memory,c.spec.limits.memory] columns.memory (by decide)
    suffix_mib
  constructor
  · intro fine
    have own : InstanceOwn project b c := instanceIssues_own running (fun code member => by rw [fine] at member; cases member)
    rw [instanceIssues_eq running own,List.append_eq_nil_iff,List.append_eq_nil_iff] at fine
    exact ⟨own,storage.mp fine.1.1,cpu.mp fine.1.2,memory.mp fine.2⟩
  · rintro ⟨own,fits,fitsCpu,fitsMemory⟩
    rw [instanceIssues_eq running own,storage.mpr fits,cpu.mpr fitsCpu,memory.mpr fitsMemory]
    rfl

/-- A volume of a deleted binding is always an issue. -/
theorem volumeIssues_deleted {v : InventoryVolume} (deleted : b.lifecycle = .deleted) : volumeIssues project b v ≠ [] := by
  unfold volumeIssues
  split
  · simp
  · simp

theorem volumeIssues_eq {v : InventoryVolume} (there : b.lifecycle ≠ .deleted) (own : VolumeOwn project b v) :
    volumeIssues project b v = checkReservation [v.requested,v.capacity] b.reservedStorageGib "Gi" := by
  obtain ⟨labels,⟨uid,known,same⟩,owned,detached,stays,bound⟩ := own
  have owners : v.owners.any (fun owner => decide (some owner.uid ≠ b.kubernetesUid) || decide (owner.kind ≠ "CacheInstance") ||
      decide (owner.name ≠ b.resourceName)) = false := by
    rw [List.any_eq_false]
    intro owner member
    obtain ⟨one,two,three⟩ := owned owner member
    simp [one,two,three]
  unfold volumeIssues
  rw [if_neg,if_neg there]
  · simp [stays,bound]
  · rintro (wrong | wrong | wrong | wrong | wrong)
    · rw [known] at wrong
      cases wrong
    · rw [labelled_iff.mpr labels] at wrong
      cases wrong
    · exact wrong (same.trans known.symm)
    · rw [owners] at wrong
      cases wrong
    · exact wrong.2 (detached wrong.1)

/-- Where nothing but reservations is an issue, the volume is its own. -/
theorem volumeIssues_own {v : InventoryVolume} (there : b.lifecycle ≠ .deleted)
    (only : ∀ code ∈ volumeIssues project b v, Reserves code) : VolumeOwn project b v := by
  unfold volumeIssues at only
  rw [if_neg there] at only
  split at only
  · exact absurd (only _ List.mem_cons_self) (by simp [Reserves])
  rename_i own
  split at only
  · exact absurd (only _ List.mem_cons_self) (by simp [Reserves])
  rename_i stays
  simp only [not_or,not_and,Bool.not_eq_true',Bool.not_eq_false,ne_eq,not_not] at own
  obtain ⟨known,labels,uid,owners,detached⟩ := own
  obtain ⟨uid',known⟩ := Option.ne_none_iff_exists'.mp known
  refine ⟨labelled_iff.mp labels,⟨uid',known,by rw [uid,known]⟩,?_,detached,by simpa using stays,?_⟩
  · intro owner member
    have fine : ¬_ := fun bad => owners (List.any_eq_true.mpr ⟨owner,member,bad⟩)
    simp only [Bool.or_eq_true,decide_eq_true_eq,not_or,not_not] at fine
    exact ⟨fine.1.1.symm,fine.1.2,fine.2⟩
  · by_contra unbound
    rw [if_neg unbound] at only
    exact absurd (only _ (List.mem_append_left _ List.mem_cons_self)) (by simp [Reserves])

theorem volumeIssues_nil {v : InventoryVolume} (columns : Bigint b) (there : b.lifecycle ≠ .deleted) :
    volumeIssues project b v = [] ↔ VolumeSound project b v := by
  have storage := checkReservation_nil [v.requested,v.capacity] columns.storage (by decide) suffix_gib
  constructor
  · intro fine
    have own : VolumeOwn project b v := volumeIssues_own there (fun code member => by rw [fine] at member; cases member)
    rw [volumeIssues_eq there own] at fine
    exact ⟨own,storage.mp fine⟩
  · rintro ⟨own,fits⟩
    rw [volumeIssues_eq there own]
    exact storage.mpr fits

end

/-! ### The maps -/

section
variable {K V : Type} [DecidableEq K]

theorem foldl_setEntry {entries rows : List (K × V)} (distinct : (rows.map (fun e => e.1)).Nodup)
    (fresh : ∀ e ∈ rows, e.1 ∉ entries.map (fun e => e.1)) :
    rows.foldl (fun entries row => setEntry entries row.1 row.2) entries = entries ++ rows := by
  induction rows generalizing entries with
  | nil => simp
  | cons row rows ih =>
    rw [List.map_cons,List.nodup_cons] at distinct
    have new : entries.any (fun e => decide (e.1 = row.1)) = false := by
      rw [List.any_eq_false]
      intro e member same
      exact fresh row List.mem_cons_self (List.mem_map.mpr ⟨e,member,of_decide_eq_true same⟩)
    have set_ : setEntry entries row.1 row.2 = entries ++ [row] := by simp [setEntry,new]
    rw [List.foldl_cons,set_,ih distinct.2]
    · simp
    · intro e member
      rw [List.map_append,List.mem_append,not_or]
      refine ⟨fresh e (List.mem_cons_of_mem _ member),?_⟩
      simp only [List.map_cons,List.map_nil,List.mem_singleton]
      intro same
      exact distinct.1 (List.mem_map.mpr ⟨e,member,same⟩)

/-- A map with unique keys has its entries in their order. -/
theorem mapOf_distinct {rows : List (K × V)} (distinct : (rows.map (fun e => e.1)).Nodup) : mapOf rows = rows :=
  foldl_setEntry distinct (fun _ _ wrong => (by cases wrong))

theorem getEntry_delete {entries : List (K × V)} {j k : K} (other : j ≠ k) :
    getEntry (deleteEntry entries k) j = getEntry entries j := by
  unfold getEntry deleteEntry
  rw [List.find?_filter]
  congr 1
  congr 1
  funext e
  by_cases same : e.1 = j
  · simp [same,other]
  · simp [same]

/-- What an entry of a list with unique names is found by. -/
theorem getEntry_some {xs : List V} {name : V → K} {k : K} {x : V} (distinct : (xs.map name).Nodup) :
    getEntry (xs.map (fun x => (name x,x))) k = some x ↔ x ∈ xs ∧ name x = k := by
  induction xs with
  | nil => simp [getEntry]
  | cons y ys ih =>
    rw [List.map_cons,List.nodup_cons] at distinct
    have rest := ih distinct.2
    by_cases same : name y = k
    · have found : getEntry ((y :: ys).map (fun x => (name x,x))) k = some y := by simp [getEntry,same]
      rw [found,Option.some.injEq,List.mem_cons]
      constructor
      · rintro rfl
        exact ⟨.inl rfl,same⟩
      · rintro ⟨rfl | member,named⟩
        · rfl
        · exact absurd (List.mem_map.mpr ⟨x,member,named.trans same.symm⟩) distinct.1
    · have next : getEntry ((y :: ys).map (fun x => (name x,x))) k = getEntry (ys.map (fun x => (name x,x))) k := by
        simp [getEntry,same]
      rw [next,rest,List.mem_cons]
      constructor
      · rintro ⟨member,named⟩
        exact ⟨.inr member,named⟩
      · rintro ⟨rfl | member,named⟩
        · exact absurd named same
        · exact ⟨member,named⟩

theorem getEntry_none {xs : List V} {name : V → K} {k : K} (distinct : (xs.map name).Nodup) :
    getEntry (xs.map (fun x => (name x,x))) k = none ↔ ∀ x ∈ xs, name x ≠ k := by
  rw [Option.eq_none_iff_forall_ne_some]
  constructor
  · intro missing x member named
    exact missing x ((getEntry_some distinct).mpr ⟨member,named⟩)
  · intro missing x found
    obtain ⟨member,named⟩ := (getEntry_some distinct).mp found
    exact missing x member named

end
/-! ### The comparison as a whole -/

section
variable (project : ProjectId)

/-- The issues of a binding, if it is idle, among the resources that are left. -/
def idleIssues (s : Comparison) (b : InventoryBinding) : List InventoryIssue :=
  if b.busy then [] else
    bindingIssues project b (getEntry s.instances b.resourceName) (getEntry s.volumes (some (.data b.resourceName)))

theorem compareBinding_eq (b : InventoryBinding) (s : Comparison) : compareBinding project b s =
    { instances := deleteEntry s.instances b.resourceName
      volumes := deleteEntry s.volumes (some (.data b.resourceName))
      issues := s.issues ++ idleIssues project s b
      busyInstances := s.busyInstances + if b.busy then 1 else 0 } := by
  unfold compareBinding idleIssues
  by_cases busy : b.busy = true
  · simp [busy]
  · simp [busy]

theorem delete_filter {K V : Type} [DecidableEq K] (entries : List (K × V)) (k : K) (p : K × V → Bool) :
    (deleteEntry entries k).filter p = entries.filter (fun e => decide (e.1 ≠ k) && p e) := by
  unfold deleteEntry
  rw [List.filter_filter]
  congr 1
  funext e
  rw [Bool.and_comm]

theorem compare_fold {bindings : List InventoryBinding} (distinct : (bindings.map (fun b => b.resourceName)).Nodup)
    (s : Comparison) : bindings.foldl (fun s b => compareBinding project b s) s =
      { instances := s.instances.filter (fun e => bindings.all (fun b => e.1 ≠ b.resourceName))
        volumes := s.volumes.filter (fun e => bindings.all (fun b => e.1 ≠ some (.data b.resourceName)))
        issues := s.issues ++ bindings.flatMap (idleIssues project s)
        busyInstances := s.busyInstances + bindings.countP (fun b => b.busy) } := by
  induction bindings generalizing s with
  | nil => simp
  | cons b rest ih =>
    rw [List.map_cons,List.nodup_cons] at distinct
    rw [List.foldl_cons,ih distinct.2,compareBinding_eq]
    -- later bindings have other names, and find what was there before
    have later : ∀ a ∈ rest, idleIssues project ⟨deleteEntry s.instances b.resourceName,
        deleteEntry s.volumes (some (.data b.resourceName)),s.issues ++ idleIssues project s b,
        s.busyInstances + if b.busy then 1 else 0⟩ a = idleIssues project s a := by
      intro a member
      have other : a.resourceName ≠ b.resourceName := by
        intro same
        exact distinct.1 (List.mem_map.mpr ⟨a,member,same⟩)
      have claim : (some (.data a.resourceName) : Option ClaimName) ≠ some (.data b.resourceName) := by simpa using other
      unfold idleIssues
      rw [getEntry_delete other,getEntry_delete claim]
    rw [List.flatMap_def,List.map_congr_left later,← List.flatMap_def]
    simp only [delete_filter,List.all_cons,List.flatMap_cons,List.append_assoc,List.countP_cons,Comparison.mk.injEq,true_and]
    omega

end

theorem nodup_eraseDups {α : Type} [DecidableEq α] (xs : List α) : xs.eraseDups.Nodup := by
  induction n : xs.length using Nat.strong_induction_on generalizing xs with
  | _ n ih =>
    subst n
    cases xs with
    | nil => exact List.nodup_nil
    | cons x xs =>
      rw [List.eraseDups_cons,List.nodup_cons]
      refine ⟨fun member => ?_,ih _ (Nat.lt_succ_of_le (List.length_filter_le _ _)) _ rfl⟩
      rw [List.mem_eraseDups,List.mem_filter] at member
      simp at member

section
variable {project : ProjectId} {b : InventoryBinding} {c : Option CacheObject} {v : Option InventoryVolume}

/-- The codes that are raised for the instance of a binding, and for its volume. -/
def instanceCodes (project : ProjectId) (b : InventoryBinding) : Option CacheObject → List IssueCode
  | some c => instanceIssues project b c
  | none => if b.lifecycle.released then [] else [if b.lifecycle = .active then .missingInstance else .provisioningIncomplete]
def volumeCodes (project : ProjectId) (b : InventoryBinding) : Option InventoryVolume → List IssueCode
  | some v => volumeIssues project b v
  | none => if b.lifecycle = .detached then [.missingRetainedVolume] else if b.lifecycle = .active then [.missingVolume] else []

theorem bindingIssues_eq : bindingIssues project b c v =
    (instanceCodes project b c).eraseDups.map (fun code => ⟨code,.cacheInstance b.resourceName,some b.id⟩) ++
      (volumeCodes project b v).eraseDups.map (fun code => ⟨code,.persistentVolumeClaim (some (.data b.resourceName)),some b.id⟩) := by
  cases c <;> cases v <;> rfl

theorem mem_bindingIssues {i : InventoryIssue} : i ∈ bindingIssues project b c v ↔
    (∃ code ∈ instanceCodes project b c, i = ⟨code,.cacheInstance b.resourceName,some b.id⟩) ∨
      (∃ code ∈ volumeCodes project b v, i = ⟨code,.persistentVolumeClaim (some (.data b.resourceName)),some b.id⟩) := by
  simp only [bindingIssues_eq,List.mem_append,List.mem_map,List.mem_eraseDups,eq_comm]

theorem bindingIssues_nil : bindingIssues project b c v = [] ↔ instanceCodes project b c = [] ∧ volumeCodes project b v = [] := by
  have erased {codes : List IssueCode} : codes.eraseDups = [] ↔ codes = [] := by
    constructor
    · intro none_
      refine List.eq_nil_iff_forall_not_mem.mpr (fun code member => ?_)
      rw [← List.mem_eraseDups,none_] at member
      cases member
    · rintro rfl
      rfl
  rw [bindingIssues_eq,List.append_eq_nil_iff,List.map_eq_nil_iff,List.map_eq_nil_iff,erased,erased]

theorem bindingIssues_nodup : (bindingIssues project b c v).Nodup := by
  rw [bindingIssues_eq,List.nodup_append]
  refine ⟨(nodup_eraseDups _).map (fun x y same => (by cases same; rfl)),(nodup_eraseDups _).map (fun x y same => (by cases same; rfl)),?_⟩
  intro i first j second same
  obtain ⟨_,_,rfl⟩ := List.mem_map.mp first
  obtain ⟨_,_,rfl⟩ := List.mem_map.mp second
  cases same

end

/-- What is observed under the names of a binding. -/
def observedInstance (resources : InventoryResources) (b : InventoryBinding) : Option CacheObject :=
  getEntry (resources.instances.map (fun c => (c.name,c))) b.resourceName
def observedVolume (resources : InventoryResources) (b : InventoryBinding) : Option InventoryVolume :=
  getEntry (resources.volumes.map (fun v => (v.name,v))) (some (.data b.resourceName))

/-- The issue that an object without a binding is. -/
def untrackedInstance (c : CacheObject) : InventoryIssue := ⟨.untrackedInstance,.cacheInstance c.name,none⟩
def untrackedVolume (v : InventoryVolume) : InventoryIssue := ⟨.untrackedVolume,.persistentVolumeClaim v.name,none⟩

/-- The issues that a comparison raises: those of the idle bindings, and the objects
    that no binding names. -/
inductive Raised (project : ProjectId) (bindings : List InventoryBinding) (resources : InventoryResources) :
    InventoryIssue → Prop where
  | binding {b : InventoryBinding} {i : InventoryIssue} (known : b ∈ bindings) (idle : b.busy = false)
      (raised : i ∈ bindingIssues project b (observedInstance resources b) (observedVolume resources b)) :
      Raised project bindings resources i
  | strangeInstance {c : CacheObject} (seen : c ∈ resources.instances) (unnamed : ∀ b ∈ bindings, c.name ≠ b.resourceName) :
      Raised project bindings resources (untrackedInstance c)
  | strangeVolume {v : InventoryVolume} (seen : v ∈ resources.volumes)
      (unnamed : ∀ b ∈ bindings, v.name ≠ some (.data b.resourceName)) : Raised project bindings resources (untrackedVolume v)

section
variable {project : ProjectId} {bindings : List InventoryBinding} {resources : InventoryResources}

/-- All issues, in the order in which they are raised. -/
def allIssues (project : ProjectId) (bindings : List InventoryBinding) (resources : InventoryResources) : List InventoryIssue :=
  (bindings.filter (fun b => !b.busy)).flatMap
      (fun b => bindingIssues project b (observedInstance resources b) (observedVolume resources b)) ++
    ((resources.instances.filter (fun c => bindings.all (fun b => c.name ≠ b.resourceName))).map untrackedInstance ++
      (resources.volumes.filter (fun v => bindings.all (fun b => v.name ≠ some (.data b.resourceName)))).map untrackedVolume)

theorem flatMap_idle {s : Comparison} (instances : s.instances = resources.instances.map (fun c => (c.name,c)))
    (volumes : s.volumes = resources.volumes.map (fun v => (v.name,v))) :
    bindings.flatMap (idleIssues project s) = (bindings.filter (fun b => !b.busy)).flatMap
      (fun b => bindingIssues project b (observedInstance resources b) (observedVolume resources b)) := by
  induction bindings with
  | nil => rfl
  | cons b rest ih =>
    rw [List.flatMap_cons,ih]
    by_cases busy : b.busy = true
    · simp [idleIssues,busy]
    · simp [idleIssues,busy,observedInstance,observedVolume,instances,volumes]

theorem compareInventory_eq (distinct : (bindings.map (fun b => b.resourceName)).Nodup)
    (instances : (resources.instances.map (fun c => c.name)).Nodup) (volumes : (resources.volumes.map (fun v => v.name)).Nodup) :
    compareInventory project bindings resources =
      { state := if allIssues project bindings resources ≠ [] then .drift
          else if bindings.countP (fun b => b.busy) ≠ 0 then .inProgress else .healthy
        issues := (allIssues project bindings resources).take 200
        issueCount := (allIssues project bindings resources).length
        truncated := decide (200 < (allIssues project bindings resources).length)
        busyInstances := bindings.countP (fun b => b.busy)
        counts := some (resources.instances.length,resources.volumes.length) } := by
  have named : mapOf (resources.instances.map (fun c => (c.name,c))) = resources.instances.map (fun c => (c.name,c)) :=
    mapOf_distinct (by simpa [Function.comp_def] using instances)
  have claimed : mapOf (resources.volumes.map (fun v => (v.name,v))) = resources.volumes.map (fun v => (v.name,v)) :=
    mapOf_distinct (by simpa [Function.comp_def] using volumes)
  unfold compareInventory
  simp only [named,claimed]
  rw [compare_fold project distinct]
  have issues : bindings.flatMap (idleIssues project ⟨resources.instances.map (fun c => (c.name,c)),
      resources.volumes.map (fun v => (v.name,v)),[],0⟩) = (bindings.filter (fun b => !b.busy)).flatMap
      (fun b => bindingIssues project b (observedInstance resources b) (observedVolume resources b)) :=
    flatMap_idle rfl rfl
  have all : ([] ++ bindings.flatMap (idleIssues project ⟨resources.instances.map (fun c => (c.name,c)),
      resources.volumes.map (fun v => (v.name,v)),[],0⟩)) ++
      (((resources.instances.map (fun c => (c.name,c))).filter (fun e => bindings.all (fun b => e.1 ≠ b.resourceName))).map
          (fun e => (⟨.untrackedInstance,.cacheInstance e.2.name,none⟩ : InventoryIssue)) ++
        ((resources.volumes.map (fun v => (v.name,v))).filter
          (fun e => bindings.all (fun b => e.1 ≠ some (.data b.resourceName)))).map
          (fun e => (⟨.untrackedVolume,.persistentVolumeClaim e.2.name,none⟩ : InventoryIssue))) =
        allIssues project bindings resources := by
    rw [issues,allIssues,List.nil_append,List.filter_map,List.filter_map,List.map_map,List.map_map]
    rfl
  rw [all,Nat.zero_add]

theorem mem_allIssues {i : InventoryIssue} : i ∈ allIssues project bindings resources ↔ Raised project bindings resources i := by
  simp only [allIssues,List.mem_append,List.mem_flatMap,List.mem_filter,List.mem_map,List.all_eq_true,decide_eq_true_eq,
    Bool.not_eq_true']
  constructor
  · rintro (⟨b,⟨known,idle⟩,raised⟩ | ⟨c,⟨seen,unnamed⟩,rfl⟩ | ⟨v,⟨seen,unnamed⟩,rfl⟩)
    · exact .binding known idle raised
    · exact .strangeInstance seen unnamed
    · exact .strangeVolume seen unnamed
  · intro raised
    cases raised with
    | binding known idle raised => exact .inl ⟨_,⟨known,idle⟩,raised⟩
    | strangeInstance seen unnamed => exact .inr (.inl ⟨_,⟨seen,unnamed⟩,rfl⟩)
    | strangeVolume seen unnamed => exact .inr (.inr ⟨_,⟨seen,unnamed⟩,rfl⟩)

/-- The issues of a binding are about its names. -/
theorem bindingIssues_about {b : InventoryBinding} {c : Option CacheObject} {v : Option InventoryVolume} {i : InventoryIssue}
    (raised : i ∈ bindingIssues project b c v) : i.instanceId = some b.id ∧
      (i.resource = .cacheInstance b.resourceName ∨ i.resource = .persistentVolumeClaim (some (.data b.resourceName))) := by
  rcases mem_bindingIssues.mp raised with ⟨_,_,rfl⟩ | ⟨_,_,rfl⟩
  · exact ⟨rfl,.inl rfl⟩
  · exact ⟨rfl,.inr rfl⟩

theorem flatMap_nodup (distinct : (bindings.map (fun b => b.resourceName)).Nodup) :
    (bindings.flatMap (fun b => bindingIssues project b (observedInstance resources b) (observedVolume resources b))).Nodup := by
  induction bindings with
  | nil => exact List.nodup_nil
  | cons b rest ih =>
    rw [List.map_cons,List.nodup_cons] at distinct
    rw [List.flatMap_cons,List.nodup_append]
    refine ⟨bindingIssues_nodup,ih distinct.2,?_⟩
    rintro i first j second rfl
    obtain ⟨a,member,raised⟩ := List.mem_flatMap.mp second
    have one := (bindingIssues_about first).2
    have two := (bindingIssues_about raised).2
    have same : a.resourceName = b.resourceName := by
      rcases one with one | one <;> rcases two with two | two <;> rw [one] at two <;> simp_all
    exact distinct.1 (List.mem_map.mpr ⟨a,member,same⟩)

theorem allIssues_nodup (distinct : (bindings.map (fun b => b.resourceName)).Nodup)
    (instances : (resources.instances.map (fun c => c.name)).Nodup) (volumes : (resources.volumes.map (fun v => v.name)).Nodup) :
    (allIssues project bindings resources).Nodup := by
  unfold allIssues
  rw [List.nodup_append,List.nodup_append]
  have idle : ((bindings.filter (fun b => !b.busy)).map (fun b => b.resourceName)).Nodup :=
    distinct.sublist (List.Sublist.map _ List.filter_sublist)
  have strange : ((resources.instances.filter (fun c => bindings.all (fun b => c.name ≠ b.resourceName))).map untrackedInstance).Nodup := by
    refine List.Nodup.of_map (fun i => i.resource) ?_
    rw [List.map_map]
    have names := instances.sublist (List.Sublist.map (fun c : CacheObject => c.name)
      (List.filter_sublist (p := fun c => bindings.all (fun b => c.name ≠ b.resourceName))))
    have resources_ := names.map (f := Resource.cacheInstance) (fun x y same => (by cases same; rfl))
    rwa [List.map_map] at resources_
  have strangers : ((resources.volumes.filter (fun v => bindings.all (fun b => v.name ≠ some (.data b.resourceName)))).map
      untrackedVolume).Nodup := by
    refine List.Nodup.of_map (fun i => i.resource) ?_
    rw [List.map_map]
    have names := volumes.sublist (List.Sublist.map (fun v : InventoryVolume => v.name)
      (List.filter_sublist (p := fun v => bindings.all (fun b => v.name ≠ some (.data b.resourceName)))))
    have resources_ := names.map (f := Resource.persistentVolumeClaim) (fun x y same => (by cases same; rfl))
    rwa [List.map_map] at resources_
  refine ⟨flatMap_nodup idle,⟨strange,strangers,?_⟩,?_⟩
  · rintro i first j second rfl
    obtain ⟨c,_,rfl⟩ := List.mem_map.mp first
    obtain ⟨v,_,same⟩ := List.mem_map.mp second
    cases same
  · rintro i first j second rfl
    obtain ⟨b,_,raised⟩ := List.mem_flatMap.mp first
    have named := (bindingIssues_about raised).1
    rcases List.mem_append.mp second with second | second
    · obtain ⟨c,_,rfl⟩ := List.mem_map.mp second
      cases named
    · obtain ⟨v,_,rfl⟩ := List.mem_map.mp second
      cases named

end

section
variable {project : ProjectId} {bindings : List InventoryBinding} {resources : InventoryResources} {b : InventoryBinding}

theorem instanceCodes_nil (columns : Bigint b) (instances : (resources.instances.map (fun c => c.name)).Nodup) :
    instanceCodes project b (observedInstance resources b) = [] ↔
      (b.lifecycle.released = true → ∀ c ∈ resources.instances, c.name ≠ b.resourceName) ∧
      (b.lifecycle.released = false → ∃ c ∈ resources.instances, c.name = b.resourceName ∧ InstanceSound project b c) := by
  cases seen : observedInstance resources b with
  | none =>
    have missing := (getEntry_none instances).mp seen
    cases released : b.lifecycle.released with
    | true => simpa [instanceCodes,released] using missing
    | false =>
      simp only [instanceCodes,released,Bool.false_eq_true,if_false,List.cons_ne_nil,false_iff,false_implies,true_and,forall_const]
      rintro ⟨c,member,named,_⟩
      exact missing c member named
  | some c =>
    obtain ⟨member,named⟩ := (getEntry_some instances).mp seen
    cases released : b.lifecycle.released with
    | true =>
      simp only [instanceCodes,instanceIssues_released released,false_iff,not_and]
      intro absent
      exact absurd named (absent trivial c member)
    | false =>
      simp only [instanceCodes,instanceIssues_nil columns released,Bool.false_eq_true,false_implies,true_and,forall_const]
      constructor
      · intro sound
        exact ⟨c,member,named,sound⟩
      · rintro ⟨c',member',named',sound⟩
        have same := (getEntry_some instances).mpr ⟨member',named'⟩
        rw [show getEntry _ _ = some c from seen] at same
        cases same
        exact sound

theorem volumeCodes_nil (columns : Bigint b) (volumes : (resources.volumes.map (fun v => v.name)).Nodup) :
    volumeCodes project b (observedVolume resources b) = [] ↔
      (b.lifecycle = .deleted → ∀ v ∈ resources.volumes, v.name ≠ some (.data b.resourceName)) ∧
      (b.lifecycle = .active ∨ b.lifecycle = .detached → ∃ v ∈ resources.volumes, v.name = some (.data b.resourceName)) ∧
      (∀ v ∈ resources.volumes, v.name = some (.data b.resourceName) → VolumeSound project b v) := by
  cases seen : observedVolume resources b with
  | none =>
    have missing := (getEntry_none volumes).mp seen
    have nothing : (¬∃ v ∈ resources.volumes, v.name = some (.data b.resourceName)) := fun ⟨v,member,named⟩ => missing v member named
    have vacuous : ∀ v ∈ resources.volumes, v.name = some (.data b.resourceName) → VolumeSound project b v :=
      fun v member named => absurd named (missing v member)
    cases state : b.lifecycle <;> simp [volumeCodes,state,nothing] <;> first | exact vacuous | exact ⟨missing,vacuous⟩
  | some v =>
    obtain ⟨member,named⟩ := (getEntry_some volumes).mp seen
    by_cases deleted : b.lifecycle = .deleted
    · simp only [volumeCodes,volumeIssues_deleted deleted,false_iff,not_and]
      intro absent
      exact absurd named (absent deleted v member)
    · simp only [volumeCodes,volumeIssues_nil columns deleted,deleted,false_implies,true_and]
      constructor
      · intro sound
        refine ⟨fun _ => ⟨v,member,named⟩,fun v' member' named' => ?_⟩
        have same := (getEntry_some volumes).mpr ⟨member',named'⟩
        rw [show getEntry _ _ = some v from seen] at same
        cases same
        exact sound
      · rintro ⟨_,sound⟩
        exact sound v member named

/-- A binding raises no issue and is idle exactly where it is sound. -/
theorem bindingSound_iff (columns : Bigint b) (instances : (resources.instances.map (fun c => c.name)).Nodup)
    (volumes : (resources.volumes.map (fun v => v.name)).Nodup) : BindingSound project b resources ↔ b.busy = false ∧
      bindingIssues project b (observedInstance resources b) (observedVolume resources b) = [] := by
  rw [bindingIssues_nil,instanceCodes_nil columns instances,volumeCodes_nil columns volumes]
  constructor
  · rintro ⟨idle,released,running,deleted,stored,sound⟩
    exact ⟨idle,⟨released,running⟩,deleted,stored,sound⟩
  · rintro ⟨idle,⟨released,running⟩,deleted,stored,sound⟩
    exact ⟨idle,released,running,deleted,stored,sound⟩

theorem healthy_iff (distinct : (bindings.map (fun b => b.resourceName)).Nodup)
    (instances : (resources.instances.map (fun c => c.name)).Nodup) (volumes : (resources.volumes.map (fun v => v.name)).Nodup) :
    (compareInventory project bindings resources).state = .healthy ↔
      allIssues project bindings resources = [] ∧ ∀ b ∈ bindings, b.busy = false := by
  rw [compareInventory_eq distinct instances volumes]
  simp only
  by_cases none_ : allIssues project bindings resources = []
  · simp only [none_,ne_eq,not_true_eq_false,if_false,true_and]
    by_cases idle : bindings.countP (fun b => b.busy) = 0
    · simp only [idle,not_true_eq_false,if_false,true_iff]
      intro b member
      simpa using List.countP_eq_zero.mp idle b member
    · simp only [idle,not_false_eq_true,if_true,reduceCtorEq,false_iff]
      intro all
      exact idle (List.countP_eq_zero.mpr (fun b member => by simp [all b member]))
  · simp [none_]

/-- An object that no binding names is reported once, and any other never. -/
theorem count_untracked {i : InventoryIssue} (nodup : (allIssues project bindings resources).Nodup) (named : Prop)
    [Decidable named] (raised : Raised project bindings resources i ↔ ¬named) :
    (allIssues project bindings resources).count i = if named then 0 else 1 := by
  by_cases known : named
  · rw [if_pos known,List.count_eq_zero,mem_allIssues,raised]
    exact not_not_intro known
  · rw [if_neg known]
    exact List.count_eq_one_of_mem nodup (mem_allIssues.mpr (raised.mpr known))

end

/-- What the comparison reports, over all of its issues. -/
structure Reported (project : ProjectId) (bindings : List InventoryBinding) (resources : InventoryResources)
    (r : InventoryResult) (all : List InventoryIssue) : Prop where
  distinct : all.Nodup
  raised : ∀ i, i ∈ all ↔ Raised project bindings resources i
  issueCount : r.issueCount = all.length
  issues : r.issues = all.take 200
  truncated : r.truncated = decide (200 < all.length)
  instances : ∀ c ∈ resources.instances,
    all.count (untrackedInstance c) = if ∃ b ∈ bindings, b.resourceName = c.name then 0 else 1
  volumes : ∀ v ∈ resources.volumes,
    all.count (untrackedVolume v) = if ∃ b ∈ bindings, v.name = some (.data b.resourceName) then 0 else 1

/-- A project is healthy exactly where its bindings are sound and name everything that
    is observed; every issue is counted, once. -/
theorem inventory_exact (project : ProjectId) (bindings : List InventoryBinding) (resources : InventoryResources)
    (distinct : (bindings.map (fun b => b.resourceName)).Nodup) (instances : (resources.instances.map (fun c => c.name)).Nodup)
    (volumes : (resources.volumes.map (fun v => v.name)).Nodup) (columns : ∀ b ∈ bindings, Bigint b) :
    ((compareInventory project bindings resources).state = .healthy ↔
      (∀ b ∈ bindings, BindingSound project b resources) ∧
      (∀ c ∈ resources.instances, ∃ b ∈ bindings, b.resourceName = c.name) ∧
      (∀ v ∈ resources.volumes, ∃ b ∈ bindings, v.name = some (.data b.resourceName))) ∧
    ∃ all, Reported project bindings resources (compareInventory project bindings resources) all := by
  have nodup : (allIssues project bindings resources).Nodup := allIssues_nodup distinct instances volumes
  constructor
  · rw [healthy_iff distinct instances volumes,List.eq_nil_iff_forall_not_mem]
    simp only [mem_allIssues]
    constructor
    · rintro ⟨none_,idle⟩
      refine ⟨fun b member => ?_,fun c seen => ?_,fun v seen => ?_⟩
      · refine (bindingSound_iff (columns b member) instances volumes).mpr ⟨idle b member,?_⟩
        exact List.eq_nil_iff_forall_not_mem.mpr (fun i raised => none_ i (.binding member (idle b member) raised))
      · by_contra unnamed
        exact none_ _ (.strangeInstance seen (fun b member same => unnamed ⟨b,member,same.symm⟩))
      · by_contra unnamed
        exact none_ _ (.strangeVolume seen (fun b member same => unnamed ⟨b,member,same⟩))
    · rintro ⟨sound,named,claimed⟩
      refine ⟨fun i raised => ?_,fun b member => (sound b member).idle⟩
      cases raised with
      | @binding b _ member _ raised =>
        rw [((bindingSound_iff (columns b member) instances volumes).mp (sound b member)).2] at raised
        cases raised
      | strangeInstance seen unnamed =>
        obtain ⟨b,member,same⟩ := named _ seen
        exact unnamed b member same.symm
      | strangeVolume seen unnamed =>
        obtain ⟨b,member,same⟩ := claimed _ seen
        exact unnamed b member same
  · refine ⟨allIssues project bindings resources,nodup,fun i => mem_allIssues,?_,?_,?_,fun c seen => ?_,fun v seen => ?_⟩
    · rw [compareInventory_eq distinct instances volumes]
    · rw [compareInventory_eq distinct instances volumes]
    · rw [compareInventory_eq distinct instances volumes]
    · refine count_untracked nodup _ ⟨fun raised => ?_,fun unnamed => ?_⟩
      · generalize same : untrackedInstance c = i at raised
        cases raised with
        | binding _ _ raised =>
          have about := (bindingIssues_about raised).1
          rw [← same] at about
          cases about
        | @strangeInstance d _ unnamed =>
          have names : c.name = d.name := by simpa [untrackedInstance] using same
          rintro ⟨b,member,named⟩
          exact unnamed b member (names ▸ named.symm)
        | strangeVolume _ _ => cases same
      · exact .strangeInstance seen (fun b member same => unnamed ⟨b,member,same.symm⟩)
    · refine count_untracked nodup _ ⟨fun raised => ?_,fun unnamed => ?_⟩
      · generalize same : untrackedVolume v = i at raised
        cases raised with
        | binding _ _ raised =>
          have about := (bindingIssues_about raised).1
          rw [← same] at about
          cases about
        | strangeInstance _ _ => cases same
        | @strangeVolume w _ unnamed =>
          have names : v.name = w.name := by simpa [untrackedVolume] using same
          rintro ⟨b,member,named⟩
          exact unnamed b member (names ▸ named)
      · exact .strangeVolume seen (fun b member same => unnamed ⟨b,member,same⟩)

/-- An active instance with its volume. -/
def steadyInstance : CacheObject where
  apiVersion := "cache.expbuild.io/v1alpha1"
  kind := "CacheInstance"
  name := ⟨100⟩
  ns := ⟨1⟩
  labels := labels 1 (some 100)
  uid := some 5
  spec :=
    { instanceId := 100, projectId := 1, pinned := true, templateName := .bazelRemote, templateVersion := (templateDefinition .bazelRemote).version
      desiredState := .running, storage := ⟨"fast","10Gi",.delete,none⟩, access := ⟨.clusterInternal,.initial 100,none⟩
      eviction := ⟨5,(templateDefinition .bazelRemote).enginePolicy⟩, requests := ⟨some "500m",some "512Mi"⟩
      limits := ⟨some "500m",some "512Mi"⟩ }
def steadyBinding : InventoryBinding :=
  ⟨100,⟨100⟩,some 5,.active,.bazelRemote,some (templateDefinition .bazelRemote).version,some 10,some 500,some 512,false,some steadyInstance.spec,none⟩
def steadyResources : InventoryResources :=
  ⟨[steadyInstance],[{ name := some (.data ⟨100⟩), labels := { labels 1 (some 100) with instanceUid := some 5 }
                       phase := some "Bound", requested := some "10Gi", capacity := some "10Gi" }]⟩

theorem inventory_exact_steady : (compareInventory 1 [steadyBinding] steadyResources).state = .healthy ∧
    BindingSound 1 steadyBinding steadyResources := by
  have healthy : (compareInventory 1 [steadyBinding] steadyResources).state = .healthy := by decide +kernel
  have columns : ∀ b ∈ [steadyBinding], Bigint b := by
    intro b member
    obtain rfl := List.mem_singleton.mp member
    refine ⟨?_,?_,?_⟩ <;> rintro n ⟨⟩ <;> decide
  have sound := (inventory_exact 1 [steadyBinding] steadyResources (by decide) (by decide) (by decide) columns).1.mp healthy
  exact ⟨healthy,sound.1 steadyBinding List.mem_cons_self⟩

end Expbuild.Drift
