import Expbuild.Reservations

/-!
Quota admission: what the instances of a project reserve stays within its limits.
Every transaction that raises what counts checks the limits, except one: a rotation
that succeeds activates its instance, whatever became of it in the meantime.
-/
namespace Expbuild.Admission
open Expbuild.Contract Expbuild.Schema Expbuild.Tables Expbuild.Quotas Expbuild.Programs Expbuild.Runs Expbuild.Calls
open Expbuild.Transactions Expbuild.Effects Expbuild.Platform Expbuild.Licences Expbuild.Licensing Expbuild.Rows
open Expbuild.Reservations

/-! ### The limits -/

/-- A limit that is set is not exceeded. -/
def Bounded (limit : Option Nat) (amount : Nat) : Prop := ∀ l, limit = some l → amount ≤ l

/-- What is reserved is within the limits, and known where there are limits. -/
structure Within (limits : Quota) (reserved : Reserved) (unknown : Nat) : Prop where
  instances : Bounded limits.instances reserved.instances
  storageGiB : Bounded limits.storageGiB reserved.storageGiB
  cpuMillis : Bounded limits.cpuMillis reserved.cpuMillis
  memoryMiB : Bounded limits.memoryMiB reserved.memoryMiB
  known : Quota.limited limits = true → unknown = 0

/-- A quota without limits bounds nothing. -/
theorem unlimited (reserved : Reserved) (unknown : Nat) : Within {} reserved unknown := by
  constructor <;> simp [Bounded,Quota.limited]

/-- Every project is within its quota. -/
def QuotaHolds (db : Db) : Prop :=
  ∀ id project, db.projects.lookup id = some project →
    Within project.quotaLimits (reserved id db.bindings) (unknownReservations id db.bindings)

/-- No rotation succeeds on a released instance. -/
def RotatesLive (s : System) (l : Label) : Prop :=
  ∀ t o code change i b, Executes s l t (.db (.finish o .succeeded code change)) → o.kind = .rotate →
    held s.db o = true → o.instanceId = some i → s.db.bindings.lookup i = some b → b.lifecycle.released = false

theorem exceeds_iff (limit : Option Nat) (amount : Nat) : exceeds limit amount = false ↔ Bounded limit amount := by
  cases limit with
  | none => simp [exceeds,Bounded]
  | some l => simp [exceeds,Bounded]

theorem checkQuota_ok {limits : Quota} {reserved : Reserved} {unknown : Nat}
    (checks : checkQuota limits reserved unknown = .ok ()) : Within limits reserved unknown := by
  unfold checkQuota at checks
  split at checks
  · cases checks
  · rename_i known
    split at checks
    · cases checks
    · rename_i instances
      split at checks
      · cases checks
      · rename_i storage
        split at checks
        · cases checks
        · rename_i cpu
          split at checks
          · cases checks
          · rename_i memory
            simp only [Bool.not_eq_true] at instances storage cpu memory
            refine ⟨(exceeds_iff _ _).mp instances,(exceeds_iff _ _).mp storage,(exceeds_iff _ _).mp cpu,
              (exceeds_iff _ _).mp memory,fun limited => ?_⟩
            by_contra some'
            exact known ⟨some',limited⟩

theorem checked_ok {db : Db} {projectId : ProjectId} (checks : checked db projectId = .ok ()) {project : Project}
    (row : db.projects.lookup projectId = some project) :
    Within project.quotaLimits (reserved projectId db.bindings) (unknownReservations projectId db.bindings) := by
  simp only [checked,bind_eq_ok,quotaSnapshot,row] at checks
  obtain ⟨snapshot,same,checks⟩ := checks
  cases same
  exact checkQuota_ok checks

/-! ### Rows that reserve no more -/

/-- A row reserves no more than another, for any project. -/
structure Lowers (projectId : ProjectId) (b b' : Binding) : Prop where
  instances : usesInstance projectId b' ≤ usesInstance projectId b
  storageGiB : usesStorage projectId b' ≤ usesStorage projectId b
  cpuMillis : usesCpu projectId b' ≤ usesCpu projectId b
  memoryMiB : usesMemory projectId b' ≤ usesMemory projectId b
  unknown : usesUnknown projectId b' ≤ usesUnknown projectId b

theorem Within.lower {limits : Quota} {r r' : Reserved} {unknown unknown' : Nat} (within : Within limits r unknown)
    (instances : r'.instances ≤ r.instances) (storage : r'.storageGiB ≤ r.storageGiB) (cpu : r'.cpuMillis ≤ r.cpuMillis)
    (memory : r'.memoryMiB ≤ r.memoryMiB) (known : unknown' ≤ unknown) : Within limits r' unknown' where
  instances l limit := Nat.le_trans instances (within.instances l limit)
  storageGiB l limit := Nat.le_trans storage (within.storageGiB l limit)
  cpuMillis l limit := Nat.le_trans cpu (within.cpuMillis l limit)
  memoryMiB l limit := Nat.le_trans memory (within.memoryMiB l limit)
  known limited := by have := within.known limited; omega

/-- Changing one row into one that reserves no more. -/
theorem Within.modify {limits : Quota} {projectId : ProjectId} {i : InstanceId} {f : Binding → Binding}
    {bindings : Table InstanceId Binding}
    (within : Within limits (reserved projectId bindings) (unknownReservations projectId bindings))
    (lowers : ∀ b, bindings.lookup i = some b → Lowers projectId b (f b)) :
    Within limits (reserved projectId (modify i f bindings)) (unknownReservations projectId (modify i f bindings)) :=
  within.lower (total_modify_le (fun _ => usesInstance projectId) i f bindings (fun b row => (lowers b row).instances))
    (total_modify_le (fun _ => usesStorage projectId) i f bindings (fun b row => (lowers b row).storageGiB))
    (total_modify_le (fun _ => usesCpu projectId) i f bindings (fun b row => (lowers b row).cpuMillis))
    (total_modify_le (fun _ => usesMemory projectId) i f bindings (fun b row => (lowers b row).memoryMiB))
    (total_modify_le (fun _ => usesUnknown projectId) i f bindings (fun b row => (lowers b row).unknown))

theorem reserved_congr {projectId : ProjectId} {bindings bindings' : Table InstanceId Binding}
    (same : ∀ i, bindings'.lookup i = bindings.lookup i) :
    reserved projectId bindings' = reserved projectId bindings ∧
      unknownReservations projectId bindings' = unknownReservations projectId bindings := by
  simp only [reserved,unknownReservations,total_congr _ same,and_self]

section
variable {projectId : ProjectId} {b b' : Binding}

theorem lowers_refl (projectId : ProjectId) (b : Binding) : Lowers projectId b b :=
  ⟨Nat.le_refl _,Nat.le_refl _,Nat.le_refl _,Nat.le_refl _,Nat.le_refl _⟩

theorem Lowers.trans {b'' : Binding} (first : Lowers projectId b b') (second : Lowers projectId b' b'') :
    Lowers projectId b b'' where
  instances := Nat.le_trans second.instances first.instances
  storageGiB := Nat.le_trans second.storageGiB first.storageGiB
  cpuMillis := Nat.le_trans second.cpuMillis first.cpuMillis
  memoryMiB := Nat.le_trans second.memoryMiB first.memoryMiB
  unknown := Nat.le_trans second.unknown first.unknown

/-- The rows of other projects do not count. -/
theorem lowers_other (other : b'.projectId ≠ projectId) : Lowers projectId b b' := by
  constructor <;> simp [usesInstance,usesStorage,usesCpu,usesMemory,usesUnknown,counted,other]

theorem lowers_congr (project : b'.projectId = b.projectId) (lifecycle : b'.lifecycle = b.lifecycle)
    (same : columns b' = columns b) : Lowers projectId b b' := by
  obtain ⟨storage,cpu,memory⟩ : b'.reservedStorageGib = b.reservedStorageGib ∧
      b'.reservedCpuMillis = b.reservedCpuMillis ∧ b'.reservedMemoryMib = b.reservedMemoryMib := by
    simpa [columns] using same
  constructor <;>
    simp [usesInstance,usesStorage,usesCpu,usesMemory,usesUnknown,unresolved,project,lifecycle,storage,cpu,memory]

theorem counted_le (included : Bool) (column : Option Nat) : counted included column ≤ column.getD 0 := by
  unfold counted
  split
  · exact Nat.le_refl _
  · exact Nat.zero_le _

theorem counted_mono (included : Bool) {n m : Nat} (le : n ≤ m) : counted included (some n) ≤ counted included (some m) := by
  unfold counted
  split
  · exact le
  · exact Nat.le_refl _

theorem unresolved_iff (b : Binding) : unresolved b = true ↔ b.lifecycle ≠ .deleted ∧ (b.reservedStorageGib = none ∨
    (b.lifecycle ≠ .detached ∧ (b.reservedCpuMillis = none ∨ b.reservedMemoryMib = none))) := by
  simp [unresolved]

/-- Whatever becomes of an instance that is not released, it reserves no more. -/
theorem lowers_enter (unreleased : b.lifecycle.released = false) (lifecycle : Lifecycle) :
    Lowers projectId b (enter lifecycle b) := by
  obtain ⟨undeleted,undetached⟩ : b.lifecycle ≠ .deleted ∧ b.lifecycle ≠ .detached := by
    constructor <;> (intro same; rw [same] at unreleased; cases unreleased)
  by_cases own : b.projectId = projectId
  · refine ⟨?_,?_,?_,?_,?_⟩
    · simp only [usesInstance,own,unreleased,and_self,if_true]
      split <;> omega
    · have full : usesStorage projectId b = b.reservedStorageGib.getD 0 := by simp [usesStorage,counted,own,undeleted]
      rw [full]
      exact counted_le _ _
    · have full : usesCpu projectId b = b.reservedCpuMillis.getD 0 := by simp [usesCpu,counted,own,unreleased]
      rw [full]
      exact counted_le _ _
    · have full : usesMemory projectId b = b.reservedMemoryMib.getD 0 := by simp [usesMemory,counted,own,unreleased]
      rw [full]
      exact counted_le _ _
    · have known : unresolved (enter lifecycle b) = true → unresolved b = true := by
        rw [unresolved_iff,unresolved_iff]
        rintro ⟨_,missing⟩
        exact ⟨undeleted,missing.imp id (fun missing => ⟨undetached,missing.2⟩)⟩
      unfold usesUnknown
      split
      · rename_i counts
        exact Nat.le_of_eq (if_pos ⟨own,known counts.2⟩).symm
      · exact Nat.zero_le _
  · exact lowers_other own

/-- A deleted instance reserves nothing. -/
theorem lowers_deleted : Lowers projectId b (enter .deleted b) := by
  constructor <;>
    simp [usesInstance,usesStorage,usesCpu,usesMemory,usesUnknown,unresolved,counted,enter,Lifecycle.released]

/-- Settling what is reserved anyway. -/
theorem lowers_settle {r : Resources} (reserves : Reserves b r) : Lowers projectId b (Binding.settle r b) := by
  obtain ⟨⟨n,storage,le⟩,⟨m,cpu,le'⟩,⟨k,memory,le''⟩⟩ := reserves
  have same : (Binding.settle r b).reservedStorageGib = b.reservedStorageGib := by
    simp only [Binding.settle,greatest,storage,Nat.max_eq_left le]
  refine ⟨Nat.le_refl _,?_,?_,?_,?_⟩
  · simp only [usesStorage,same]
    exact Nat.le_refl _
  · unfold usesCpu
    rw [cpu]
    exact counted_mono _ le'
  · unfold usesMemory
    rw [memory]
    exact counted_mono _ le''
  · have known : unresolved (Binding.settle r b) = false := by
      simp [unresolved,same,storage,show (Binding.settle r b).reservedCpuMillis = some r.cpuMillis from rfl,
        show (Binding.settle r b).reservedMemoryMib = some r.memoryMiB from rfl]
    simp [usesUnknown,known]

theorem settles_of_creates {kind : Kind} (creates : kind.creates = true) : kind.settles = true := by
  cases kind <;> simp_all [Kind.creates,Kind.settles]
theorem rotate_of_applies {kind : Kind} (applies : kind.applies = true) (unsettled : ¬kind.settles = true) :
    kind = .rotate := by
  cases kind <;> simp_all [Kind.applies,Kind.settles]

/-- How a worker ends an operation lowers what its instance reserves. -/
theorem lowers_finished {db : Db} {past : Past} {o : Operation} {state : OpState} {change : Change} {i : InstanceId}
    {id : OperationId} {row : Operation} (reserving : Reserving db) (finishes : Finishes past o state change)
    (found : db.operations.lookup id = some row) (active : row.state.active = true) (same : asked row = asked o)
    (current : ¬Outdated db row) (own : o.instanceId = some i) (present : db.bindings.lookup i = some b)
    (live : o.kind = .rotate → state = .succeeded → b.lifecycle.released = false) :
    Lowers projectId b (finishedBinding o state change b) := by
  have placed : row.instanceId = some i := (asked_instanceId same).trans own
  have kinds : row.kind = o.kind := asked_kind same
  have unreleased : o.kind.settles = true → b.lifecycle.released = false := fun settles =>
    reserving.unreleased found (by rw [kinds]; exact settles) active placed present
  cases finishes with
  | failed =>
    by_cases creates : o.kind.creates = true
    · rw [finishedBinding_failed creates]
      exact lowers_enter (unreleased (settles_of_creates creates)) _
    · rw [finishedBinding_plain (by simp) (by simp [creates])]
      exact lowers_refl _ _
  | superseded why =>
    rw [finishedBinding_plain (by simp) (by simp)]
    exact lowers_refl _ _
  | project kind =>
    rw [finishedBinding_plain (by simp [kind,Kind.settles]) (by simp)]
    exact lowers_refl _ _
  | volume kind =>
    rw [finishedBinding_plain (by simp [kind,Kind.settles]) (by simp)]
    exact lowers_deleted
  | released kind space named absent unrecorded =>
    have deleting := reserving.deleting found (by rw [kinds]; exact kind) active placed present
    rw [finishedBinding_plain (by simp [kind,Kind.settles]) (by simp)]
    exact lowers_enter (by rw [deleting]; rfl) _
  | activated applies compared generation own' ready =>
    rename_i desired c target
    have activated : ∀ name, b.lifecycle.released = false →
        Lowers projectId b { enter .active b with displayName := name } := fun name unreleased =>
      (lowers_enter unreleased .active).trans (lowers_congr rfl rfl rfl)
    by_cases settles : o.kind.settles = true
    · -- what is settled was reserved for this operation
      have covers := (reserving.covered found (by rw [kinds]; exact settles) current placed present).congr
        (fun _ reserves => reserves) same.symm
      obtain ⟨desired',r,asks,amounts,reserves⟩ := covers
      rw [finishedBinding_succeeded]
      simp only [settledBinding,asks,Option.bind_some,amounts,settles,and_self,if_true]
      refine (activated _ (unreleased settles)).trans (lowers_settle ?_)
      exact reserves.congr rfl
    · rw [finishedBinding_plain (by simp [settles]) (by simp)]
      exact activated _ (live (rotate_of_applies applies settles) rfl)

end

/-! ### One transaction -/

section
variable {db db' : Db} {c : DbCall}

/-- A new row of another project does not count. -/
theorem Within.insert_other {limits : Quota} {projectId : ProjectId} {i : InstanceId} {b : Binding}
    {bindings : Table InstanceId Binding}
    (within : Within limits (reserved projectId bindings) (unknownReservations projectId bindings))
    (unused : bindings.lookup i = none) (other : b.projectId ≠ projectId) :
    Within limits (reserved projectId (bindings.insert i b)) (unknownReservations projectId (bindings.insert i b)) := by
  have same : reserved projectId (bindings.insert i b) = reserved projectId bindings ∧
      unknownReservations projectId (bindings.insert i b) = unknownReservations projectId bindings := by
    simp only [reserved,unknownReservations,total_insert _ _ unused]
    simp [usesInstance,usesStorage,usesCpu,usesMemory,usesUnknown,counted,other]
  rw [same.1,same.2]
  exact within

/-- Where limits stay, it is enough that rows reserve no more. -/
theorem QuotaHolds.lower (quota : QuotaHolds db)
    (grants : ∀ id, (db'.projects.lookup id).map grant = (db.projects.lookup id).map grant)
    (rows : ∀ id limits, Within limits (reserved id db.bindings) (unknownReservations id db.bindings) →
      Within limits (reserved id db'.bindings) (unknownReservations id db'.bindings)) : QuotaHolds db' := by
  intro id project' row'
  have same := grants id
  rw [row'] at same
  obtain ⟨project,row,grants'⟩ := Option.map_eq_some_iff.mp same.symm
  have limits : project'.quotaLimits = project.quotaLimits := (congrArg Prod.snd grants').symm
  rw [limits]
  exact rows id _ (quota id project row)

theorem QuotaHolds.modify (quota : QuotaHolds db) {i : InstanceId} {f : Binding → Binding}
    (projects : db'.projects = db.projects) (bindings : db'.bindings = modify i f db.bindings)
    (lowers : ∀ projectId b, db.bindings.lookup i = some b → Lowers projectId b (f b)) : QuotaHolds db' := by
  refine quota.lower (fun id => by rw [projects]) (fun id limits within => ?_)
  rw [bindings]
  exact within.modify (lowers id)

/-- A request whose rows were checked against the limits of its project. -/
theorem QuotaHolds.accept (quota : QuotaHolds db) {projectId : ProjectId} (projects : db'.projects = db.projects)
    (within : checked { db with bindings := db'.bindings } projectId = .ok ())
    (others : ∀ id limits, id ≠ projectId → Within limits (reserved id db.bindings) (unknownReservations id db.bindings) →
      Within limits (reserved id db'.bindings) (unknownReservations id db'.bindings)) : QuotaHolds db' := by
  intro id project row
  rw [projects] at row
  by_cases own : id = projectId
  · subst own
    exact checked_ok within row
  · exact others id _ own (quota id project row)

theorem QuotaHolds.admitted (quota : QuotaHolds db) {o : Operation} {bindings : Table InstanceId Binding}
    {credentials : List Credential} (admits : Admits db c o bindings credentials)
    (projects : db'.projects = db.projects) (rows : db'.bindings = bindings) : QuotaHolds db' := by
  -- the row that a request changes is one of its own project
  have elsewhere : ∀ {i : InstanceId} {f : Binding → Binding} {b : Binding} {projectId : ProjectId},
      db.bindings.lookup i = some b → b.projectId = projectId → (∀ b, (f b).projectId = b.projectId) →
      ∀ id limits, id ≠ projectId → Within limits (reserved id db.bindings) (unknownReservations id db.bindings) →
        Within limits (reserved id (Tables.modify i f db.bindings)) (unknownReservations id (Tables.modify i f db.bindings)) := by
    intro i f b projectId present owner keeps id limits other within
    refine within.modify (fun b' row => lowers_other ?_)
    rw [present] at row
    cases row
    rw [keeps,owner]
    exact Ne.symm other
  cases admits with
  | create locked asked unused new within =>
    refine quota.accept projects (by rw [rows]; exact within) (fun id limits other before => ?_)
    rw [rows]
    subst new
    refine (before.insert_other unused (Ne.symm other)).modify (fun b found => lowers_other ?_)
    rw [AList.lookup_insert] at found
    cases found
    exact Ne.symm other
  | update present project known unreleased within =>
    refine quota.accept projects (by rw [rows]; exact within) ?_
    rw [rows]
    exact elsewhere present project (fun _ => rfl)
  | reclaim present owner retained same within =>
    refine quota.accept projects (by rw [rows]; exact within) ?_
    rw [rows]
    exact elsewhere present owner (fun _ => rfl)
  | delete present owner locked bound unreleased =>
    refine quota.modify projects rows (fun projectId b row => ?_)
    rw [present] at row
    cases row
    exact lowers_enter unreleased _
  | rotate | volumeDelete _ _ _ _ _ =>
    refine quota.lower (fun id => by rw [projects]) (fun _ _ within => ?_)
    rw [rows]
    exact within

theorem QuotaHolds.finished (quota : QuotaHolds db) (sound : Sound db) (reserving : Reserving db) {past : Past}
    {o : Operation} {state : OpState} {code : Option String} {change : Change} {settled : Db} (e : AuditEvent)
    (holds : held db o = true) (copy : Copy db o) (finishes : Finishes past o state change)
    (settles : settleFinished o state (applyChange o change db) = .ok settled)
    (live : ∀ {i b}, o.kind = .rotate → state = .succeeded → o.instanceId = some i → db.bindings.lookup i = some b →
      b.lifecycle.released = false) :
    QuotaHolds (audit e (markFailed o state (updateOperation o.id (ended db.now state code) settled))) := by
  refine quota.lower (finished_projects settles _) (fun id limits within => ?_)
  cases own : o.instanceId with
  | none =>
    have same : ∀ i, (audit e (markFailed o state (updateOperation o.id (ended db.now state code) settled))).bindings.lookup i =
        db.bindings.lookup i := by
      intro i
      rw [finished_bindings settles,own]
      simp
    rw [(reserved_congr same).1,(reserved_congr same).2]
    exact within
  | some i =>
    have same : ∀ j, (audit e (markFailed o state (updateOperation o.id (ended db.now state code) settled))).bindings.lookup j =
        (Tables.modify i (finishedBinding o state change) db.bindings).lookup j := by
      intro j
      rw [finished_bindings settles,own,lookup_modify]
      simp [eq_comm]
    rw [(reserved_congr same).1,(reserved_congr same).2]
    obtain ⟨row,found,active,_⟩ := held_some holds
    obtain ⟨row',found',asks⟩ := copy
    rw [found] at found'
    cases found'
    have current := sound.current found active (by rw [asked_instanceId asks,own]; rfl)
    exact within.modify (fun b present =>
      lowers_finished reserving finishes found active asks current own present (fun kind ok => live kind ok own present))

theorem QuotaHolds.txn (sound : Sound db) (reserving : Reserving db) (quota : QuotaHolds db) (txn : Txn db c db')
    (ends : ∀ o state code change, c = .finish o state code change → held db o = true →
      Copy db o ∧ (∃ past, Finishes past o state change) ∧ ∀ {i b}, o.kind = .rotate → state = .succeeded →
        o.instanceId = some i → db.bindings.lookup i = some b → b.lifecycle.released = false) : QuotaHolds db' := by
  cases txn with
  | unchanged _ | claimed _ _ | deferred | recorded => exact quota
  | finished holds settles =>
    obtain ⟨copy,⟨past,finishes⟩,live⟩ := ends _ _ _ _ rfl holds
    exact quota.finished sound reserving _ holds copy finishes settles live
  | bound holds instanceId row may => exact quota.modify rfl rfl (fun _ _ _ => lowers_congr rfl rfl rfl)
  | admitted admits insertable named notRetry => exact quota.admitted admits rfl rfl
  | resumed row may instanceId present available newest alone =>
    rename_i o i b
    by_cases creates : o.kind.creates = true
    · refine quota.modify rfl (if_pos creates) (fun projectId b' row => ?_)
      rw [present] at row
      cases row
      have other : o.kind ≠ .delete := by rintro delete; rw [delete] at creates; cases creates
      simp [reconcilable,other] at available
      exact lowers_enter available.2.2 _
    · refine quota.lower (fun _ => rfl) (fun id limits within => ?_)
      simp only [creates,Bool.false_eq_true,if_false]
      exact within
  | limited current within =>
    rename_i caller limits expected snapshot
    intro id project row
    rcases lookup_modify_some row with ⟨_,found⟩ | ⟨rfl,old,found,rfl⟩
    · exact quota id project found
    · simp only [quotaSnapshot,found,Except.ok.injEq] at current
      subst current
      exact checkQuota_ok within
  | projectCreated new unused insertable =>
    intro id project row
    rcases lookup_insert_some row with ⟨_,rfl⟩ | ⟨_,row⟩
    · exact unlimited _ _
    · exact quota id project row
  | projectRetried new insertable =>
    exact quota.lower (fun id => grant_modify id _ (fun _ => rfl)) (fun _ _ within => within)

end

/-! ### Every run -/

section
variable {s s' : System} {l : Label}

/-- The invariant of a run that rotates live instances only. -/
structure Admitting (s : System) : Prop where
  consistent : Consistent s
  reserving : Reserving s.db
  quota : QuotaHolds s.db

theorem Admitting.step (holds : Admitting s) (live : RotatesLive s l) (moved : step l s = some s') : Admitting s' := by
  refine ⟨holds.consistent.step moved,reserving_step holds.consistent holds.reserving moved,?_⟩
  rcases step_db moved with idle | ⟨t,c,x,pick,v,makes,executes,ran⟩
  · refine holds.quota.lower (fun id => by rw [idle.projects]) (fun id limits within => ?_)
    rw [idle.bindings]
    exact within
  · refine holds.quota.txn holds.consistent.sound holds.reserving (transact_cases ran) ?_
    rintro o state code change rfl lease
    obtain ⟨claimed,finishes⟩ : Claimed t.history o ∧ Finishes t.history o state change := licensed_makes makes
    refine ⟨holds.consistent.copy makes.member claimed,⟨_,finishes⟩,?_⟩
    rintro i b kind rfl own present
    exact live t o code change i b executes kind lease own present

/-- From any state of a run in which the quota holds, it holds in every state reached
    by steps that let no rotation succeed on a released instance. -/
theorem quota_respected {s₀ s₁ : System} (start : Start s₀) (before : Reaches step (fun _ _ => True) s₀ s₁)
    (within : QuotaHolds s₁.db) (reached : Reaches step RotatesLive s₁ s) : QuotaHolds s.db := by
  have base : Consistent s₁ ∧ Reserving s₁.db := by
    refine before.invariant (I := fun s => Consistent s ∧ Reserving s.db)
      ⟨Consistent.start start,reserving_start start⟩ ?_
    rintro t u l ⟨consistent,reserving⟩ _ moved
    exact ⟨consistent.step moved,reserving_step consistent reserving moved⟩
  have holds : Admitting s := by
    refine reached.invariant ⟨base.1,base.2,within⟩ ?_
    intro t u l holds live moved
    exact holds.step live moved
  exact holds.quota

end

/-- Whether a step does not end a rotation. -/
def unrotated (s : System) (l : Label) : Bool :=
  (calling s l).all (fun
    | .db (.finish o _ _ _) => o.kind ≠ .rotate
    | _ => true)

theorem rotatesLive_of_unrotated (s : System) (l : Label) (check : unrotated s l = true) : RotatesLive s l := by
  intro t o code change i b executes kind
  simp [unrotated,executes_calling executes,kind] at check

theorem quotaHolds_small : QuotaHolds small.db := by
  intro id project row
  rcases lookup_insert_some row with ⟨_,rfl⟩ | ⟨_,row⟩
  · exact unlimited _ _
  · simp at row

theorem quota_respected_failing : ∃ s : System, (s.db.operations.lookup 100).any (fun o => o.state = .failed) ∧
    QuotaHolds s.db := by
  obtain ⟨s,reached,holds⟩ := reaches_of_run rotatesLive_of_unrotated
    (show (run step unrotated failing small).any
      (fun s => (s.db.operations.lookup 100).any (fun o => o.state = .failed)) = true by decide +kernel)
  exact ⟨s,holds,quota_respected small_start .refl quotaHolds_small reached⟩

/-- The instance of a failed creation counts as deleted, the quota of its project is
    lowered to nothing, and then its credentials are rotated. -/
def reviving : List Label :=
  releasing ++ [.request smallOptions (.updateQuota (administrator "quota") { instances := some 0 } 1)] ++ calls 5 3 ++
    [.request smallOptions (.rotateCredentials (administrator "rotate") 100 ⟨some 0,some 1⟩)] ++ calls 6 5 ++
    [.tick false] ++ calls 7 8 { operation := 106 } ++ [reports 2 "True" "Ready",.wait 3,.tick false] ++
    calls 8 8 { operation := 106 }

/-- The rotation activates the instance without a check. -/
theorem rotation_exceeds_quota : QuotaHolds small.db ∧
    ∃ s, Reaches step (fun _ _ => True) small s ∧ ¬QuotaHolds s.db := by
  refine ⟨quotaHolds_small,?_⟩
  obtain ⟨s,reached,holds⟩ := reaches_of_run (fun _ _ _ => trivial)
    (show (run step (fun _ _ => true) reviving small).any (fun s =>
      (s.db.projects.lookup 1).any (fun p => p.quotaLimits.instances = some 0) &&
        (reserved 1 s.db.bindings).instances = 1) = true by decide +kernel)
  simp only [Bool.and_eq_true,Option.any_eq_true,decide_eq_true_eq] at holds
  obtain ⟨⟨project,row,limit⟩,counts⟩ := holds
  refine ⟨s,reached,fun quota => ?_⟩
  have := (quota 1 project row).instances 0 limit
  omega

end Expbuild.Admission
