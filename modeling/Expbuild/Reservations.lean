import Expbuild.Rows

/-!
What reservations know about operations, in every run: the newest operation of an
instance that will settle reservations asks for no more than what is reserved
(`covered`), an instance with such an active operation is not released, and one with
an active deletion is being deleted.
-/
namespace Expbuild.Reservations
open Expbuild.Contract Expbuild.Schema Expbuild.Tables Expbuild.Quotas Expbuild.Programs Expbuild.Runs Expbuild.Calls
open Expbuild.Transactions Expbuild.Effects Expbuild.Platform Expbuild.Licences Expbuild.Licensing Expbuild.Rows

/-! ### What a request asks for -/

theorem requested_of_input {spec : Spec} {input : InstanceInput}
    (capacity : spec.storage.capacity = toString input.storageGiB ++ "Gi")
    (requests : spec.requests = ⟨some (toString input.cpuMillis ++ "m"),some (toString input.memoryMiB ++ "Mi")⟩) :
    requested spec = some (inputResources input) := by
  have storage : amount ['G','i'] (toString input.storageGiB ++ "Gi") = some input.storageGiB :=
    amount_toString input.storageGiB (by decide)
  have cpu : amount ['m'] (toString input.cpuMillis ++ "m") = some input.cpuMillis :=
    amount_toString input.cpuMillis (by decide)
  have memory : amount ['M','i'] (toString input.memoryMiB ++ "Mi") = some input.memoryMiB :=
    amount_toString input.memoryMiB (by decide)
  simp only [requested,capacity,requests,Option.getD_some,storage,cpu,memory]
  rfl

/-- The call asks for what its input says. -/
def Truthful : DbCall → Prop
  | .updateInstance _ _ input _ desired _ | .reclaimRetainedVolume _ _ _ _ input _ desired _ =>
    requested desired.spec = some (inputResources input)
  | _ => True

theorem truthful_makes {s s' : System} {t : Running} {c : DbCall} {x : (Call.db c).Answer}
    (makes : Makes s s' t (.db c) x) : Truthful c := by
  have licensed := licensed_makes makes
  cases c with
  | updateInstance caller instanceId input operationId desired expected =>
    obtain ⟨b,current,_,_,_,_,_,rfl⟩ := licensed
    exact requested_of_input rfl rfl
  | reclaimRetainedVolume caller instanceId prepared volumeUid input operationId desired credentials =>
    obtain ⟨b,storageClass,version,uid,_,_,_,rfl⟩ := licensed
    exact requested_of_input rfl rfl
  | _ => trivial

/-! ### The invariant -/

/-- At least this much is reserved. -/
structure Reserves (b : Binding) (r : Resources) : Prop where
  storage : ∃ n, b.reservedStorageGib = some n ∧ r.storageGiB ≤ n
  cpu : ∃ n, b.reservedCpuMillis = some n ∧ r.cpuMillis ≤ n
  memory : ∃ n, b.reservedMemoryMib = some n ∧ r.memoryMiB ≤ n

/-- The instance reserves what the operation asks for. -/
def Covers (b : Binding) (o : Operation) : Prop :=
  ∃ desired r, o.request.desired = some desired ∧ requested desired.spec = some r ∧ Reserves b r

structure Reserving (db : Db) : Prop where
  covered : ∀ {id o i b}, db.operations.lookup id = some o → o.kind.settles = true → ¬Outdated db o →
    o.instanceId = some i → db.bindings.lookup i = some b → Covers b o
  unreleased : ∀ {id o i b}, db.operations.lookup id = some o → o.kind.settles = true → o.state.active = true →
    o.instanceId = some i → db.bindings.lookup i = some b → b.lifecycle.released = false
  deleting : ∀ {id o i b}, db.operations.lookup id = some o → o.kind = .delete → o.state.active = true →
    o.instanceId = some i → db.bindings.lookup i = some b → b.lifecycle = .deleting

section
variable {b : Binding} {r : Resources}

theorem reserves_raise (b : Binding) (r : Resources) : Reserves (Binding.raise r b) r :=
  ⟨⟨_,rfl,Nat.le_max_right _ _⟩,⟨_,rfl,Nat.le_max_right _ _⟩,⟨_,rfl,Nat.le_max_right _ _⟩⟩

theorem Reserves.raise (reserves : Reserves b r) (more : Resources) : Reserves (Binding.raise more b) r := by
  obtain ⟨⟨n,storage,le⟩,⟨m,cpu,le'⟩,⟨k,memory,le''⟩⟩ := reserves
  refine ⟨⟨_,rfl,?_⟩,⟨_,rfl,?_⟩,⟨_,rfl,?_⟩⟩
  · rw [storage]; exact Nat.le_trans le (Nat.le_max_left _ _)
  · rw [cpu]; exact Nat.le_trans le' (Nat.le_max_left _ _)
  · rw [memory]; exact Nat.le_trans le'' (Nat.le_max_left _ _)

theorem Reserves.settle (reserves : Reserves b r) : Reserves (Binding.settle r b) r := by
  obtain ⟨⟨n,storage,le⟩,_,_⟩ := reserves
  refine ⟨⟨max n r.storageGiB,?_,Nat.le_max_right _ _⟩,⟨_,rfl,Nat.le_refl _⟩,⟨_,rfl,Nat.le_refl _⟩⟩
  simp only [Binding.settle,storage,greatest]

/-- The three columns of a row. -/
def columns (b : Binding) : Option Nat × Option Nat × Option Nat :=
  (b.reservedStorageGib,b.reservedCpuMillis,b.reservedMemoryMib)

theorem Reserves.congr {b' : Binding} (reserves : Reserves b r) (same : columns b' = columns b) : Reserves b' r := by
  obtain ⟨storage,cpu,memory⟩ : b'.reservedStorageGib = b.reservedStorageGib ∧
      b'.reservedCpuMillis = b.reservedCpuMillis ∧ b'.reservedMemoryMib = b.reservedMemoryMib := by
    simpa [columns] using same
  exact ⟨by rw [storage]; exact reserves.storage,by rw [cpu]; exact reserves.cpu,by rw [memory]; exact reserves.memory⟩

theorem columns_changed (change : Change) (b : Binding) : columns (changedBinding change b) = columns b := by
  cases change <;> rfl

theorem columns_failed (o : Operation) (state : OpState) (b : Binding) : columns (failedBinding o state b) = columns b := by
  unfold failedBinding
  split <;> rfl

/-- The end of an operation keeps what covers it. -/
theorem Covers.finished {o : Operation} (state : OpState) (change : Change) (covers : Covers b o) :
    Covers (finishedBinding o state change b) o := by
  obtain ⟨desired,r,asks,amounts,reserves⟩ := covers
  refine ⟨desired,r,asks,amounts,Reserves.congr ?_ (columns_failed _ _ _)⟩
  have changed := reserves.congr (columns_changed change b)
  simp only [settledBinding,asks,Option.bind_some,amounts]
  split
  · exact changed.settle
  · exact changed

theorem Covers.congr {b' : Binding} {o o' : Operation} (covers : Covers b o)
    (keeps : ∀ r, Reserves b r → Reserves b' r) (same : asked o' = asked o) : Covers b' o' := by
  obtain ⟨desired,r,asks,amounts,reserves⟩ := covers
  exact ⟨desired,r,(asked_desired same).trans asks,amounts,keeps r reserves⟩

end

/-! ### One transaction -/

section
variable {db db' : Db} {c : DbCall}

theorem Becomes.reserves {i : InstanceId} {b b' : Binding} (becomes : Becomes db c i b b')
    (unfinished : ¬∃ p state code change, c = .finish p state code change) {r : Resources} (reserves : Reserves b r) :
    Reserves b' r := by
  cases becomes with
  | same => exact reserves
  | finished holds own => exact absurd ⟨_,_,_,_,rfl⟩ unfinished
  | bound holds own may => exact reserves.congr rfl
  | raised unreleased => exact reserves.raise _
  | deleting bound unreleased => exact reserves.congr rfl
  | reopened retained uid => exact (show Reserves (enter .pending b) r from reserves.congr rfl).raise _
  | resumed row may creates own available => exact reserves.congr rfl

/-- A request that settles reservations is admitted with what it asks for, and not
    for a released instance. -/
theorem Admits.reserving {o : Operation} {bindings : Table InstanceId Binding} {credentials : List Credential}
    {i : InstanceId} {b : Binding} (admits : Admits db c o bindings credentials) (truthful : Truthful c)
    (settles : o.kind.settles = true) (own : o.instanceId = some i) (row : bindings.lookup i = some b) :
    Covers b o ∧ b.lifecycle.released = false := by
  cases admits with
  | create locked asked unused new within =>
    cases own
    rw [lookup_modify_self,AList.lookup_insert] at row
    cases row
    subst asked new
    exact ⟨⟨_,_,rfl,requested_of_input rfl rfl,reserves_raise _ _⟩,rfl⟩
  | update present project known unreleased within =>
    cases own
    rw [lookup_modify_self,present] at row
    cases row
    exact ⟨⟨_,_,rfl,truthful,reserves_raise _ _⟩,unreleased⟩
  | reclaim present owner retained same within =>
    cases own
    rw [lookup_modify_self,present] at row
    cases row
    exact ⟨⟨_,_,rfl,truthful,reserves_raise _ _⟩,rfl⟩
  | rotate => cases settles
  | delete _ _ _ _ _ => cases settles
  | volumeDelete _ _ _ _ _ => cases settles

theorem Admits.deleting {o : Operation} {bindings : Table InstanceId Binding} {credentials : List Credential}
    {i : InstanceId} {b : Binding} (admits : Admits db c o bindings credentials) (kind : o.kind = .delete)
    (own : o.instanceId = some i) (row : bindings.lookup i = some b) : b.lifecycle = .deleting := by
  cases admits with
  | delete present owner locked bound unreleased =>
    cases own
    rw [lookup_modify_self,present] at row
    cases row
    rfl
  | create _ _ _ _ _ | update _ _ _ _ _ | rotate | volumeDelete _ _ _ _ _ | reclaim _ _ _ _ _ => cases kind

/-- Nothing releases an instance but the operation that is active on it. -/
theorem Becomes.unreleased {i : InstanceId} {b b' : Binding} (becomes : Becomes db c i b b')
    (unfinished : ¬∃ p state code change, c = .finish p state code change) (unreleased : b.lifecycle.released = false) :
    b'.lifecycle.released = false := by
  cases becomes with
  | finished holds own => exact absurd ⟨_,_,_,_,rfl⟩ unfinished
  | same | bound _ _ _ | raised _ => exact unreleased
  | deleting _ _ | reopened _ _ | resumed _ _ _ _ _ => rfl

theorem Becomes.deleting {i : InstanceId} {b b' : Binding} (becomes : Becomes db c i b b')
    (unfinished : ¬∃ p state code change, c = .finish p state code change) (deleting : b.lifecycle = .deleting) :
    b'.lifecycle = .deleting := by
  cases becomes with
  | finished holds own => exact absurd ⟨_,_,_,_,rfl⟩ unfinished
  | same | bound _ _ _ | raised _ => exact deleting
  | deleting _ _ => rfl
  | reopened retained uid => rw [deleting] at retained; cases retained
  | resumed row may creates own available =>
    rename_i o
    have other : o.kind ≠ .delete := by rintro kind; rw [kind] at creates; cases creates
    simp [reconcilable,other,deleting] at available

/-- What an operation is about is not changed by the end of another one. -/
theorem finished_elsewhere (sound : Sound db) {p o : Operation} {id : OperationId} {i : InstanceId} {b b' : Binding}
    {state : OpState} {code : Option String} {change : Change} {settled : Db} {e : AuditEvent}
    (holds : held db p = true) (copy : Copy db p)
    (settles : settleFinished p state (applyChange p change db) = .ok settled) (row : db.operations.lookup id = some o)
    (instanceId : o.instanceId = some i) (current : ¬Outdated db o) (present : db.bindings.lookup i = some b)
    (present' : (audit e (markFailed p state (updateOperation p.id (ended db.now state code) settled))).bindings.lookup i =
      some b') : b' = b ∨ (id = p.id ∧ asked p = asked o ∧ b' = finishedBinding p state change b) := by
  rw [finished_bindings settles,present] at present'
  by_cases own : p.instanceId = some i
  · rw [if_pos own] at present'
    obtain ⟨key,same⟩ := sound.held_newest holds copy own row instanceId current
    exact .inr ⟨key,same,(Option.some.inj present').symm⟩
  · rw [if_neg own] at present'
    exact .inl (Option.some.inj present').symm

theorem Reserving.finished (sound : Sound db) (reserving : Reserving db) {p : Operation} {state : OpState}
    {code : Option String} {change : Change} {settled : Db} (e : AuditEvent) (holds : held db p = true)
    (copy : Copy db p) (ceased : state.active = false)
    (settles : settleFinished p state (applyChange p change db) = .ok settled)
    (evolves : Evolves db (audit e (markFailed p state (updateOperation p.id (ended db.now state code) settled)))) :
    Reserving (audit e (markFailed p state (updateOperation p.id (ended db.now state code) settled))) := by
  -- a row after the end is a row before, and the one that ended is not active
  have was : ∀ {id o'}, (modify p.id (ended db.now state code) db.operations).lookup id = some o' →
      ∃ o, db.operations.lookup id = some o ∧ asked o' = asked o ∧
        (o'.state.active = true → id ≠ p.id ∧ o.state.active = true) := by
    intro id o' row
    rcases lookup_modify_some row with ⟨other,found⟩ | ⟨rfl,o,found,rfl⟩
    · exact ⟨o',found,rfl,fun active => ⟨other,active⟩⟩
    · refine ⟨o,found,rfl,fun active => ?_⟩
      change state.active = true at active
      rw [ceased] at active
      cases active
  have stays : ∀ {o o'}, asked o' = asked o →
      Outdated db o → Outdated (audit e (markFailed p state (updateOperation p.id (ended db.now state code) settled))) o' := by
    intro o o' same outdated
    exact (outdated_congr same).mpr (outdated.evolves evolves)
  refine
    { covered := ?_, unreleased := ?_, deleting := ?_ }
  · intro id o' i b' row kind current own present
    rw [finished_operations settles] at row
    obtain ⟨o,found,same,_⟩ := was row
    have current' : ¬Outdated db o := fun outdated => current (stays same outdated)
    rw [asked_kind same] at kind
    rw [asked_instanceId same] at own
    obtain ⟨b,present₀,_⟩ := sound.owned found own
    have covers := reserving.covered found kind current' own present₀
    rcases finished_elsewhere sound holds copy settles found own current' present₀ present with rfl | ⟨_,asks,rfl⟩
    · exact covers.congr (fun _ reserves => reserves) same
    · have ended := (covers.congr (fun _ reserves => reserves) asks).finished state change
      exact ended.congr (fun _ reserves => reserves) (same.trans asks.symm)
  · intro id o' i b' row kind active own present
    rw [finished_operations settles] at row
    obtain ⟨o,found,same,awake⟩ := was row
    obtain ⟨other,active'⟩ := awake active
    rw [asked_kind same] at kind
    rw [asked_instanceId same] at own
    obtain ⟨b,present₀,_⟩ := sound.owned found own
    have current := sound.current found active' (by rw [own]; rfl)
    rcases finished_elsewhere sound holds copy settles found own current present₀ present with rfl | ⟨key,_⟩
    · exact reserving.unreleased found kind active' own present₀
    · exact absurd key other
  · intro id o' i b' row kind active own present
    rw [finished_operations settles] at row
    obtain ⟨o,found,same,awake⟩ := was row
    obtain ⟨other,active'⟩ := awake active
    rw [asked_kind same] at kind
    rw [asked_instanceId same] at own
    obtain ⟨b,present₀,_⟩ := sound.owned found own
    have current := sound.current found active' (by rw [own]; rfl)
    rcases finished_elsewhere sound holds copy settles found own current present₀ present with rfl | ⟨key,_⟩
    · exact reserving.deleting found kind active' own present₀
    · exact absurd key other

/-- An operation that becomes active again finds its instance as it left it. -/
theorem Progress.available {id : OperationId} {o o' : Operation} (progress : Progress db c id o o')
    (row : db.operations.lookup id = some o) (active : o'.state.active = true) {i : InstanceId} {b : Binding}
    (own : o.instanceId = some i) (present : db.bindings.lookup i = some b) :
    o.state.active = true ∨ reconcilable o b = true := by
  cases progress with
  | resumed may newest instanceId present' available =>
    rw [own] at instanceId
    cases instanceId
    rw [present] at present'
    cases present'
    exact .inr available
  | claimed free => simp only [claimable,Bool.and_eq_true] at free; exact .inl free.1.1
  | same | deferred _ | recorded _ => exact .inl active
  | finished holds | bound holds =>
    obtain ⟨held,found,active,_⟩ := held_some holds
    rw [row] at found
    cases found
    exact .inl active

theorem Reserving.txn (sound : Sound db) (reserving : Reserving db) (txn : Txn db c db') (truthful : Truthful c)
    (ends : ∀ o state code change, c = .finish o state code change → Copy db o ∧ state.active = false) :
    Reserving db' := by
  by_cases finish : ∃ p state code change, c = .finish p state code change
  · obtain ⟨p,state,code,change,rfl⟩ := finish
    obtain ⟨copy,ceased⟩ := ends p state code change rfl
    have evolves := Txn.evolves txn
    cases txn with
    | unchanged _ => exact reserving
    | finished holds settles => exact reserving.finished sound _ holds copy ceased settles evolves
    | admitted admits _ _ _ => cases admits
  · have was : ∀ {id o' i b'}, db'.operations.lookup id = some o' → o'.instanceId = some i →
        db'.bindings.lookup i = some b' →
        (∃ o b, db.operations.lookup id = some o ∧ Progress db c id o o' ∧ o.instanceId = some i ∧
          db.bindings.lookup i = some b ∧ Becomes db c i b b') ∨ Admits db c o' db'.bindings db'.credentials := by
      intro id o' i b' row own present
      cases found : db.operations.lookup id with
      | none =>
        rcases (Txn.opened txn found row).admitted with admits | ⟨_,none'⟩
        · exact .inr admits
        · rw [none'] at own; cases own
      | some o =>
        obtain ⟨o'',row',progress⟩ := Txn.operation txn found
        rw [row] at row'
        cases row'
        have own' : o.instanceId = some i := (asked_instanceId progress.asked).symm.trans own
        obtain ⟨b,present₀,_⟩ := sound.owned found own'
        obtain ⟨b'',present',becomes⟩ := Txn.binding txn present₀
        rw [present] at present'
        cases present'
        exact .inl ⟨o,b,rfl,progress,own',present₀,becomes⟩
    refine
      { covered := ?_, unreleased := ?_, deleting := ?_ }
    · intro id o' i b' row kind current own present
      rcases was row own present with ⟨o,b,found,progress,own',present₀,becomes⟩ | admits
      · have same := progress.asked
        have current' : ¬Outdated db o := fun outdated =>
          current ((outdated_congr same).mpr (outdated.evolves (Txn.evolves txn)))
        have covers := reserving.covered found (by rwa [asked_kind same] at kind) current' own' present₀
        exact covers.congr (fun _ reserves => Becomes.reserves becomes finish reserves) same
      · exact (Admits.reserving admits truthful kind own present).1
    · intro id o' i b' row kind active own present
      rcases was row own present with ⟨o,b,found,progress,own',present₀,becomes⟩ | admits
      · rw [asked_kind progress.asked] at kind
        refine Becomes.unreleased becomes finish ?_
        rcases Progress.available progress found active own' present₀ with active' | available
        · exact reserving.unreleased found kind active' own' present₀
        · have other : o.kind ≠ .delete := by rintro delete; rw [delete] at kind; cases kind
          simp [reconcilable,other] at available
          exact available.2.2
      · exact (Admits.reserving admits truthful kind own present).2
    · intro id o' i b' row kind active own present
      rcases was row own present with ⟨o,b,found,progress,own',present₀,becomes⟩ | admits
      · rw [asked_kind progress.asked] at kind
        refine Becomes.deleting becomes finish ?_
        rcases Progress.available progress found active own' present₀ with active' | available
        · exact reserving.deleting found kind active' own' present₀
        · simp [reconcilable,kind] at available
          exact available.2.1
      · exact Admits.deleting admits kind own present

end

/-! ### Every run -/

section
variable {s s' : System} {l : Label}

theorem reserving_step (consistent : Consistent s) (reserving : Reserving s.db) (moved : step l s = some s') :
    Reserving s'.db := by
  rcases step_db moved with idle | ⟨t,c,x,pick,v,makes,executes,ran⟩
  · exact
      { covered := fun row kind current own present => reserving.covered (by rwa [idle.operations] at row) kind
          (fun outdated => current (outdated.evolves (evolves_idle idle))) own (by rwa [idle.bindings] at present)
        unreleased := fun row kind active own present => reserving.unreleased (by rwa [idle.operations] at row) kind
          active own (by rwa [idle.bindings] at present)
        deleting := fun row kind active own present => reserving.deleting (by rwa [idle.operations] at row) kind
          active own (by rwa [idle.bindings] at present) }
  · refine reserving.txn consistent.sound (transact_cases ran) (truthful_makes makes) ?_
    rintro o state code change rfl
    obtain ⟨claimed,finishes⟩ : Claimed t.history o ∧ Finishes t.history o state change := licensed_makes makes
    exact ⟨consistent.copy makes.member claimed,finishes_over finishes⟩

theorem reserving_start (start : Start s) : Reserving s.db where
  covered row := by rw [start.operations] at row; simp at row
  unreleased row := by rw [start.operations] at row; simp at row
  deleting row := by rw [start.operations] at row; simp at row

end
end Expbuild.Reservations
