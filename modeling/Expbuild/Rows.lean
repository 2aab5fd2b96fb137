import Expbuild.Effects
import Expbuild.Licensing

/-!
What holds of the tables in every run, whatever Kubernetes answers. A transaction
does one of a few things to a row (`Progress`, `Becomes`), so rows only change in
what is meant to change (`Evolves`), operations are ordered by their creation, an
active operation is the newest of its instance (`Sound`), and what a tick claimed
is still the row it claimed (`Consistent`).
-/
namespace Expbuild.Rows
open Expbuild.Contract Expbuild.Schema Expbuild.Tables Expbuild.Quotas Expbuild.Programs Expbuild.Calls
open Expbuild.Transactions Expbuild.Effects Expbuild.Platform Expbuild.Licences Expbuild.Licensing

/-- An operation without what its execution changes. -/
def asked (o : Operation) : Operation :=
  { o with state := .pending, targetGeneration := none, workerId := none, leaseUntil := none, errorCode := none
           secretPayload := none, nextAttemptAt := 0, deadlineAt := 0, updatedAt := 0
           request := { o.request with deletionPolicy := none } }

section
variable {o p : Operation} (same : asked o = asked p)
include same

theorem asked_id : o.id = p.id := congrArg (fun q => q.id) same
theorem asked_projectId : o.projectId = p.projectId := congrArg (fun q => q.projectId) same
theorem asked_instanceId : o.instanceId = p.instanceId := congrArg (fun q => q.instanceId) same
theorem asked_kind : o.kind = p.kind := congrArg (fun q => q.kind) same
theorem asked_createdAt : o.createdAt = p.createdAt := congrArg (fun q => q.createdAt) same
theorem asked_desired : o.request.desired = p.request.desired := congrArg (fun q => q.request.desired) same
theorem asked_expected : o.request.expectedRevision = p.request.expectedRevision :=
  congrArg (fun q => q.request.expectedRevision) same
theorem asked_uid : o.request.uid = p.request.uid := congrArg (fun q => q.request.uid) same
theorem asked_ns : o.request.ns = p.request.ns := congrArg (fun q => q.request.ns) same
theorem asked_name : o.request.name = p.request.name := congrArg (fun q => q.request.name) same
theorem asked_previous : o.request.previousInstanceUID = p.request.previousInstanceUID :=
  congrArg (fun q => q.request.previousInstanceUID) same

end

/-! ### What a transaction does to one row -/

/-- What a transaction does to a row of `operations`. -/
inductive Progress (db : Db) : DbCall → OperationId → Operation → Operation → Prop where
  | same {c : DbCall} {id : OperationId} {o : Operation} : Progress db c id o o
  | claimed {c : ClaimId} {id : OperationId} {o : Operation} (free : claimable db.now o = true) :
      Progress db (.claim c) id o (claimedBy c db.now o)
  | finished {p o : Operation} {state : OpState} {code : Option String} {change : Change} (holds : held db p = true) :
      Progress db (.finish p state code change) p.id o (ended db.now state code o)
  | deferred {p o : Operation} {code : Option String} (lease : leased db.now p o = true) :
      Progress db (.defer p code) p.id o
        { o with leaseUntil := none, workerId := none, nextAttemptAt := db.now + 2, errorCode := code
                 updatedAt := db.now }
  | bound {p o : Operation} {uid : KubeUid} {generation : Nat} (holds : held db p = true) :
      Progress db (.bind p uid generation) p.id o
        { o with state := .reconciling, targetGeneration := some generation, updatedAt := db.now }
  | recorded {p o : Operation} {policy : DeletionPolicy} (lease : leased db.now p o = true) :
      Progress db (.recordPolicy p policy) p.id o { o with request := { o.request with deletionPolicy := some policy } }
  | resumed {caller : Caller} {id : OperationId} {o : Operation} {i : InstanceId} {b : Binding}
      (may : retryable o = true) (newest : newerExists db o = false) (instanceId : o.instanceId = some i)
      (present : db.bindings.lookup i = some b) (available : reconcilable o b = true) :
      Progress db (.retryOperation caller id) id o (Transactions.resumed db.now o)

/-- What a transaction does to a row of `instance_bindings`. -/
inductive Becomes (db : Db) : DbCall → InstanceId → Binding → Binding → Prop where
  | same {c : DbCall} {i : InstanceId} {b : Binding} : Becomes db c i b b
  | finished {o : Operation} {state : OpState} {code : Option String} {change : Change} {i : InstanceId} {b : Binding}
      (holds : held db o = true) (own : o.instanceId = some i) :
      Becomes db (.finish o state code change) i b (finishedBinding o state change b)
  | bound {o : Operation} {uid : KubeUid} {generation : Nat} {i : InstanceId} {b : Binding} (holds : held db o = true)
      (own : o.instanceId = some i) (may : bindable o uid b = true) :
      Becomes db (.bind o uid generation) i b { b with kubernetesUid := some uid }
  | raised {caller : Caller} {i : InstanceId} {input : InstanceInput} {operationId : OperationId} {desired : Manifest}
      {expected : Revision} {b : Binding} (unreleased : b.lifecycle.released = false) :
      Becomes db (.updateInstance caller i input operationId desired expected) i b
        (Binding.raise (inputResources input) b)
  | deleting {caller : Caller} {i : InstanceId} {operationId : OperationId} {b : Binding}
      (bound : b.kubernetesUid.isSome = true) (unreleased : b.lifecycle.released = false) :
      Becomes db (.deleteInstance caller i operationId) i b (enter .deleting b)
  | reopened {caller : Caller} {i : InstanceId} {prepared b : Binding} {volumeUid : VolumeUid} {input : InstanceInput}
      {operationId : OperationId} {desired : Manifest} {credentials : CredentialData}
      (retained : retains b.lifecycle = true) (uid : b.kubernetesUid = prepared.kubernetesUid) :
      Becomes db (.reclaimRetainedVolume caller i prepared volumeUid input operationId desired credentials) i b
        (Transactions.reopened input b)
  | resumed {caller : Caller} {id : OperationId} {o : Operation} {i : InstanceId} {b : Binding}
      (row : db.operations.lookup id = some o) (may : retryable o = true) (creates : o.kind.creates = true)
      (own : o.instanceId = some i) (available : reconcilable o b = true) :
      Becomes db (.retryOperation caller id) i b (enter .pending b)

/-- A row of `operations` that a transaction adds. -/
structure Opened (db db' : Db) (c : DbCall) (key : OperationId) (o : Operation) : Prop where
  id : o.id = key
  created : o.createdAt = db.now
  now : db'.now = db.now + 1
  pending : o.state = .pending
  insertable : Insertable db db'.bindings o
  others : ∀ {j}, j ≠ key → db'.operations.lookup j = db.operations.lookup j
  admitted : Admits db c o db'.bindings db'.credentials ∨ (o.kind = .projectCreate ∧ o.instanceId = none)

section
variable {db db' : Db} {c : DbCall}

theorem lookup_modify_of_some {K V : Type} [DecidableEq K] {k j : K} {f : V → V} {t : Table K V} {v : V}
    (found : t.lookup j = some v) : (modify k f t).lookup j = some (if j = k then f v else v) := by
  rw [lookup_modify,found]
  split
  · rfl
  · rfl

theorem Admits.opened {o : Operation} {bindings : Table InstanceId Binding} {credentials : List Credential}
    (admits : Admits db c o bindings credentials) :
    o.createdAt = db.now ∧ o.state = .pending ∧ o.instanceId.isSome ∧ o.kind ≠ .projectCreate := by
  cases admits <;> exact ⟨rfl,rfl,rfl,by simp [newOperation]⟩

/-- A row of `operations` after a transaction. -/
theorem Txn.operation (txn : Txn db c db') {id : OperationId} {o : Operation} (row : db.operations.lookup id = some o) :
    ∃ o', db'.operations.lookup id = some o' ∧ Progress db c id o o' := by
  have kept : ∀ {p : Operation}, db.operations.lookup p.id = none → (db.operations.insert p.id p).lookup id = some o := by
    intro p unused
    rw [lookup_insert]
    by_cases same : id = p.id
    · rw [same,unused] at row; cases row
    · rw [if_neg same,row]
  cases txn with
  | unchanged _ => exact ⟨o,row,.same⟩
  | claimed found free =>
    refine ⟨_,lookup_modify_of_some row,?_⟩
    split
    · rename_i same
      rw [same,found] at row
      cases row
      exact .claimed free
    · exact .same
  | finished holds settles =>
    rw [finished_operations settles]
    refine ⟨_,lookup_modify_of_some row,?_⟩
    split
    · rename_i same; rw [same]; exact .finished holds
    · exact .same
  | deferred =>
    refine ⟨_,lookup_modify_of_some row,?_⟩
    split
    · rename_i same
      rw [same]
      split
      · rename_i lease; exact .deferred lease
      · exact .same
    · exact .same
  | bound holds instanceId found may =>
    refine ⟨_,lookup_modify_of_some row,?_⟩
    split
    · rename_i same; rw [same]; exact .bound holds
    · exact .same
  | recorded =>
    refine ⟨_,lookup_modify_of_some row,?_⟩
    split
    · rename_i same
      rw [same]
      split
      · rename_i lease; exact .recorded lease
      · exact .same
    · exact .same
  | admitted admits insertable named notRetry => exact ⟨o,kept insertable.unused,.same⟩
  | resumed found may instanceId present available newest alone =>
    refine ⟨_,lookup_modify_of_some row,?_⟩
    split
    · rename_i same
      rw [same,found] at row
      cases row
      rw [same]
      exact .resumed may newest instanceId present available
    · exact .same
  | limited current within => exact ⟨o,row,.same⟩
  | projectCreated new unused insertable => exact ⟨o,kept insertable.unused,.same⟩
  | projectRetried new insertable => exact ⟨o,kept insertable.unused,.same⟩

/-- A row of `operations` that was not there before. -/
theorem Txn.opened (txn : Txn db c db') {id : OperationId} {o : Operation} (missing : db.operations.lookup id = none)
    (row : db'.operations.lookup id = some o) : Opened db db' c id o := by
  have never : ∀ {k : OperationId} {f : Operation → Operation}, (modify k f db.operations).lookup id ≠ some o := by
    intro k f found
    rw [lookup_modify,missing] at found
    simp at found
  have new : ∀ {p : Operation}, (db.operations.insert p.id p).lookup id = some o →
      p.id = id ∧ p = o ∧ ∀ {j}, j ≠ id → (db.operations.insert p.id p).lookup j = db.operations.lookup j := by
    intro p found
    rcases lookup_insert_some found with ⟨same,rfl⟩ | ⟨_,found⟩
    · exact ⟨same.symm,rfl,fun other => AList.lookup_insert_ne (by rwa [← same])⟩
    · rw [missing] at found; cases found
  cases txn with
  | unchanged _ => rw [missing] at row; cases row
  | claimed found free => exact absurd row never
  | finished holds settles => rw [finished_operations settles] at row; exact absurd row never
  | deferred => exact absurd row never
  | bound holds instanceId found may => exact absurd row never
  | recorded => exact absurd row never
  | admitted admits insertable named notRetry =>
    obtain ⟨same,rfl,others⟩ := new row
    obtain ⟨created,pending,_,_⟩ := Admits.opened admits
    exact ⟨same,created,rfl,pending,insertable,others,.inl admits⟩
  | resumed found may instanceId present available newest alone => exact absurd row never
  | limited current within => rw [show db.operations.lookup id = some o from row] at missing; cases missing
  | projectCreated asks unused insertable =>
    obtain ⟨same,rfl,others⟩ := new row
    subst asks
    exact ⟨same,rfl,rfl,rfl,insertable,others,.inr ⟨rfl,rfl⟩⟩
  | projectRetried asks insertable =>
    obtain ⟨same,rfl,others⟩ := new row
    subst asks
    exact ⟨same,rfl,rfl,rfl,insertable,others,.inr ⟨rfl,rfl⟩⟩

/-- A row of `instance_bindings` after a transaction. -/
theorem Txn.binding (txn : Txn db c db') {i : InstanceId} {b : Binding} (row : db.bindings.lookup i = some b) :
    ∃ b', db'.bindings.lookup i = some b' ∧ Becomes db c i b b' := by
  cases txn with
  | unchanged _ | claimed _ _ | deferred | recorded | limited _ _ | projectCreated _ _ _ | projectRetried _ _ =>
    exact ⟨b,row,.same⟩
  | finished holds settles =>
    rename_i o state code change settled
    rw [finished_bindings settles,row]
    by_cases own : o.instanceId = some i
    · exact ⟨_,by rw [if_pos own]; rfl,.finished holds own⟩
    · exact ⟨b,by rw [if_neg own],.same⟩
  | bound holds instanceId found may =>
    refine ⟨_,lookup_modify_of_some row,?_⟩
    split
    · rename_i same
      subst same
      rw [found] at row
      cases row
      exact .bound holds instanceId may
    · exact .same
  | admitted admits insertable named notRetry =>
    cases admits with
    | create locked asked unused new within =>
      rename_i id _ _ _ _ _
      have other : i ≠ id := by
        rintro rfl
        rw [unused] at row
        cases row
      exact ⟨b,by rw [lookup_modify_ne other,AList.lookup_insert_ne other,row],.same⟩
    | update present project known unreleased within =>
      refine ⟨_,lookup_modify_of_some row,?_⟩
      split
      · rename_i same; subst same; rw [present] at row; cases row; exact .raised unreleased
      · exact .same
    | rotate => exact ⟨b,row,.same⟩
    | delete present owner locked bound unreleased =>
      refine ⟨_,lookup_modify_of_some row,?_⟩
      split
      · rename_i same; subst same; rw [present] at row; cases row; exact .deleting bound unreleased
      · exact .same
    | volumeDelete present owner locked retained bound => exact ⟨b,row,.same⟩
    | reclaim present owner retained same within =>
      refine ⟨_,lookup_modify_of_some row,?_⟩
      split
      · rename_i own; subst own; rw [present] at row; cases row; exact .reopened retained same
      · exact .same
  | resumed found may instanceId present available newest alone =>
    rename_i caller id o j _
    by_cases creates : o.kind.creates = true
    · simp only [creates,if_true]
      refine ⟨_,lookup_modify_of_some row,?_⟩
      split
      · rename_i same; subst same; rw [present] at row; cases row; exact .resumed found may creates instanceId available
      · exact .same
    · simp only [creates,Bool.false_eq_true,if_false]
      exact ⟨b,row,.same⟩

/-- A row of `instance_bindings` that was not there before is of a creation. -/
theorem Txn.provisioned (txn : Txn db c db') {i : InstanceId} {b : Binding} (missing : db.bindings.lookup i = none)
    (row : db'.bindings.lookup i = some b) :
    ∃ caller platformAdmin options storageClass input operationId credentials project,
      c = .createInstance caller platformAdmin options storageClass input i operationId credentials ∧
      db.projects.lookup caller.projectId = some project ∧
      b = Binding.raise (inputResources input)
        { projectId := caller.projectId, resourceName := ⟨i⟩, displayName := input.name
          templateName := input.template, templateVersion := some (templateDefinition input.template).version } ∧
      ∃ o, db.operations.lookup operationId = none ∧ db'.operations.lookup operationId = some o ∧
        o.kind = .create ∧ o.instanceId = some i ∧ o.state = .pending := by
  have never : ∀ {k : InstanceId} {f : Binding → Binding}, (modify k f db.bindings).lookup i ≠ some b := by
    intro k f found
    rw [lookup_modify,missing] at found
    simp at found
  have idle : ∀ {P : Prop}, db.bindings.lookup i = some b → P := by
    intro P found
    rw [missing] at found
    cases found
  cases txn with
  | unchanged _ | claimed _ _ | deferred | recorded | limited _ _ | projectCreated _ _ _ | projectRetried _ _ =>
    exact idle row
  | finished holds settles => rw [finished_bindings settles,missing] at row; simp at row
  | bound holds instanceId found may => exact absurd row never
  | admitted admits insertable named notRetry =>
    cases admits with
    | create locked asked unused new within =>
      rename_i caller platformAdmin options storageClass input id operationId credentials project fresh desired
      rcases lookup_modify_some row with ⟨other,found⟩ | ⟨rfl,old,found,rfl⟩
      · rw [AList.lookup_insert_ne other] at found
        exact idle found
      · rw [AList.lookup_insert] at found
        cases found
        subst new asked
        exact ⟨caller,platformAdmin,options,storageClass,input,operationId,credentials,project,rfl,locked,rfl,
          newOperation db caller operationId _ .create _ _ _,insertable.unused,AList.lookup_insert _,rfl,rfl,rfl⟩
    | update present project known unreleased within => exact absurd row never
    | rotate => exact idle row
    | delete present owner locked bound unreleased => exact absurd row never
    | volumeDelete present owner locked retained bound => exact idle row
    | reclaim present owner retained same within => exact absurd row never
  | resumed found may instanceId present available newest alone =>
    rename_i o _ _
    by_cases creates : o.kind.creates = true
    · simp only [creates,if_true] at row
      exact absurd row never
    · simp only [creates,Bool.false_eq_true,if_false] at row
      exact idle row

theorem Txn.project (txn : Txn db c db') {id : ProjectId} {p : Project} (row : db.projects.lookup id = some p) :
    ∃ p', db'.projects.lookup id = some p' ∧ p'.ns = p.ns := by
  have kept : (db'.projects.lookup id).map grant = (db.projects.lookup id).map grant →
      ∃ p', db'.projects.lookup id = some p' ∧ p'.ns = p.ns := by
    intro same
    rw [row] at same
    obtain ⟨p',row',grants⟩ := Option.map_eq_some_iff.mp same
    exact ⟨p',row',congrArg Prod.fst grants⟩
  cases txn with
  | unchanged _ | claimed _ _ | deferred | recorded | bound _ _ _ _ | admitted _ _ _ _ | resumed _ _ _ _ _ _ _ =>
    exact ⟨p,row,rfl⟩
  | finished holds settles => exact kept (finished_projects settles _ id)
  | limited current within =>
    refine ⟨_,lookup_modify_of_some row,?_⟩
    split <;> rfl
  | projectCreated new unused insertable =>
    refine ⟨p,?_,rfl⟩
    change (db.projects.insert _ _).lookup id = some p
    rw [AList.lookup_insert_ne,row]
    rintro rfl
    rw [unused] at row
    cases row
  | projectRetried new insertable => exact kept (grant_modify id _ (fun _ => rfl))

theorem Txn.now (txn : Txn db c db') : db.now ≤ db'.now := by
  cases txn with
  | finished holds settles => rw [finished_now settles]
  | admitted admits insertable named notRetry => exact Nat.le_succ _
  | projectCreated new unused insertable => exact Nat.le_succ _
  | projectRetried new insertable => exact Nat.le_succ _
  | _ => exact Nat.le_refl _

end

/-! ### The tables over time -/

/-- What two rows of an instance have in common at all times. -/
structure SameBinding (b b' : Binding) : Prop where
  projectId : b'.projectId = b.projectId
  resourceName : b'.resourceName = b.resourceName

/-- How the tables change. -/
structure Evolves (db db' : Db) : Prop where
  now : db.now ≤ db'.now
  operations : ∀ {id o}, db.operations.lookup id = some o →
    ∃ o', db'.operations.lookup id = some o' ∧ asked o' = asked o
  bindings : ∀ {i b}, db.bindings.lookup i = some b → ∃ b', db'.bindings.lookup i = some b' ∧ SameBinding b b'
  projects : ∀ {id p}, db.projects.lookup id = some p → ∃ p', db'.projects.lookup id = some p' ∧ p'.ns = p.ns
  /-- A row that was not there is an operation that was just admitted. -/
  admitted : ∀ {id o'}, db'.operations.lookup id = some o' → db.operations.lookup id = none → o'.createdAt = db.now

/-- The invariant of the tables. -/
structure Sound (db : Db) : Prop where
  id : ∀ {id o}, db.operations.lookup id = some o → o.id = id
  created : ∀ {id o}, db.operations.lookup id = some o → o.createdAt < db.now
  order : ∀ {id id' o o'}, db.operations.lookup id = some o → db.operations.lookup id' = some o' →
    o.createdAt = o'.createdAt → id = id'
  owned : ∀ {id o i}, db.operations.lookup id = some o → o.instanceId = some i →
    ∃ b, db.bindings.lookup i = some b ∧ b.projectId = o.projectId
  placed : ∀ {id o}, db.operations.lookup id = some o → o.kind ≠ .projectCreate → o.instanceId.isSome
  newest : ∀ {id id' o o'}, db.operations.lookup id = some o → o.state.active = true → o.instanceId.isSome →
    db.operations.lookup id' = some o' → o'.instanceId = o.instanceId → o'.createdAt ≤ o.createdAt
  ended : ∀ {id o}, db.operations.lookup id = some o → o.state.active = false →
    o.workerId = none ∧ o.secretPayload = none

section
variable {db db' : Db} {c : DbCall}

theorem Progress.asked {id : OperationId} {o o' : Operation} (progress : Progress db c id o o') :
    asked o' = asked o := by
  cases progress <;> rfl

theorem Becomes.same_binding {i : InstanceId} {b b' : Binding} (becomes : Becomes db c i b b') : SameBinding b b' := by
  cases becomes with
  | finished holds own =>
    rename_i o state code change
    have changed : ∀ b, SameBinding b (changedBinding change b) := by
      intro b
      cases change <;> exact ⟨rfl,rfl⟩
    have settled : ∀ b, SameBinding b (settledBinding o state b) := by
      intro b
      unfold settledBinding
      split
      · split <;> exact ⟨rfl,rfl⟩
      · exact ⟨rfl,rfl⟩
    have failed : ∀ b, SameBinding b (failedBinding o state b) := by
      intro b
      unfold failedBinding
      split <;> exact ⟨rfl,rfl⟩
    have first := changed b
    have second := settled (changedBinding change b)
    have third := failed (settledBinding o state (changedBinding change b))
    exact ⟨third.1.trans (second.1.trans first.1),third.2.trans (second.2.trans first.2)⟩
  | _ => exact ⟨rfl,rfl⟩

theorem finishedBinding_uid (o : Operation) (state : OpState) (change : Change) (b : Binding) :
    (finishedBinding o state change b).kubernetesUid = b.kubernetesUid := by
  have changed : (changedBinding change b).kubernetesUid = b.kubernetesUid := by cases change <;> rfl
  have settled : ∀ b, (settledBinding o state b).kubernetesUid = b.kubernetesUid := by
    intro b
    unfold settledBinding
    split
    · split <;> rfl
    · rfl
  unfold finishedBinding failedBinding
  split
  · exact (settled _).trans changed
  · exact (settled _).trans changed

/-- Only `bind` changes the identity of an instance. -/
theorem Becomes.uid {i : InstanceId} {b b' : Binding} (becomes : Becomes db c i b b') :
    b'.kubernetesUid = b.kubernetesUid ∨ ∃ o uid generation, c = .bind o uid generation ∧ held db o = true ∧
      o.instanceId = some i ∧ bindable o uid b = true ∧ b'.kubernetesUid = some uid := by
  cases becomes with
  | finished holds own => exact .inl (finishedBinding_uid _ _ _ _)
  | bound holds own may => exact .inr ⟨_,_,_,rfl,holds,own,may,rfl⟩
  | same | raised _ | deleting _ _ | reopened _ _ | resumed _ _ _ _ _ => exact .inl rfl

theorem Txn.evolves (txn : Txn db c db') : Evolves db db' where
  now := Txn.now txn
  operations := by
    intro id o row
    obtain ⟨o',row',progress⟩ := Txn.operation txn row
    exact ⟨o',row',progress.asked⟩
  bindings := by
    intro i b row
    obtain ⟨b',row',becomes⟩ := Txn.binding txn row
    exact ⟨b',row',becomes.same_binding⟩
  projects := Txn.project txn
  admitted row missing := (Txn.opened txn missing row).created

theorem evolves_idle (idle : Idle db db') : Evolves db db' where
  now := idle.now
  operations row := ⟨_,by rw [idle.operations]; exact row,rfl⟩
  bindings row := ⟨_,by rw [idle.bindings]; exact row,rfl,rfl⟩
  projects row := ⟨_,by rw [idle.projects]; exact row,rfl⟩
  admitted row missing := by rw [idle.operations,missing] at row; cases row

theorem held_some {o : Operation} (holds : held db o = true) :
    ∃ row, db.operations.lookup o.id = some row ∧ row.state.active = true ∧ row.workerId = o.workerId ∧
      o.workerId.isSome ∧ ∃ lease, row.leaseUntil = some lease ∧ db.now < lease := by
  simp only [held,leased,Option.any_eq_true,Bool.and_eq_true,Bool.or_eq_true,decide_eq_true_eq] at holds
  obtain ⟨row,found,⟨⟨some',worker⟩,lease⟩,state⟩ := holds
  refine ⟨row,found,?_,worker,some',lease⟩
  rcases state with state | state
  · rw [state]; rfl
  · rw [state]; rfl

/-- No step wakes an operation that a later one has replaced. -/
theorem Progress.wakes {id : OperationId} {o o' : Operation} (progress : Progress db c id o o')
    (row : db.operations.lookup id = some o) (active : o'.state.active = true) :
    o.state.active = true ∨ newerExists db o = false := by
  have holding : ∀ {p : Operation}, held db p = true → db.operations.lookup p.id = some o → o.state.active = true := by
    intro p holds row
    obtain ⟨found,row',active,_⟩ := held_some holds
    rw [row] at row'
    cases row'
    exact active
  cases progress with
  | same => exact .inl active
  | claimed free => simp only [claimable,Bool.and_eq_true] at free; exact .inl free.1.1
  | finished holds => exact .inl (holding holds row)
  | deferred lease => exact .inl active
  | bound holds => exact .inl (holding holds row)
  | recorded lease => exact .inl active
  | resumed may newest instanceId present available => exact .inr newest

theorem Progress.rests {id : OperationId} {o o' : Operation} (progress : Progress db c id o o')
    (ended : o.state.active = false → o.workerId = none ∧ o.secretPayload = none) (ceased : o'.state.active = false) :
    o'.workerId = none ∧ o'.secretPayload = none := by
  cases progress with
  | same => exact ended ceased
  | claimed free =>
    simp only [claimable,Bool.and_eq_true] at free
    obtain ⟨⟨active,_⟩,_⟩ := free
    simp only [claimedBy] at ceased
    split at ceased
    · cases ceased
    · rw [active] at ceased; cases ceased
  | finished holds => exact ⟨rfl,rfl⟩
  | deferred lease => exact ⟨rfl,(ended ceased).2⟩
  | bound holds => cases ceased
  | recorded lease => exact ended ceased
  | resumed may newest instanceId present available => cases ceased

/-- An active operation stays active until it is finished. -/
theorem Progress.stays {id : OperationId} {o o' : Operation} (progress : Progress db c id o o')
    (active : o.state.active = true) :
    o'.state.active = true ∨ ∃ p state code change, c = .finish p state code change ∧ id = p.id ∧ o' = ended db.now state code o := by
  cases progress with
  | same | deferred _ | recorded _ => exact .inl active
  | claimed free =>
    simp only [claimedBy]
    split
    · exact .inl rfl
    · exact .inl active
  | finished holds => exact .inr ⟨_,_,_,_,rfl,rfl,rfl⟩
  | bound holds | resumed may newest instanceId present available => exact .inl rfl

theorem newest_of_newerExists {o p : Operation} {id : OperationId} (sound : Sound db) {key : OperationId}
    (own : db.operations.lookup key = some o) (newest : newerExists db o = false)
    (row : db.operations.lookup id = some p) (placed : o.instanceId.isSome) (instanceId : p.instanceId = o.instanceId) :
    p.createdAt ≤ o.createdAt := by
  have none' := (anyRow_false_iff _ _).mp newest id p row
  by_cases same : id = o.id
  · rw [sound.id own] at same
    rw [same,own] at row
    cases row
    exact Nat.le_refl _
  · simp [instanceId,placed,same] at none'
    omega

theorem Txn.sound (sound : Sound db) (txn : Txn db c db') : Sound db' := by
  have was : ∀ {j o'}, db'.operations.lookup j = some o' →
      (∃ o, db.operations.lookup j = some o ∧ Progress db c j o o') ∨
      (db.operations.lookup j = none ∧ Opened db db' c j o') := by
    intro j o' row
    cases found : db.operations.lookup j with
    | none => exact .inr ⟨rfl,Txn.opened txn found row⟩
    | some o =>
      obtain ⟨o'',row',progress⟩ := Txn.operation txn found
      rw [row] at row'
      cases row'
      exact .inl ⟨o,rfl,progress⟩
  have created : ∀ {j o}, db.operations.lookup j = some o → o.createdAt < db.now := sound.created
  refine
    { id := ?_, created := ?_, order := ?_, owned := ?_, placed := ?_, newest := ?_, ended := ?_ }
  · intro j o' row
    rcases was row with ⟨o,found,progress⟩ | ⟨_,opened⟩
    · exact (asked_id progress.asked).trans (sound.id found)
    · exact opened.id
  · intro j o' row
    rcases was row with ⟨o,found,progress⟩ | ⟨_,opened⟩
    · rw [asked_createdAt progress.asked]
      exact Nat.lt_of_lt_of_le (created found) (Txn.now txn)
    · have := opened.created; have := opened.now; omega
  · intro j j' o' p' row row' level
    rcases was row with ⟨o,found,progress⟩ | ⟨missing,opened⟩ <;>
      rcases was row' with ⟨p,found',progress'⟩ | ⟨missing',opened'⟩
    · rw [asked_createdAt progress.asked,asked_createdAt progress'.asked] at level
      exact sound.order found found' level
    · rw [asked_createdAt progress.asked,opened'.created] at level
      have := created found; omega
    · rw [asked_createdAt progress'.asked,opened.created] at level
      have := created found'; omega
    · by_contra other
      rw [opened.others (Ne.symm other),missing'] at row'
      cases row'
  · intro j o' i row instanceId
    rcases was row with ⟨o,found,progress⟩ | ⟨_,opened⟩
    · obtain ⟨b,present,owner⟩ := sound.owned found ((asked_instanceId progress.asked).symm.trans instanceId)
      obtain ⟨b',present',becomes⟩ := Txn.binding txn present
      exact ⟨b',present',by rw [becomes.same_binding.projectId,owner,asked_projectId progress.asked]⟩
    · exact opened.insertable.owned instanceId
  · intro j o' row kind
    rcases was row with ⟨o,found,progress⟩ | ⟨_,opened⟩
    · rw [asked_instanceId progress.asked]
      exact sound.placed found (by rwa [asked_kind progress.asked] at kind)
    · rcases opened.admitted with admits | ⟨project,_⟩
      · exact (Admits.opened admits).2.2.1
      · exact absurd project kind
  · intro j j' o' p' row active placed row' instanceId
    rcases was row with ⟨o,found,progress⟩ | ⟨missing,opened⟩ <;>
      rcases was row' with ⟨p,found',progress'⟩ | ⟨missing',opened'⟩
    · rw [asked_instanceId progress.asked,asked_instanceId progress'.asked] at instanceId
      rw [asked_instanceId progress.asked] at placed
      rw [asked_createdAt progress.asked,asked_createdAt progress'.asked]
      rcases progress.wakes found active with active | newest
      · exact sound.newest found active placed found' instanceId
      · exact newest_of_newerExists sound found newest found' placed instanceId
    · -- an active row on the same instance would have kept the new one out
      have other : j ≠ j' := by
        rintro rfl
        rw [missing'] at found
        cases found
      rw [opened'.others other] at row
      have alone := opened'.insertable.alone row
      have new : p'.state.active = true := by rw [opened'.pending]; rfl
      simp [excludes,active,new,instanceId,placed] at alone
    · rw [asked_createdAt progress'.asked,opened.created]
      exact Nat.le_of_lt (created found')
    · rw [opened.created,opened'.created]
  · intro j o' row ceased
    rcases was row with ⟨o,found,progress⟩ | ⟨_,opened⟩
    · exact progress.rests (sound.ended found) ceased
    · rw [opened.pending] at ceased; cases ceased

theorem sound_idle (sound : Sound db) (idle : Idle db db') : Sound db' where
  id row := sound.id (by rwa [idle.operations] at row)
  created row := Nat.lt_of_lt_of_le (sound.created (by rwa [idle.operations] at row)) idle.now
  order row row' := sound.order (by rwa [idle.operations] at row) (by rwa [idle.operations] at row')
  owned row instanceId := by
    rw [idle.bindings]
    exact sound.owned (by rwa [idle.operations] at row) instanceId
  placed row := sound.placed (by rwa [idle.operations] at row)
  newest row active placed row' :=
    sound.newest (by rwa [idle.operations] at row) active placed (by rwa [idle.operations] at row')
  ended row := sound.ended (by rwa [idle.operations] at row)

/-- The row that a claimed copy is of. -/
def Copy (db : Db) (o : Operation) : Prop := ∃ row, db.operations.lookup o.id = some row ∧ asked row = asked o

theorem Copy.evolves {o : Operation} (evolves : Evolves db db') (copy : Copy db o) : Copy db' o := by
  obtain ⟨row,found,same⟩ := copy
  obtain ⟨row',found',same'⟩ := evolves.operations found
  exact ⟨row',found',same'.trans same⟩

/-- There is a later operation on the same instance. -/
def Outdated (db : Db) (o : Operation) : Prop :=
  ∃ id p, db.operations.lookup id = some p ∧ p.instanceId = o.instanceId ∧ o.createdAt < p.createdAt

theorem Outdated.evolves {o : Operation} (evolves : Evolves db db') (outdated : Outdated db o) : Outdated db' o := by
  obtain ⟨id,p,found,instanceId,later⟩ := outdated
  obtain ⟨p',found',same⟩ := evolves.operations found
  exact ⟨id,p',found',(asked_instanceId same).trans instanceId,by rw [asked_createdAt same]; exact later⟩

theorem outdated_congr {o p : Operation} (same : asked o = asked p) : Outdated db o ↔ Outdated db p := by
  simp only [Outdated,asked_instanceId same,asked_createdAt same]

/-- An active operation is not outdated. -/
theorem Sound.current (sound : Sound db) {id : OperationId} {o : Operation} (row : db.operations.lookup id = some o)
    (active : o.state.active = true) (placed : o.instanceId.isSome) : ¬Outdated db o := by
  rintro ⟨id',p,found,instanceId,later⟩
  have := sound.newest row active placed found instanceId
  omega

/-- An instance has one active operation. -/
theorem Sound.active_unique (sound : Sound db) {id id' : OperationId} {o p : Operation}
    (row : db.operations.lookup id = some o) (row' : db.operations.lookup id' = some p) (active : o.state.active = true)
    (active' : p.state.active = true) (placed : o.instanceId.isSome) (instanceId : o.instanceId = p.instanceId) :
    id = id' := by
  refine sound.order row row' (Nat.le_antisymm ?_ ?_)
  · exact sound.newest row' active' (instanceId ▸ placed) row instanceId
  · exact sound.newest row active placed row' instanceId.symm

/-- Of two different operations on an instance one is outdated. -/
theorem Sound.outdated_of_other (sound : Sound db) {id id' : OperationId} {o p : Operation}
    (row : db.operations.lookup id = some o) (row' : db.operations.lookup id' = some p)
    (instanceId : o.instanceId = p.instanceId) (other : id ≠ id') : Outdated db o ∨ Outdated db p := by
  rcases Nat.lt_trichotomy o.createdAt p.createdAt with earlier | same | later
  · exact .inl ⟨id',p,row',instanceId.symm,earlier⟩
  · exact absurd (sound.order row row' same) other
  · exact .inr ⟨id,o,row,instanceId,later⟩

end

/-- The operation that a worker holds is the newest of its instance. -/
theorem Sound.held_newest {db : Db} (sound : Sound db) {p o : Operation} {id : OperationId} {i : InstanceId}
    (holds : held db p = true) (copy : Copy db p) (own : p.instanceId = some i) (row : db.operations.lookup id = some o)
    (instanceId : o.instanceId = some i) (current : ¬Outdated db o) : id = p.id ∧ asked p = asked o := by
  obtain ⟨q,found,active,_⟩ := held_some holds
  obtain ⟨q',found',same⟩ := copy
  rw [found] at found'
  cases found'
  have placed : q.instanceId = some i := (asked_instanceId same).trans own
  by_cases other : id = p.id
  · rw [other,found] at row
    cases row
    exact ⟨other,same.symm⟩
  · rcases sound.outdated_of_other row found (instanceId.trans placed.symm) other with outdated | outdated
    · exact absurd outdated current
    · exact absurd outdated (sound.current found active (by rw [placed]; rfl))

/-- An operation that a worker still holds is the newest of its instance. -/
theorem Sound.held_current {db : Db} (sound : Sound db) {o : Operation} {i : InstanceId} (holds : held db o = true)
    (copy : Copy db o) (own : o.instanceId = some i) : ¬Outdated db o := by
  obtain ⟨q,found,active,_⟩ := held_some holds
  obtain ⟨row,found',same⟩ := copy
  rw [found] at found'
  cases found'
  rw [← outdated_congr same]
  exact sound.current found active (by rw [asked_instanceId same,own]; rfl)

/-! ### The threads and the tables -/

/-- What a past claimed: the copy of a row, as the tick's own claim left it. -/
def Holding (db : Db) (task : Task) (past : Past) : Prop :=
  (∀ {o}, Claimed past o → Copy db o ∧ (o.state = .applying ∨ o.state = .reconciling) ∧
    ∃ gated claim, task = .tick gated claim ∧ o.workerId = some claim) ∧
  ∀ {o p}, Claimed past o → Claimed past p → o = p

/-- The tables are sound, and every tick holds a copy of the row it claimed. -/
structure Consistent (s : System) : Prop where
  sound : Sound s.db
  holding : ∀ t ∈ s.threads, Holding s.db t.tag t.history

section
variable {s s' : System} {l : Label}

theorem Consistent.copy (consistent : Consistent s) {t : Running} (member : t ∈ s.threads) {o : Operation}
    (claimed : Claimed t.history o) : Copy s.db o := ((consistent.holding t member).1 claimed).1

theorem step_evolves (moved : step l s = some s') : Evolves s.db s'.db := by
  rcases step_db moved with idle | ⟨_,_,_,_,_,_,_,ran⟩
  · exact evolves_idle idle
  · exact Txn.evolves (transact_cases ran)

theorem step_sound (sound : Sound s.db) (moved : step l s = some s') : Sound s'.db := by
  rcases step_db moved with idle | ⟨_,_,_,_,_,_,_,ran⟩
  · exact sound_idle sound idle
  · exact Txn.sound sound (transact_cases ran)

theorem claimed_cons {past : Past} {c : Call} {x : c.Answer} {o : Operation} (claimed : Claimed (⟨c,x⟩ :: past) o) :
    (∃ claim, c = .db (.claim claim) ∧ HEq x (.ok (some o) : Except Failure (Option Operation))) ∨ Claimed past o := by
  obtain ⟨claim,member⟩ := claimed
  rcases List.mem_cons.mp member with same | member
  · cases same; exact .inl ⟨claim,rfl,HEq.rfl⟩
  · exact .inr ⟨claim,member⟩

theorem not_claimed_nil {o : Operation} : ¬Claimed [] o := by
  rintro ⟨claim,member⟩
  cases member

/-- What a claim returns. -/
theorem claim_heard {t : Running} {claim : ClaimId} {x : (Call.db (.claim claim)).Answer} {o : Operation}
    (sound : Sound s.db) (heard : Heard s l s' t (.db (.claim claim)) x) (answer : x = .ok (some o)) :
    s'.db.operations.lookup o.id = some o ∧ (o.state = .applying ∨ o.state = .reconciling) ∧
      o.workerId = some claim := by
  cases heard with
  | transacted executes ran kube answered =>
    rename_i pick v
    have value : v = some o := by
      rcases answered with same | same
      · rw [same] at answer; exact Except.ok.inj answer
      · rw [same] at answer; cases answer
    simp only [transact,Except.ok.injEq] at ran
    rcases claim_cases s.db claim pick.operation with none' | ⟨row,found,free,claimed⟩
    · rw [none'] at ran
      have := (Prod.mk.inj ran).2
      rw [value] at this
      cases this
    · rw [claimed] at ran
      obtain ⟨after,same⟩ := Prod.mk.inj ran
      rw [value] at same
      obtain rfl := Option.some.inj same
      refine ⟨?_,?_,rfl⟩
      · rw [← after]
        change (modify pick.operation _ _).lookup row.id = _
        rw [sound.id found,lookup_modify_self,found]
        rfl
      · simp only [claimable,Bool.and_eq_true] at free
        obtain ⟨⟨active,_⟩,_⟩ := free
        simp only [claimedBy]
        cases state : row.state <;> rw [state] at active <;> simp_all [OpState.active]
  | aborted db kube why => cases answer

theorem Consistent.start (start : Start s) : Consistent s where
  sound := by
    have none' : ∀ {id : OperationId} {o : Operation}, s.db.operations.lookup id ≠ some o := by
      intro id o row
      rw [start.operations] at row
      simp at row
    exact
      { id := fun row => absurd row none'
        created := fun row => absurd row none'
        order := fun row => absurd row none'
        owned := fun row => absurd row none'
        placed := fun row => absurd row none'
        newest := fun row => absurd row none'
        ended := fun row => absurd row none' }
  holding t member := by
    rw [start.threads] at member
    cases member

theorem Consistent.step (consistent : Consistent s) (moved : step l s = some s') : Consistent s' := by
  have evolves := step_evolves moved
  refine ⟨step_sound consistent.sound moved,?_⟩
  refine threads_step (fun s => Holding s.db) moved consistent.holding ?_ ?_ ?_
  · exact fun task => ⟨fun claimed => absurd claimed not_claimed_nil,fun claimed => absurd claimed not_claimed_nil⟩
  · intro t _ holding
    refine ⟨fun claimed => ?_,holding.2⟩
    obtain ⟨copy,rest⟩ := holding.1 claimed
    exact ⟨copy.evolves evolves,rest⟩
  · intro t c x makes heard holding
    by_cases claims : ∃ claim, c = .db (.claim claim)
    · -- the first call of a tick
      obtain ⟨claim,rfl⟩ := claims
      obtain ⟨empty,gated,tag⟩ : t.history = [] ∧ ∃ gated, t.tag = .tick gated claim := licensed_makes makes
      have only : ∀ {o}, Claimed (⟨.db (.claim claim),x⟩ :: t.history) o → x = .ok (some o) := by
        intro o claimed
        rcases claimed_cons claimed with ⟨_,_,same⟩ | earlier
        · exact eq_of_heq same
        · rw [empty] at earlier
          exact absurd earlier not_claimed_nil
      refine ⟨fun {o} claimed => ?_,fun first second => ?_⟩
      · obtain ⟨row,working,worker⟩ := claim_heard consistent.sound heard (only claimed)
        exact ⟨⟨o,row,rfl⟩,working,gated,claim,tag,worker⟩
      · have same := (only first).symm.trans (only second)
        simpa using same
    · have earlier : ∀ {o}, Claimed (⟨c,x⟩ :: t.history) o → Claimed t.history o := by
        intro o claimed
        rcases claimed_cons claimed with ⟨claim,same,_⟩ | earlier
        · exact absurd ⟨claim,same⟩ claims
        · exact earlier
      refine ⟨fun claimed => ?_,fun first second => holding.2 (earlier first) (earlier second)⟩
      obtain ⟨copy,rest⟩ := holding.1 (earlier claimed)
      exact ⟨copy.evolves evolves,rest⟩

end

end Expbuild.Rows
