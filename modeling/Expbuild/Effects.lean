import Expbuild.Transactions

/-!
What a transaction that commits can have done (`Txn`), said once for all
invariants: a query changes nothing, a request is admitted with the rows it adds
(`Admits`), and everything else changes the row of one operation, with what it
takes along.
-/
namespace Expbuild.Effects
open Expbuild.Contract Expbuild.Schema Expbuild.Tables Expbuild.Quotas Expbuild.Calls Expbuild.Transactions

/-- What admitting an operation does to the bindings and to the credentials. -/
inductive Admits (db : Db) : DbCall → Operation → Table InstanceId Binding → List Credential → Prop where
  | create {caller : Caller} {platformAdmin : Bool} {options : Options} {storageClass : String} {input : InstanceInput} {id : InstanceId}
      {operationId : OperationId} {credentials : CredentialData} {project : Project} {row : Binding}
      {desired : Manifest}
      (locked : db.projects.lookup caller.projectId = some project)
      (asked : desired = desiredObject input caller.projectId project.ns id storageClass operationId (.create input))
      (unused : db.bindings.lookup id = none)
      (new : row = { projectId := caller.projectId, resourceName := ⟨id⟩, displayName := input.name
                     templateName := input.template, templateVersion := some desired.spec.templateVersion })
      (within : checked { db with bindings := modify id (Binding.raise (inputResources input)) (db.bindings.insert id row) }
        caller.projectId = .ok ()) :
      Admits db (.createInstance caller platformAdmin options storageClass input id operationId credentials)
        (newOperation db caller operationId (some id) .create (.create input) { desired := some desired }
          (some (sealPayload operationId credentials)))
        (modify id (Binding.raise (inputResources input)) (db.bindings.insert id row))
        (⟨id,.initial id,1,.pending⟩ :: db.credentials)
  | update {caller : Caller} {instanceId : InstanceId} {input : InstanceInput} {operationId : OperationId}
      {desired : Manifest} {expected : Revision} {b : Binding}
      (present : db.bindings.lookup instanceId = some b) (project : b.projectId = caller.projectId)
      (known : Binding.known b = true) (unreleased : b.lifecycle.released = false)
      (within : checked { db with bindings := modify instanceId (Binding.raise (inputResources input)) db.bindings }
        caller.projectId = .ok ()) :
      Admits db (.updateInstance caller instanceId input operationId desired expected)
        (newOperation db caller operationId (some instanceId) .update (.update instanceId input expected)
          { desired := some desired, expectedRevision := some expected })
        (modify instanceId (Binding.raise (inputResources input)) db.bindings) db.credentials
  | rotate {caller : Caller} {instanceId : InstanceId} {operationId : OperationId} {desired : Manifest}
      {expected : Revision} {credentials : CredentialData} :
      Admits db (.rotateCredentials caller instanceId operationId desired expected credentials)
        (newOperation db caller operationId (some instanceId) .rotate (.rotate instanceId expected)
          { desired := some desired, expectedRevision := some expected } (some (sealPayload operationId credentials)))
        db.bindings (⟨instanceId,.issued operationId,nextRevision db instanceId,.pending⟩ :: db.credentials)
  | delete {caller : Caller} {instanceId : InstanceId} {operationId : OperationId} {b : Binding} {project : Project}
      (present : db.bindings.lookup instanceId = some b) (owner : b.projectId = caller.projectId)
      (locked : db.projects.lookup caller.projectId = some project)
      (bound : b.kubernetesUid.isSome = true) (unreleased : b.lifecycle.released = false) :
      Admits db (.deleteInstance caller instanceId operationId)
        (newOperation db caller operationId (some instanceId) .delete (.delete instanceId)
          { uid := b.kubernetesUid, ns := some project.ns, name := some b.resourceName })
        (modify instanceId (enter .deleting) db.bindings) db.credentials
  | volumeDelete {caller : Caller} {instanceId : InstanceId} {uid : VolumeUid} {operationId : OperationId}
      {b : Binding} {project : Project}
      (present : db.bindings.lookup instanceId = some b) (owner : b.projectId = caller.projectId)
      (locked : db.projects.lookup caller.projectId = some project)
      (retained : retains b.lifecycle = true) (bound : b.kubernetesUid.isSome = true) :
      Admits db (.deleteRetainedVolume caller instanceId uid operationId)
        (newOperation db caller operationId (some instanceId) .volumeDelete (.volumeDelete instanceId uid)
          { ns := some project.ns, name := some b.resourceName, instanceUid := b.kubernetesUid, uid := some uid })
        db.bindings db.credentials
  | reclaim {caller : Caller} {instanceId : InstanceId} {prepared b : Binding} {volumeUid : VolumeUid}
      {input : InstanceInput} {operationId : OperationId} {desired : Manifest} {credentials : CredentialData}
      (present : db.bindings.lookup instanceId = some b) (owner : b.projectId = caller.projectId)
      (retained : retains b.lifecycle = true) (same : b.kubernetesUid = prepared.kubernetesUid)
      (within : checked { db with bindings := modify instanceId (reopened input) db.bindings } caller.projectId = .ok ()) :
      Admits db (.reclaimRetainedVolume caller instanceId prepared volumeUid input operationId desired credentials)
        (newOperation db caller operationId (some instanceId) .reclaim (.reclaim instanceId volumeUid input)
          { desired := some desired, previousInstanceUID := prepared.kubernetesUid, volumeUid := some volumeUid }
          (some (sealPayload operationId credentials)))
        (modify instanceId (reopened input) db.bindings)
        (⟨instanceId,desired.spec.access.credentialsSecretRef,nextRevision db instanceId,.pending⟩ :: db.credentials)

/-- What the table of operations checks of a new row. -/
structure Insertable (db : Db) (bindings : Table InstanceId Binding) (o : Operation) : Prop where
  unused : db.operations.lookup o.id = none
  alone : ∀ {id p}, db.operations.lookup id = some p → excludes p o = false
  keyed : ∀ {id p}, db.operations.lookup id = some p →
    ¬(p.projectId = o.projectId ∧ p.kind = o.kind ∧ p.idempotencyKey = o.idempotencyKey)
  owned : ∀ {i}, o.instanceId = some i → ∃ b, bindings.lookup i = some b ∧ b.projectId = o.projectId

/-- What a committed transaction has done. -/
inductive Txn (db : Db) : DbCall → Db → Prop where
  | unchanged (c : DbCall) : Txn db c db
  | claimed {c : ClaimId} {id : OperationId} {o : Operation} (row : db.operations.lookup id = some o)
      (free : claimable db.now o = true) : Txn db (.claim c) (updateOperation id (claimedBy c db.now) db)
  | finished {o : Operation} {state : OpState} {code : Option String} {change : Change} {settled : Db}
      (holds : held db o = true) (settles : settleFinished o state (applyChange o change db) = .ok settled) :
      Txn db (.finish o state code change)
        (audit { projectId := o.projectId, instanceId := o.instanceId, operationId := some o.id,
                 action := .entered state, code := code }
          (markFailed o state (updateOperation o.id (ended db.now state code) settled)))
  | deferred {o : Operation} {code : Option String} : Txn db (.defer o code) (defer o code db)
  | bound {o : Operation} {uid : KubeUid} {generation : Nat} {i : InstanceId} {b : Binding} (holds : held db o = true)
      (instanceId : o.instanceId = some i) (row : db.bindings.lookup i = some b) (may : bindable o uid b = true) :
      Txn db (.bind o uid generation)
        (updateOperation o.id (fun row =>
            { row with state := .reconciling, targetGeneration := some generation, updatedAt := db.now })
          { db with bindings := modify i (fun b => { b with kubernetesUid := some uid }) db.bindings })
  | recorded {o : Operation} {policy : DeletionPolicy} : Txn db (.recordPolicy o policy) (recordPolicy o policy db)
  | admitted {c : DbCall} {o : Operation} {bindings : Table InstanceId Binding} {credentials : List Credential}
      {caller : Caller} {action : AuditAction} (admits : Admits db c o bindings credentials)
      (insertable : Insertable db bindings o) (named : ∀ state, action ≠ .entered state)
      (notRetry : action ≠ .operationRetry) :
      Txn db c { db with operations := db.operations.insert o.id o, bindings := bindings, credentials := credentials
                         now := db.now + 1, audit := admission caller o action :: db.audit }
  | resumed {caller : Caller} {id : OperationId} {o : Operation} {i : InstanceId} {b : Binding}
      (row : db.operations.lookup id = some o) (may : retryable o = true) (instanceId : o.instanceId = some i)
      (present : db.bindings.lookup i = some b) (available : reconcilable o b = true)
      (newest : newerExists db o = false)
      (alone : ∀ {id p}, db.operations.lookup id = some p → excludes p (Transactions.resumed db.now o) = false) :
      Txn db (.retryOperation caller id)
        { db with operations := modify id (Transactions.resumed db.now) db.operations
                  bindings := if o.kind.creates then modify i (enter .pending) db.bindings
                              else db.bindings
                  retries := ⟨caller.projectId,caller.key,id⟩ :: db.retries
                  audit := { admission caller o .operationRetry with code := o.errorCode } :: db.audit }
  | limited {caller : Caller} {limits : Quota} {expected : Nat} {snapshot : Snapshot}
      (current : quotaSnapshot db caller.projectId = .ok snapshot)
      (within : checkQuota limits snapshot.reserved snapshot.unknownReservations = .ok ()) :
      Txn db (.updateQuota caller limits expected)
        (audit { actorId := some caller.actor, projectId := caller.projectId, action := .quotaUpdate }
          (updateProject caller.projectId
            (fun p => { p with quotaLimits := limits, quotaRevision := p.quotaRevision + 1
                               quotaObservedRevision := none, quotaSyncError := none }) db))
  | projectCreated {actor : UserId} {projectId : ProjectId} {operationId : OperationId} {o : Operation}
      (new : o = newOperation db ⟨actor,projectId,toString projectId⟩ operationId none .projectCreate
        (.project ⟨projectId⟩) { ns := some ⟨projectId⟩ })
      (unused : db.projects.lookup projectId = none) (insertable : Insertable db db.bindings o) :
      Txn db (.createProject actor projectId operationId)
        (audit { actorId := some actor, projectId := projectId, action := .projectCreate }
          { db with projects := db.projects.insert projectId { ns := ⟨projectId⟩, state := .pending }
                    members := db.members.insert (projectId,actor) .admin
                    operations := db.operations.insert o.id o, now := db.now + 1 })
  | projectRetried {caller : Caller} {operationId : OperationId} {o : Operation} {project : Project}
      (new : o = newOperation db caller operationId none .projectCreate (.project project.ns) { ns := some project.ns })
      (insertable : Insertable db db.bindings o) :
      Txn db (.retryProject caller operationId)
        (audit (admission caller o .projectRetry)
          (updateProject caller.projectId (fun p => { p with state := .pending })
            { db with operations := db.operations.insert o.id o, now := db.now + 1 }))

/-! ### Opening the transactions -/

theorem insertOperation_ok {o : Operation} {db after : Db} (inserted : insertOperation o db = .ok after) :
    Insertable db db.bindings o ∧ after = { db with operations := db.operations.insert o.id o, now := db.now + 1 } := by
  simp only [insertOperation,bind_eq_ok,demand_eq_ok,pure_eq_ok] at inserted
  obtain ⟨_,⟨unused,alone⟩,_,owned,rfl⟩ := inserted
  have apart : ∀ {id p}, db.operations.lookup id = some p → excludes p o = false ∧
      (p.projectId = o.projectId && p.kind = o.kind && p.idempotencyKey = o.idempotencyKey) = false := by
    intro id p row
    exact Bool.or_eq_false_iff.mp ((anyRow_false_iff _ _).mp alone id p row)
  refine ⟨⟨unused,fun row => (apart row).1,?_,?_⟩,rfl⟩
  · rintro id p row ⟨project,kind,key⟩
    have free := (apart row).2
    simp [project,kind,key] at free
  · intro i instanceId
    rw [instanceId] at owned
    simp only [Option.all_some,Option.any_eq_true,decide_eq_true_eq] at owned
    exact owned

theorem insertCredential_ok {c : Credential} {db after : Db} (inserted : insertCredential c db = .ok after) :
    after = { db with credentials := c :: db.credentials } := by
  simp only [insertCredential,bind_eq_ok,demand_eq_ok,pure_eq_ok] at inserted
  obtain ⟨_,_,rfl⟩ := inserted
  rfl

theorem joined_some {db : Db} {projectId : ProjectId} {instanceId : InstanceId} {row : BindingRow}
    (found : joined db projectId instanceId = some row) :
    db.bindings.lookup instanceId = some row.binding ∧ row.binding.projectId = projectId ∧
      ∃ project, db.projects.lookup projectId = some project ∧ row.ns = project.ns := by
  simp only [joined,Option.bind_eq_bind,Option.bind_eq_some_iff,Option.filter_eq_some_iff,decide_eq_true_eq,
    Option.pure_def,Option.some.injEq] at found
  obtain ⟨b,⟨present,owner⟩,project,locked,rfl⟩ := found
  exact ⟨present,owner,project,locked,rfl⟩

theorem reserveResources_ok {db after : Db} {projectId : ProjectId} {instanceId : InstanceId} {input : Resources}
    {creating : Bool} (reserved : reserveResources db projectId instanceId input creating = .ok after) :
    after = { db with bindings := modify instanceId (Binding.raise input) db.bindings } ∧
      checked after projectId = .ok () ∧ ∃ b, db.bindings.lookup instanceId = some b ∧ b.projectId = projectId ∧
        b.lifecycle.released = false ∧ (creating = false → Binding.known b = true) := by
  simp only [reserveResources,bind_eq_ok,demand_eq_ok,pure_eq_ok,Option.any_eq_true,Option.filter_eq_some_iff,
    decide_eq_true_eq,Bool.not_eq_true'] at reserved
  obtain ⟨_,known,_,⟨b,⟨present,owner⟩,unreleased⟩,_,within,rfl⟩ := reserved
  refine ⟨rfl,within,b,present,owner,unreleased,?_⟩
  intro old
  rcases known with new | ⟨b',⟨present',_⟩,known⟩
  · rw [old] at new; cases new
  · rw [present] at present'; cases present'; exact known

/-- A request is either a replay, which changes nothing, or admitted. -/
theorem accept_ok {db after : Db} {caller : Caller} {roles : List Role} {kind : Kind} {requestHash : RequestHash}
    {proceed : Project → Except Failure (Db × Accepted)} {reply : Accepted}
    (accepted : accept db caller roles kind requestHash proceed = .ok (after,reply)) :
    after = db ∨ ∃ project, db.projects.lookup caller.projectId = some project ∧
      proceed project = .ok (after,reply) := by
  simp only [accept,lockProject,bind_eq_ok,demand_eq_ok,found_eq_ok] at accepted
  obtain ⟨project,⟨_,_,locked⟩,previous,_,accepted⟩ := accepted
  cases previous with
  | some o => simp only [pure_eq_ok,Prod.mk.injEq] at accepted; exact .inl accepted.1.symm
  | none => exact .inr ⟨project,locked,accepted⟩

section
variable {db after : Db} {caller : Caller} {reply : Accepted}

theorem createInstance_ok {platformAdmin : Bool} {options : Options} {storageClass : String} {input : InstanceInput} {id : InstanceId}
    {operationId : OperationId} {credentials : CredentialData}
    (done : createInstance caller platformAdmin options storageClass input id operationId credentials db = .ok (after,reply)) :
    Txn db (.createInstance caller platformAdmin options storageClass input id operationId credentials) after := by
  rcases accept_ok done with rfl | ⟨project,locked,admitted⟩
  · exact .unchanged _
  simp only [bind_eq_ok,demand_eq_ok,pure_eq_ok,Prod.mk.injEq] at admitted
  obtain ⟨_,_,_,_,_,_,_,unused,reserved,reserves,credentialed,inserts,inserted,insertion,rfl,_⟩ := admitted
  obtain ⟨rfl,within,_⟩ := reserveResources_ok reserves
  obtain rfl := insertCredential_ok inserts
  obtain ⟨insertable,rfl⟩ := insertOperation_ok insertion
  exact .admitted (.create locked rfl unused rfl within)
    ⟨insertable.unused,insertable.alone,insertable.keyed,insertable.owned⟩ (by simp) (by simp)

theorem updateInstance_ok {instanceId : InstanceId} {input : InstanceInput} {operationId : OperationId}
    {desired : Manifest} {expected : Revision}
    (done : updateInstance caller instanceId input operationId desired expected db = .ok (after,reply)) :
    Txn db (.updateInstance caller instanceId input operationId desired expected) after := by
  rcases accept_ok done with rfl | ⟨project,locked,admitted⟩
  · exact .unchanged _
  simp only [bind_eq_ok,pure_eq_ok,Prod.mk.injEq] at admitted
  obtain ⟨reserved,reserves,inserted,insertion,rfl,_⟩ := admitted
  obtain ⟨rfl,within,b,present,owner,unreleased,known⟩ := reserveResources_ok reserves
  obtain ⟨insertable,rfl⟩ := insertOperation_ok insertion
  exact .admitted (.update present owner (known rfl) unreleased within)
    ⟨insertable.unused,insertable.alone,insertable.keyed,insertable.owned⟩ (by simp) (by simp)

theorem rotateCredentials_ok {instanceId : InstanceId} {operationId : OperationId} {desired : Manifest}
    {expected : Revision} {credentials : CredentialData}
    (done : rotateCredentials caller instanceId operationId desired expected credentials db = .ok (after,reply)) :
    Txn db (.rotateCredentials caller instanceId operationId desired expected credentials) after := by
  rcases accept_ok done with rfl | ⟨project,locked,admitted⟩
  · exact .unchanged _
  simp only [bind_eq_ok,pure_eq_ok,Prod.mk.injEq] at admitted
  obtain ⟨inserted,insertion,credentialed,inserts,rfl,_⟩ := admitted
  obtain ⟨insertable,rfl⟩ := insertOperation_ok insertion
  obtain rfl := insertCredential_ok inserts
  exact .admitted .rotate ⟨insertable.unused,insertable.alone,insertable.keyed,insertable.owned⟩ (by simp) (by simp)

theorem deleteInstance_ok {instanceId : InstanceId} {operationId : OperationId}
    (done : deleteInstance caller instanceId operationId db = .ok (after,reply)) :
    Txn db (.deleteInstance caller instanceId operationId) after := by
  rcases accept_ok done with rfl | ⟨_,_,admitted⟩
  · exact .unchanged _
  simp only [bind_eq_ok,demand_eq_ok,found_eq_ok,pure_eq_ok,Prod.mk.injEq] at admitted
  obtain ⟨b,row,_,⟨bound,unreleased⟩,inserted,insertion,rfl,_⟩ := admitted
  obtain ⟨present,owner,project,locked,ns⟩ := joined_some row
  obtain ⟨insertable,rfl⟩ := insertOperation_ok insertion
  have admits : Admits db (.deleteInstance caller instanceId operationId) _ _ _ :=
    .delete present owner locked bound unreleased
  rw [← ns] at admits
  refine .admitted admits ⟨insertable.unused,insertable.alone,insertable.keyed,?_⟩ (by simp) (by simp)
  intro i same
  obtain ⟨b',present',owner'⟩ := insertable.owned same
  obtain rfl := Option.some.inj same
  exact ⟨enter .deleting b',(lookup_modify_self _ _ _).trans (by rw [present']; rfl),owner'⟩

theorem deleteRetainedVolume_ok {instanceId : InstanceId} {uid : VolumeUid} {operationId : OperationId}
    (done : deleteRetainedVolume caller instanceId uid operationId db = .ok (after,reply)) :
    Txn db (.deleteRetainedVolume caller instanceId uid operationId) after := by
  rcases accept_ok done with rfl | ⟨_,_,admitted⟩
  · exact .unchanged _
  simp only [bind_eq_ok,demand_eq_ok,found_eq_ok,pure_eq_ok,Prod.mk.injEq] at admitted
  obtain ⟨b,row,_,⟨retained,bound⟩,inserted,insertion,rfl,_⟩ := admitted
  obtain ⟨present,owner,project,locked,ns⟩ := joined_some row
  obtain ⟨insertable,rfl⟩ := insertOperation_ok insertion
  have admits : Admits db (.deleteRetainedVolume caller instanceId uid operationId) _ _ _ :=
    .volumeDelete present owner locked retained bound
  rw [← ns] at admits
  exact .admitted admits ⟨insertable.unused,insertable.alone,insertable.keyed,insertable.owned⟩ (by simp) (by simp)

theorem reclaimRetainedVolume_ok {instanceId : InstanceId} {prepared : Binding} {volumeUid : VolumeUid}
    {input : InstanceInput} {operationId : OperationId} {desired : Manifest} {credentials : CredentialData}
    (done : reclaimRetainedVolume caller instanceId prepared volumeUid input operationId desired credentials db =
      .ok (after,reply)) :
    Txn db (.reclaimRetainedVolume caller instanceId prepared volumeUid input operationId desired credentials) after := by
  rcases accept_ok done with rfl | ⟨_,_,admitted⟩
  · exact .unchanged _
  simp only [bind_eq_ok,demand_eq_ok,found_eq_ok,pure_eq_ok,Prod.mk.injEq,Option.filter_eq_some_iff,
    decide_eq_true_eq] at admitted
  obtain ⟨b,⟨present,owner⟩,_,⟨retained,same,_⟩,_,within,inserted,insertion,credentialed,inserts,rfl,_⟩ := admitted
  obtain ⟨insertable,rfl⟩ := insertOperation_ok insertion
  obtain rfl := insertCredential_ok inserts
  exact .admitted (.reclaim present owner retained same within)
    ⟨insertable.unused,insertable.alone,insertable.keyed,insertable.owned⟩ (by simp) (by simp)

theorem retryOperation_ok {operationId : OperationId}
    (done : retryOperation caller operationId db = .ok (after,reply)) :
    Txn db (.retryOperation caller operationId) after := by
  simp only [retryOperation,bind_eq_ok,demand_eq_ok,found_eq_ok,Option.filter_eq_some_iff] at done
  obtain ⟨_,_,_,_,o,⟨row,_⟩,done⟩ := done
  split at done
  · simp only [pure_eq_ok,Prod.mk.injEq] at done
    obtain ⟨rfl,_⟩ := done
    exact .unchanged _
  · simp only [bind_eq_ok,demand_eq_ok,pure_eq_ok,Prod.mk.injEq,Option.any_eq_true] at done
    obtain ⟨_,may,_,⟨i,instanceId,b,present,available⟩,_,newest,_,alone,rfl,_⟩ := done
    have txn : Txn db (.retryOperation caller operationId) _ :=
      .resumed row may instanceId present available newest
        (fun {id p} row => (anyRow_false_iff _ _).mp alone id p row)
    rw [instanceId]
    by_cases creates : o.kind.creates = true
    · simpa only [creates,if_true,updateBinding,updateOperation,audit] using txn
    · simpa only [creates,Bool.false_eq_true,if_false,updateBinding,updateOperation,audit] using txn

theorem updateQuota_ok {limits : Quota} {expected : Nat} (done : updateQuota caller limits expected db = .ok after) :
    Txn db (.updateQuota caller limits expected) after := by
  simp only [updateQuota,bind_eq_ok,demand_eq_ok,pure_eq_ok] at done
  obtain ⟨_,_,snapshot,current,_,_,_,within,rfl⟩ := done
  exact .limited current within

theorem createProject_ok {actor : UserId} {projectId : ProjectId} {operationId : OperationId}
    (done : createProject actor projectId operationId db = .ok after) :
    Txn db (.createProject actor projectId operationId) after := by
  simp only [createProject,bind_eq_ok,demand_eq_ok,pure_eq_ok] at done
  obtain ⟨_,unused,inserted,insertion,rfl⟩ := done
  obtain ⟨insertable,rfl⟩ := insertOperation_ok insertion
  exact .projectCreated rfl unused ⟨insertable.unused,insertable.alone,insertable.keyed,insertable.owned⟩

theorem retryProject_ok {operationId : OperationId} (done : retryProject caller operationId db = .ok (after,reply)) :
    Txn db (.retryProject caller operationId) after := by
  simp only [retryProject,bind_eq_ok] at done
  obtain ⟨project,_,done⟩ := done
  split at done
  · simp only [pure_eq_ok,Prod.mk.injEq] at done
    obtain ⟨rfl,_⟩ := done
    exact .unchanged _
  · simp only [bind_eq_ok,demand_eq_ok,pure_eq_ok,Prod.mk.injEq] at done
    obtain ⟨_,_,inserted,insertion,rfl,_⟩ := done
    obtain ⟨insertable,rfl⟩ := insertOperation_ok insertion
    exact .projectRetried rfl ⟨insertable.unused,insertable.alone,insertable.keyed,insertable.owned⟩

theorem finish_ok {o : Operation} {state : OpState} {code : Option String} {change : Change} {committed : Bool}
    (done : finish o state code change db = .ok (after,committed)) : Txn db (.finish o state code change) after := by
  unfold finish at done
  split at done
  · rename_i holds
    simp only [bind_eq_ok,pure_eq_ok,Prod.mk.injEq] at done
    obtain ⟨settled,settles,rfl,_⟩ := done
    exact .finished holds settles
  · simp only [pure_eq_ok,Prod.mk.injEq] at done
    obtain ⟨rfl,_⟩ := done
    exact .unchanged _

theorem bind_ok {o : Operation} {uid : KubeUid} {generation : Nat} {bound : Bool}
    (done : Transactions.bind o uid generation db = .ok (after,bound)) : Txn db (.bind o uid generation) after := by
  unfold Transactions.bind at done
  split at done
  · rename_i holds
    simp only [bind_eq_ok,demand_eq_ok,pure_eq_ok,Prod.mk.injEq,Option.any_eq_true] at done
    obtain ⟨_,⟨i,instanceId,b,row,may⟩,rfl,_⟩ := done
    rw [instanceId]
    exact .bound holds instanceId row may
  · simp only [pure_eq_ok,Prod.mk.injEq] at done
    obtain ⟨rfl,_⟩ := done
    exact .unchanged _

theorem claim_cases (db : Db) (c : ClaimId) (id : OperationId) :
    (claim c id db = (db,none)) ∨ ∃ o, db.operations.lookup id = some o ∧ claimable db.now o = true ∧
      claim c id db = (updateOperation id (claimedBy c db.now) db,some (claimedBy c db.now o)) := by
  unfold claim
  split
  · exact .inl rfl
  · rename_i o found
    obtain ⟨row,free⟩ := Option.filter_eq_some_iff.mp found
    exact .inr ⟨o,row,free,rfl⟩

end

/-- Every committed transaction is one of these. -/
theorem transact_cases {pick : Pick} {db after : Db} {c : DbCall} {v : c.Value}
    (done : transact pick db c = .ok (after,v)) : Txn db c after := by
  have query : ∀ {α : Type} {value : α} {r : Db × α}, reads db value = .ok r → r.1 = db := by
    intro α value r read; cases read; rfl
  cases c with
  | claim c =>
    simp only [transact,Except.ok.injEq] at done
    rcases claim_cases db c pick.operation with none | ⟨o,row,free,claimed⟩
    · rw [none] at done; cases done; exact .unchanged _
    · rw [claimed] at done; cases done; exact .claimed row free
  | finish o state code change => exact finish_ok done
  | defer o code => simp only [transact] at done; cases done; exact .deferred
  | bind o uid generation => exact bind_ok done
  | recordPolicy o policy => simp only [transact] at done; cases done; exact .recorded
  | quotaGate _ | volumeBinding _ _ | boundUid _ | credentialNames _ | olderCredentialNames _ _ =>
    simp only [transact] at done; cases query done; exact .unchanged _
  | projectAccess _ _ | platformAccess _ | replay _ _ _ _ | binding _ _ =>
    simp only [transact,bind_eq_ok] at done
    obtain ⟨_,done⟩ := done
    first
      | (cases query done.2; exact .unchanged _)
      | (obtain ⟨_,_,_,done⟩ := done; cases query done; exact .unchanged _)
  | createInstance _ _ _ _ _ _ _ _ => exact createInstance_ok done
  | updateInstance _ _ _ _ _ _ => exact updateInstance_ok done
  | rotateCredentials _ _ _ _ _ _ => exact rotateCredentials_ok done
  | deleteInstance _ _ _ => exact deleteInstance_ok done
  | deleteRetainedVolume _ _ _ _ => exact deleteRetainedVolume_ok done
  | reclaimRetainedVolume _ _ _ _ _ _ _ _ => exact reclaimRetainedVolume_ok done
  | retryOperation _ _ => exact retryOperation_ok done
  | updateQuota _ _ _ =>
    simp only [transact,bind_eq_ok,pure_eq_ok,Prod.mk.injEq] at done
    obtain ⟨_,done,rfl,_⟩ := done
    exact updateQuota_ok done
  | createProject _ _ _ =>
    simp only [transact,bind_eq_ok,pure_eq_ok,Prod.mk.injEq] at done
    obtain ⟨_,done,rfl,_⟩ := done
    exact createProject_ok done
  | retryProject _ _ => exact retryProject_ok done

/-! ### What `finish` does -/

/-- The row of the instance after the callback, after settlement and after a
    failure was marked. -/
def changedBinding : Change → Binding → Binding
  | .volumeDeleted => enter .deleted
  | .released policy => enter (if policy = .delete then .deleted else .detached)
  | .activated displayName _ => fun b => { enter .active b with displayName := displayName }
  | _ => id
def settledBinding (o : Operation) (state : OpState) (b : Binding) : Binding :=
  match o.request.desired.bind (fun desired => requested desired.spec) with
  | some r => if state = .succeeded ∧ o.kind.settles then Binding.settle r b else b
  | none => b
def failedBinding (o : Operation) (state : OpState) (b : Binding) : Binding :=
  if state = .failed ∧ o.kind.creates then enter .failed b else b
def finishedBinding (o : Operation) (state : OpState) (change : Change) (b : Binding) : Binding :=
  failedBinding o state (settledBinding o state (changedBinding change b))

section
variable {o : Operation} {state : OpState} {code : Option String} {change : Change} {db settled : Db}

theorem finishedBinding_succeeded (b : Binding) :
    finishedBinding o .succeeded change b = settledBinding o .succeeded (changedBinding change b) := by
  simp [finishedBinding,failedBinding]

/-- Without a settlement and without a failure of a creation there is only the
    callback. -/
theorem finishedBinding_plain (unsettled : ¬(state = .succeeded ∧ o.kind.settles = true))
    (unfailed : ¬(state = .failed ∧ o.kind.creates = true)) (b : Binding) :
    finishedBinding o state change b = changedBinding change b := by
  simp only [finishedBinding,failedBinding,settledBinding,unsettled,unfailed,if_false]
  split <;> rfl

theorem finishedBinding_failed (creates : o.kind.creates = true) (b : Binding) :
    finishedBinding o .failed .nothing b = enter .failed b := by
  simp only [finishedBinding,failedBinding,settledBinding,changedBinding,creates,and_self,if_true]
  split <;> simp

theorem lookup_updateBinding (i : Option InstanceId) (f : Binding → Binding) (db : Db) (j : InstanceId) :
    (updateBinding i f db).bindings.lookup j =
      if i = some j then (db.bindings.lookup j).map f else db.bindings.lookup j := by
  cases i with
  | none => simp [updateBinding]
  | some i => simp [updateBinding,lookup_modify,eq_comm]

theorem updateBinding_other (i : Option InstanceId) (f : Binding → Binding) (db : Db) :
    (updateBinding i f db).operations = db.operations ∧ (updateBinding i f db).now = db.now ∧
      (updateBinding i f db).projects = db.projects ∧ (updateBinding i f db).audit = db.audit ∧
      (updateBinding i f db).credentials = db.credentials := by
  cases i with
  | none => exact ⟨rfl,rfl,rfl,rfl,rfl⟩
  | some i => exact ⟨rfl,rfl,rfl,rfl,rfl⟩

theorem applyChange_bindings (j : InstanceId) : (applyChange o change db).bindings.lookup j =
    if o.instanceId = some j then (db.bindings.lookup j).map (changedBinding change) else db.bindings.lookup j := by
  cases change with
  | nothing | projectReady => simp [applyChange,changedBinding,updateProject]
  | volumeDeleted | released policy | activated displayName secretName =>
    exact lookup_updateBinding _ _ _ _

theorem applyChange_other : (applyChange o change db).operations = db.operations ∧
    (applyChange o change db).now = db.now ∧ (applyChange o change db).audit = db.audit := by
  cases change with
  | nothing | projectReady => exact ⟨rfl,rfl,rfl⟩
  | volumeDeleted =>
    obtain ⟨operations,now,_,audit,_⟩ := updateBinding_other o.instanceId (enter .deleted) db
    exact ⟨operations,now,audit⟩
  | released policy =>
    obtain ⟨operations,now,_,audit,_⟩ :=
      updateBinding_other o.instanceId (enter (if policy = .delete then .deleted else .detached)) db
    exact ⟨operations,now,audit⟩
  | activated displayName secretName =>
    obtain ⟨operations,now,_,audit,_⟩ :=
      updateBinding_other o.instanceId (fun b => { enter .active b with displayName := displayName }) db
    exact ⟨operations,now,audit⟩

theorem settleFinished_ok (settles : settleFinished o state db = .ok settled) :
    (∀ j, settled.bindings.lookup j =
      if o.instanceId = some j then (db.bindings.lookup j).map (settledBinding o state) else db.bindings.lookup j) ∧
    settled.operations = db.operations ∧ settled.now = db.now ∧ settled.projects = db.projects ∧
    settled.audit = db.audit ∧ settled.credentials = db.credentials := by
  have none' : settled = db → (∀ b, settledBinding o state b = b) → (∀ j, settled.bindings.lookup j =
      if o.instanceId = some j then (db.bindings.lookup j).map (settledBinding o state) else db.bindings.lookup j) ∧
    settled.operations = db.operations ∧ settled.now = db.now ∧ settled.projects = db.projects ∧
    settled.audit = db.audit ∧ settled.credentials = db.credentials := by
    rintro rfl idle
    refine ⟨fun j => ?_,rfl,rfl,rfl,rfl,rfl⟩
    rw [show settledBinding o state = id from funext idle]
    simp
  unfold settleFinished at settles
  split at settles
  · rename_i i desired instanceId asks
    split at settles
    · rename_i done
      unfold settleResources at settles
      split at settles
      · cases settles
      · rename_i r amounts
        cases settles
        refine ⟨fun j => ?_,rfl,rfl,rfl,rfl,rfl⟩
        have settle : settledBinding o state = Binding.settle r := by
          funext b
          simp only [settledBinding,asks,Option.bind_some,amounts,done,and_self,if_true]
        rw [settle,instanceId]
        simp only [lookup_modify,Option.some.injEq,eq_comm]
    · rename_i other
      cases settles
      refine none' rfl (fun b => ?_)
      simp only [settledBinding,other,if_false]
      split <;> rfl
  · cases settles
    rename_i none''
    cases asks : o.request.desired with
    | none => exact none' rfl (fun b => by simp [settledBinding,asks])
    | some desired =>
      cases instanceId : o.instanceId with
      | none => exact ⟨fun j => by simp,rfl,rfl,rfl,rfl,rfl⟩
      | some i => exact absurd asks (none'' i desired instanceId)

theorem markFailed_bindings (j : InstanceId) : (markFailed o state db).bindings.lookup j =
    if o.instanceId = some j then (db.bindings.lookup j).map (failedBinding o state) else db.bindings.lookup j := by
  unfold markFailed failedBinding
  split
  · rename_i project
    have other : ¬(state = .failed ∧ o.kind.creates = true) := by rw [project.2]; simp [Kind.creates]
    simp [updateProject,other]
  · split
    · exact lookup_updateBinding _ _ _ _
    · simp

theorem markFailed_other : (markFailed o state db).operations = db.operations ∧ (markFailed o state db).now = db.now ∧
    (markFailed o state db).audit = db.audit ∧ (markFailed o state db).credentials = db.credentials := by
  unfold markFailed
  split
  · exact ⟨rfl,rfl,rfl,rfl⟩
  · split
    · obtain ⟨operations,now,_,audit,credentials⟩ := updateBinding_other o.instanceId (enter .failed) db
      exact ⟨operations,now,audit,credentials⟩
    · exact ⟨rfl,rfl,rfl,rfl⟩

/-- What no transaction of a worker changes in a project. -/
def grant (p : Project) : Namespace × Quota := (p.ns,p.quotaLimits)

/-- An update of a row leaves the columns that it does not name. -/
theorem view_modify {α : Type} {view : Project → α} {t : Table ProjectId Project} (id k : ProjectId) {f : Project → Project}
    (keeps : ∀ p, view (f p) = view p) : ((modify k f t).lookup id).map view = (t.lookup id).map view := by
  rw [lookup_modify]
  split
  · rw [Option.map_map,show view ∘ f = view from funext keeps]
  · rfl

theorem grant_modify {t : Table ProjectId Project} (id k : ProjectId) {f : Project → Project}
    (keeps : ∀ p, grant (f p) = grant p) : ((modify k f t).lookup id).map grant = (t.lookup id).map grant :=
  view_modify id k keeps

/-- What a committed `finish` leaves. -/
theorem finished_bindings (settles : settleFinished o state (applyChange o change db) = .ok settled) (e : AuditEvent)
    (j : InstanceId) :
    (audit e (markFailed o state (updateOperation o.id (ended db.now state code) settled))).bindings.lookup j =
      if o.instanceId = some j then (db.bindings.lookup j).map (finishedBinding o state change)
      else db.bindings.lookup j := by
  change (markFailed o state (updateOperation o.id (ended db.now state code) settled)).bindings.lookup j = _
  rw [markFailed_bindings]
  change (if _ then (settled.bindings.lookup j).map _ else settled.bindings.lookup j) = _
  rw [(settleFinished_ok settles).1 j,applyChange_bindings]
  by_cases own : o.instanceId = some j
  · simp only [own,if_true,Option.map_map]
    rfl
  · simp only [own,if_false]

theorem finished_operations (settles : settleFinished o state (applyChange o change db) = .ok settled)
    (e : AuditEvent) :
    (audit e (markFailed o state (updateOperation o.id (ended db.now state code) settled))).operations =
      modify o.id (ended db.now state code) db.operations := by
  change (markFailed o state (updateOperation o.id (ended db.now state code) settled)).operations = _
  rw [markFailed_other.1]
  change modify o.id (ended db.now state code) settled.operations = _
  rw [(settleFinished_ok settles).2.1,applyChange_other.1]

theorem finished_now (settles : settleFinished o state (applyChange o change db) = .ok settled) (e : AuditEvent) :
    (audit e (markFailed o state (updateOperation o.id (ended db.now state code) settled))).now = db.now := by
  change (markFailed o state (updateOperation o.id (ended db.now state code) settled)).now = _
  rw [markFailed_other.2.1]
  change settled.now = _
  rw [(settleFinished_ok settles).2.2.1,applyChange_other.2.1]

/-- Of a project a committed `finish` changes the state only. -/
theorem finished_view {α : Type} {view : Project → α} (keeps : ∀ p state, view { p with state := state } = view p)
    (settles : settleFinished o state (applyChange o change db) = .ok settled) (e : AuditEvent) (id : ProjectId) :
    ((audit e (markFailed o state (updateOperation o.id (ended db.now state code) settled))).projects.lookup id).map view =
      (db.projects.lookup id).map view := by
  have changed : (settled.projects.lookup id).map view = (db.projects.lookup id).map view := by
    rw [(settleFinished_ok settles).2.2.2.1]
    have idle : ∀ f, (updateBinding o.instanceId f db).projects = db.projects := fun f => (updateBinding_other _ _ _).2.2.1
    cases change with
    | nothing => rfl
    | projectReady => exact view_modify id _ (fun p => keeps p _)
    | volumeDeleted => exact congrArg (fun t => (t.lookup id).map view) (idle _)
    | released policy => exact congrArg (fun t => (t.lookup id).map view) (idle _)
    | activated displayName secretName => exact congrArg (fun t => (t.lookup id).map view) (idle _)
  change ((markFailed o state (updateOperation o.id (ended db.now state code) settled)).projects.lookup id).map view = _
  rw [← changed]
  unfold markFailed
  split
  · exact view_modify id _ (fun p => keeps p _)
  · split
    · rw [(updateBinding_other o.instanceId (enter .failed) (updateOperation o.id (ended db.now state code) settled)).2.2.1]
      rfl
    · rfl

theorem finished_projects (settles : settleFinished o state (applyChange o change db) = .ok settled) (e : AuditEvent)
    (id : ProjectId) :
    ((audit e (markFailed o state (updateOperation o.id (ended db.now state code) settled))).projects.lookup id).map grant =
      (db.projects.lookup id).map grant :=
  finished_view (fun _ _ => rfl) settles e id

theorem finished_audit (settles : settleFinished o state (applyChange o change db) = .ok settled) (e : AuditEvent) :
    (audit e (markFailed o state (updateOperation o.id (ended db.now state code) settled))).audit = e :: db.audit := by
  change e :: (markFailed o state (updateOperation o.id (ended db.now state code) settled)).audit = _
  rw [markFailed_other.2.2.1]
  change e :: settled.audit = _
  rw [(settleFinished_ok settles).2.2.2.2.1,applyChange_other.2.2]

end
end Expbuild.Effects
