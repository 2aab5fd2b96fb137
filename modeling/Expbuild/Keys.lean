import Expbuild.Rows

/-!
Idempotency keys in the tables. A request names what it asks for (`Identity`): a
kind of operation with the hash of its parsed body, or the operation that it
resumes. A key is used up by the row that it stands in (`Uses`), and each key by
one row only (`Keyed`). The transaction of a request under a key is either a
repetition, which changes nothing, or the one that uses the key up
(`transact_identified`).
-/
namespace Expbuild.Keys
open Expbuild.Contract Expbuild.Schema Expbuild.Tables Expbuild.Quotas Expbuild.Programs Expbuild.Calls
open Expbuild.Transactions Expbuild.Effects Expbuild.Platform Expbuild.Rows
open Expbuild.Routes (Request)

/-- The parsed body of a request. -/
inductive Body where
  | request (hash : RequestHash)
  | resume (operationId : OperationId)
  deriving DecidableEq

/-- What a request asks for under its key, and of whom. A retry has no kind: its keys
    are apart from those of all operations. -/
structure Identity where
  caller : Caller
  roles : List Role
  kind : Option Kind
  body : Body
  deriving DecidableEq

/-- The requests that carry an idempotency key. -/
def identify : Request → Option Identity
  | .createInstance caller input => some ⟨caller,[.admin,.maintainer],some .create,.request (.create input)⟩
  | .updateInstance caller instanceId input expected =>
    some ⟨caller,[.admin,.maintainer],some .update,.request (.update instanceId input expected)⟩
  | .rotateCredentials caller instanceId expected =>
    some ⟨caller,[.admin],some .rotate,.request (.rotate instanceId expected)⟩
  | .deleteInstance caller instanceId => some ⟨caller,[.admin],some .delete,.request (.delete instanceId)⟩
  | .deleteRetainedVolume caller instanceId uid =>
    some ⟨caller,[.admin],some .volumeDelete,.request (.volumeDelete instanceId uid)⟩
  | .reclaimRetainedVolume caller instanceId volumeUid input =>
    some ⟨caller,[.admin],some .reclaim,.request (.reclaim instanceId volumeUid input)⟩
  | .retryOperation caller operationId => some ⟨caller,[.admin],none,.resume operationId⟩
  | _ => none

/-- The transactions that may use a key up. -/
def identity : DbCall → Option Identity
  | .createInstance caller _ _ _ input _ _ _ =>
    some ⟨caller,[.admin,.maintainer],some .create,.request (.create input)⟩
  | .updateInstance caller instanceId input _ _ expected =>
    some ⟨caller,[.admin,.maintainer],some .update,.request (.update instanceId input expected)⟩
  | .rotateCredentials caller instanceId _ _ expected _ =>
    some ⟨caller,[.admin],some .rotate,.request (.rotate instanceId expected)⟩
  | .deleteInstance caller instanceId _ => some ⟨caller,[.admin],some .delete,.request (.delete instanceId)⟩
  | .deleteRetainedVolume caller instanceId uid _ =>
    some ⟨caller,[.admin],some .volumeDelete,.request (.volumeDelete instanceId uid)⟩
  | .reclaimRetainedVolume caller instanceId _ volumeUid input _ _ _ =>
    some ⟨caller,[.admin],some .reclaim,.request (.reclaim instanceId volumeUid input)⟩
  | .retryOperation caller operationId => some ⟨caller,[.admin],none,.resume operationId⟩
  | _ => none

/-- What such a transaction returns. -/
def receipt : (c : DbCall) → c.Value → Option Accepted
  | .createInstance _ _ _ _ _ _ _ _,v | .updateInstance _ _ _ _ _ _,v | .rotateCredentials _ _ _ _ _ _,v
  | .deleteInstance _ _ _,v | .deleteRetainedVolume _ _ _ _,v | .reclaimRetainedVolume _ _ _ _ _ _ _ _,v
  | .retryOperation _ _,v => some v
  | _,_ => none

/-- The operation that such a transaction would add or resume. -/
def target : DbCall → Option OperationId
  | .createInstance _ _ _ _ _ _ id _ | .updateInstance _ _ _ id _ _ | .rotateCredentials _ _ id _ _ _
  | .deleteInstance _ _ id | .deleteRetainedVolume _ _ _ id | .reclaimRetainedVolume _ _ _ _ _ id _ _
  | .retryOperation _ id => some id
  | _ => none

/-- The key has been used for the operation, by a request with the body: it stands in
    the row of the operation, or in the one of its retry. -/
def Uses (db : Db) (projectId : ProjectId) (key : String) (id : OperationId) (body : Body) : Option Kind → Prop
  | some kind => ∃ o, db.operations.lookup id = some o ∧ o.projectId = projectId ∧ o.kind = kind ∧
      o.idempotencyKey = key ∧ body = .request o.requestHash
  | none => ⟨projectId,key,id⟩ ∈ db.retries ∧ body = .resume id

/-- The key of a request has been used. -/
def Identity.Used (k : Identity) (db : Db) (id : OperationId) (body : Body) : Prop :=
  Uses db k.caller.projectId k.caller.key id body k.kind

/-- The answer to a key that was used with another body. -/
def conflict : Failure := .http 409 "Idempotency key was already used for another request"

/-- Each key is used once, and only in projects that are there. -/
structure Keyed (db : Db) : Prop where
  operations : ∀ {id id' o o'}, db.operations.lookup id = some o → db.operations.lookup id' = some o' →
    o.projectId = o'.projectId → o.kind = o'.kind → o.idempotencyKey = o'.idempotencyKey → id = id'
  retries : ∀ {projectId key id id'}, ⟨projectId,key,id⟩ ∈ db.retries → ⟨projectId,key,id'⟩ ∈ db.retries → id = id'
  bindings : ∀ {i b}, db.bindings.lookup i = some b → ∃ project, db.projects.lookup b.projectId = some project
  resumed : ∀ {row}, row ∈ db.retries → ∃ o, db.operations.lookup row.operationId = some o ∧
    o.projectId = row.projectId ∧ o.kind ≠ .projectCreate

section
variable {db db' : Db} {c : DbCall} {k : Identity} {id id' : OperationId} {body body' : Body}

theorem Keyed.unique (keyed : Keyed db) (used : k.Used db id body) (used' : k.Used db id' body') :
    id = id' ∧ body = body' := by
  unfold Identity.Used at used used'
  cases kind : k.kind with
  | some asked =>
    rw [kind] at used used'
    obtain ⟨o,row,project,rfl,key,rfl⟩ := used
    obtain ⟨o',row',project',kind',key',rfl⟩ := used'
    obtain rfl := keyed.operations row row' (project.trans project'.symm) kind'.symm (key.trans key'.symm)
    rw [row] at row'
    cases row'
    exact ⟨rfl,rfl⟩
  | none =>
    rw [kind] at used used'
    obtain ⟨row,rfl⟩ := used
    obtain ⟨row',rfl⟩ := used'
    obtain rfl := keyed.retries row row'
    exact ⟨rfl,rfl⟩

/-! ### What the tables keep -/

theorem finished_retries {o : Operation} {state : OpState} {code : Option String} {change : Change} {settled : Db}
    (settles : settleFinished o state (applyChange o change db) = .ok settled) (e : AuditEvent) :
    (audit e (markFailed o state (updateOperation o.id (ended db.now state code) settled))).retries = db.retries := by
  have updated : ∀ (i : Option InstanceId) f (db : Db), (updateBinding i f db).retries = db.retries := by
    intro i f db
    cases i <;> rfl
  have changed : (applyChange o change db).retries = db.retries := by
    cases change with
    | nothing | projectReady => rfl
    | volumeDeleted | released _ | activated _ _ => exact updated _ _ _
  have settledAs : settled.retries = (applyChange o change db).retries := by
    unfold settleFinished settleResources at settles
    split at settles
    · split at settles
      · split at settles
        · cases settles
        · cases settles; rfl
      · cases settles; rfl
    · cases settles; rfl
  have marked : (markFailed o state (updateOperation o.id (ended db.now state code) settled)).retries = settled.retries := by
    unfold markFailed
    split
    · rfl
    · split
      · exact updated _ _ _
      · rfl
  exact marked.trans (settledAs.trans changed)

/-- A transaction keeps all retries, or is itself one under a key that was unused. -/
theorem transact_retries {pick : Pick} {v : c.Value} (ran : transact pick db c = .ok (db',v)) :
    db'.retries = db.retries ∨ ∃ caller id o, c = .retryOperation caller id ∧
      db'.retries = ⟨caller.projectId,caller.key,id⟩ :: db.retries ∧
      (∀ row ∈ db.retries, ¬(row.projectId = caller.projectId ∧ row.idempotencyKey = caller.key)) ∧
      db.operations.lookup id = some o ∧ o.projectId = caller.projectId ∧ retryable o = true := by
  by_cases retry : ∃ caller id, c = .retryOperation caller id
  · obtain ⟨caller,id,rfl⟩ := retry
    simp only [transact,retryOperation,bind_eq_ok,demand_eq_ok,found_eq_ok,Option.filter_eq_some_iff,
      decide_eq_true_eq] at ran
    obtain ⟨_,_,_,_,o,⟨row,owner⟩,done⟩ := ran
    split at done
    · simp only [pure_eq_ok,Prod.mk.injEq] at done
      obtain ⟨rfl,_⟩ := done
      exact .inl rfl
    · rename_i unused
      simp only [bind_eq_ok,demand_eq_ok,pure_eq_ok,Prod.mk.injEq] at done
      obtain ⟨_,may,_,_,_,_,_,_,rfl,_⟩ := done
      refine .inr ⟨caller,id,o,rfl,?_,?_,row,owner,may⟩
      · by_cases creates : o.kind.creates = true
        · simp only [creates,if_true,audit]
          cases o.instanceId <;> rfl
        · simp only [creates,Bool.false_eq_true,if_false,audit]
          rfl
      · intro row member same
        have other := List.find?_eq_none.mp unused row member
        simp [same.1,same.2] at other
  · refine .inl ?_
    cases transact_cases ran with
    | finished holds settles => exact finished_retries settles _
    | resumed _ _ _ _ _ _ _ => exact absurd ⟨_,_,rfl⟩ retry
    | unchanged _ | claimed _ _ | deferred | bound _ _ _ _ | recorded | admitted _ _ _ _ | limited _ _
    | projectCreated _ _ _ | projectRetried _ _ => rfl

/-- A used key stays used. -/
theorem Identity.Used.transact {pick : Pick} {v : c.Value} (used : k.Used db id body)
    (ran : transact pick db c = .ok (db',v)) : k.Used db' id body := by
  unfold Identity.Used at used ⊢
  cases kind : k.kind with
  | some asked =>
    rw [kind] at used
    obtain ⟨o,row,project,rfl,key,rfl⟩ := used
    obtain ⟨o',row',progress⟩ := Txn.operation (transact_cases ran) row
    have same := progress.asked
    refine ⟨o',row',(asked_projectId same).trans project,asked_kind same,?_,?_⟩
    · exact (congrArg (fun q => q.idempotencyKey) same).trans key
    · exact congrArg Body.request (congrArg (fun q => q.requestHash) same).symm
  | none =>
    rw [kind] at used
    obtain ⟨row,rfl⟩ := used
    refine ⟨?_,rfl⟩
    rcases transact_retries ran with same | ⟨caller,_,_,_,more,_⟩
    · rw [same]; exact row
    · rw [more]; exact List.mem_cons_of_mem _ row

theorem Keyed.transact {pick : Pick} {v : c.Value} (keyed : Keyed db) (ran : transact pick db c = .ok (db',v)) :
    Keyed db' := by
  have txn := transact_cases ran
  have evolves := Txn.evolves txn
  refine { operations := ?_, retries := ?_, bindings := ?_, resumed := ?_ }
  · intro id id' o o' row row' project kind key
    cases found : db.operations.lookup id with
    | none =>
      have opened := Txn.opened txn found row
      by_contra other
      rw [opened.others (Ne.symm other)] at row'
      exact opened.insertable.keyed row' ⟨project.symm,kind.symm,key.symm⟩
    | some p =>
      obtain ⟨q,now,progress⟩ := Txn.operation txn found
      rw [row] at now
      cases now
      cases found' : db.operations.lookup id' with
      | none =>
        have opened := Txn.opened txn found' row'
        by_contra other
        rw [opened.others other] at row
        exact opened.insertable.keyed row ⟨project,kind,key⟩
      | some p' =>
        obtain ⟨q',now',progress'⟩ := Txn.operation txn found'
        rw [row'] at now'
        cases now'
        have same := progress.asked
        have same' := progress'.asked
        refine keyed.operations found found' ?_ ?_ ?_
        · rw [← asked_projectId same,← asked_projectId same',project]
        · rw [← asked_kind same,← asked_kind same',kind]
        · exact (congrArg (fun q => q.idempotencyKey) same).symm.trans
            (key.trans (congrArg (fun q => q.idempotencyKey) same'))
  · intro projectId key id id' row row'
    rcases transact_retries ran with same | ⟨caller,_,_,_,more,unused,_⟩
    · rw [same] at row row'
      exact keyed.retries row row'
    · rw [more] at row row'
      rcases List.mem_cons.mp row with new | old
      · rcases List.mem_cons.mp row' with new' | old'
        · cases new; cases new'; rfl
        · cases new; exact (unused _ old' ⟨rfl,rfl⟩).elim
      · rcases List.mem_cons.mp row' with new' | old'
        · cases new'; exact (unused _ old ⟨rfl,rfl⟩).elim
        · exact keyed.retries old old'
  · intro i b row
    cases found : db.bindings.lookup i with
    | none =>
      obtain ⟨caller,_,_,_,_,_,_,project,_,there,rfl,_⟩ := Txn.provisioned txn found row
      obtain ⟨project',there',_⟩ := evolves.projects there
      exact ⟨project',there'⟩
    | some b' =>
      obtain ⟨b'',row',becomes⟩ := Txn.binding txn found
      rw [row] at row'
      cases row'
      obtain ⟨project,there⟩ := keyed.bindings found
      obtain ⟨project',there',_⟩ := evolves.projects there
      exact ⟨project',by rw [becomes.same_binding.projectId]; exact there'⟩
  · have kept : ∀ {row : Retry} {o : Operation}, db.operations.lookup row.operationId = some o →
        o.projectId = row.projectId → o.kind ≠ .projectCreate → ∃ o, db'.operations.lookup row.operationId = some o ∧
          o.projectId = row.projectId ∧ o.kind ≠ .projectCreate := by
      intro row o there project kind
      obtain ⟨o',there',same⟩ := evolves.operations there
      exact ⟨o',there',(asked_projectId same).trans project,by rw [asked_kind same]; exact kind⟩
    intro row member
    rcases transact_retries ran with same | ⟨caller,id,o,_,more,_,there,owner,may⟩
    · rw [same] at member
      obtain ⟨o,there,project,kind⟩ := keyed.resumed member
      exact kept there project kind
    · rw [more] at member
      rcases List.mem_cons.mp member with rfl | member
      · refine kept there owner ?_
        intro wrong
        simp [retryable,recoveringCreate,wrong,Kind.creates,Kind.applies] at may
      · obtain ⟨o,there,project,kind⟩ := keyed.resumed member
        exact kept there project kind

theorem Keyed.idle (keyed : Keyed db) (idle : Idle db db') : Keyed db' where
  operations row row' := keyed.operations (by rwa [idle.operations] at row) (by rwa [idle.operations] at row')
  retries row row' := keyed.retries (by rwa [idle.retries] at row) (by rwa [idle.retries] at row')
  bindings row := by
    rw [idle.projects]
    exact keyed.bindings (by rwa [idle.bindings] at row)
  resumed row := by
    rw [idle.operations]
    exact keyed.resumed (by rwa [idle.retries] at row)

theorem Identity.Used.idle (used : k.Used db id body) (idle : Idle db db') : k.Used db' id body := by
  unfold Identity.Used Uses at *
  rw [idle.operations,idle.retries]
  exact used

/-- The project of a used key is there. -/
theorem Keyed.project (keyed : Keyed db) (sound : Sound db) (used : k.Used db id body)
    (kind : k.kind ≠ some .projectCreate) : ∃ project, db.projects.lookup k.caller.projectId = some project := by
  have placed : ∀ {id o}, db.operations.lookup id = some o → o.projectId = k.caller.projectId → o.kind ≠ .projectCreate →
      ∃ project, db.projects.lookup k.caller.projectId = some project := by
    intro id o row owner kind
    obtain ⟨i,instanceId⟩ := Option.isSome_iff_exists.mp (sound.placed row kind)
    obtain ⟨b,present,same⟩ := sound.owned row instanceId
    obtain ⟨project,there⟩ := keyed.bindings present
    exact ⟨project,by rw [← owner,← same]; exact there⟩
  unfold Identity.Used at used
  cases asked : k.kind with
  | some kind' =>
    rw [asked] at used kind
    obtain ⟨o,row,owner,rfl,_,_⟩ := used
    exact placed row owner (fun wrong => kind (by rw [wrong]))
  | none =>
    rw [asked] at used
    obtain ⟨o,row,owner,kind⟩ := keyed.resumed used.1
    exact placed row owner kind

/-! ### Requests under a key -/

/-- What the one transaction does that uses a key up: it adds or resumes one operation,
    changes at most the binding of that operation, and adds at most one credential and
    one row of the audit. -/
structure Admission (k : Identity) (db db' : Db) (id : OperationId) : Prop where
  unused : ∀ id' body', ¬k.Used db id' body'
  used : k.Used db' id k.body
  added : k.kind.isSome → db.operations.lookup id = none
  resumed : k.kind = none → ∃ o, db.operations.lookup id = some o ∧ o.state = .failed
  operations : ∀ j, j ≠ id → db'.operations.lookup j = db.operations.lookup j
  bindings : ∃ o i, db'.operations.lookup id = some o ∧ o.instanceId = some i ∧
    ∀ j, j ≠ i → db'.bindings.lookup j = db.bindings.lookup j
  credentials : db'.credentials = db.credentials ∨ ∃ row, db'.credentials = row :: db.credentials
  audit : ∃ e, e.operationId = some id ∧ db'.audit = e :: db.audit
  projects : db'.projects = db.projects

section
variable {o : Operation} {bindings : Table InstanceId Binding} {credentials : List Credential}

theorem Admits.identity (admits : Admits db c o bindings credentials) (asks : identity c = some k) :
    o.projectId = k.caller.projectId ∧ some o.kind = k.kind ∧ o.idempotencyKey = k.caller.key ∧
      k.body = .request o.requestHash := by
  cases admits <;> cases asks <;> exact ⟨rfl,rfl,rfl,rfl⟩

theorem Admits.target (admits : Admits db c o bindings credentials) : target c = some o.id := by
  cases admits <;> rfl

theorem Admits.elsewhere (admits : Admits db c o bindings credentials) :
    ∃ i, o.instanceId = some i ∧ ∀ j, j ≠ i → bindings.lookup j = db.bindings.lookup j := by
  cases admits with
  | create locked asked unused new within =>
    refine ⟨_,rfl,fun j other => ?_⟩
    rw [lookup_modify_ne other,AList.lookup_insert_ne other]
  | update present project known unreleased within => exact ⟨_,rfl,fun j other => lookup_modify_ne other _ _⟩
  | delete present owner locked bound unreleased => exact ⟨_,rfl,fun j other => lookup_modify_ne other _ _⟩
  | reclaim present owner retained same within => exact ⟨_,rfl,fun j other => lookup_modify_ne other _ _⟩
  | rotate | volumeDelete present owner locked retained bound => exact ⟨_,rfl,fun _ _ => rfl⟩

theorem Admits.credentialed (admits : Admits db c o bindings credentials) :
    credentials = db.credentials ∨ ∃ row, credentials = row :: db.credentials := by
  cases admits with
  | create locked asked unused new within => exact .inr ⟨_,rfl⟩
  | rotate => exact .inr ⟨_,rfl⟩
  | reclaim present owner retained same within => exact .inr ⟨_,rfl⟩
  | update present project known unreleased within => exact .inl rfl
  | delete present owner locked bound unreleased => exact .inl rfl
  | volumeDelete present owner locked retained bound => exact .inl rfl

end

/-- A request under a key changes nothing, or uses the key up. -/
theorem transact_identified {pick : Pick} {v : c.Value} (sound : Sound db) (asks : identity c = some k)
    (ran : transact pick db c = .ok (db',v)) : db' = db ∨ ∃ id, target c = some id ∧ Admission k db db' id := by
  cases transact_cases ran with
  | unchanged _ => exact .inl rfl
  | claimed _ _ | finished _ _ | deferred | bound _ _ _ _ | recorded | limited _ _ | projectCreated _ _ _
  | projectRetried _ _ => cases asks
  | admitted admits insertable named notRetry =>
    rename_i o bindings credentials caller action
    obtain ⟨project,kind,key,body⟩ := Admits.identity admits asks
    obtain ⟨i,instanceId,elsewhere⟩ := Admits.elsewhere admits
    have inserted : (db.operations.insert o.id o).lookup o.id = some o := AList.lookup_insert _
    refine .inr ⟨o.id,Admits.target admits,?_⟩
    refine
      { unused := ?_, used := ?_, added := fun _ => insertable.unused, resumed := ?_, operations := ?_
        bindings := ⟨o,i,inserted,instanceId,elsewhere⟩, credentials := Admits.credentialed admits
        audit := ⟨_,rfl,rfl⟩, projects := rfl }
    · intro id' body' used
      unfold Identity.Used at used
      rw [← kind] at used
      obtain ⟨p,row,project',kind',key',_⟩ := used
      exact insertable.keyed row ⟨project'.trans project.symm,kind',key'.trans key.symm⟩
    · unfold Identity.Used
      rw [← kind]
      exact ⟨o,inserted,project,rfl,key,body⟩
    · intro none'
      rw [none'] at kind
      cases kind
    · intro j other
      exact AList.lookup_insert_ne other
  | resumed row may instanceId present available newest alone =>
    rename_i caller id o i b
    cases asks
    rcases transact_retries ran with same | ⟨caller',id',o',call,_,unused,_⟩
    · exact absurd same (by simp)
    cases call
    have now : (modify id (Transactions.resumed db.now) db.operations).lookup id = some (Transactions.resumed db.now o) := by
      rw [lookup_modify_self,row]
      rfl
    have failed : o.state = .failed := by
      simp only [retryable,Bool.and_eq_true,decide_eq_true_eq] at may
      exact may.1
    refine .inr ⟨id,rfl,?_⟩
    refine
      { unused := ?_, used := ⟨List.mem_cons_self,rfl⟩, added := fun wrong => (by cases wrong)
        resumed := fun _ => ⟨o,row,failed⟩, operations := fun j other => lookup_modify_ne other _ _
        bindings := ⟨_,i,now,instanceId,?_⟩, credentials := .inl rfl, audit := ⟨_,?_,rfl⟩, projects := rfl }
    · rintro id' body' ⟨row',_⟩
      exact unused _ row' ⟨rfl,rfl⟩
    · intro j other
      by_cases creates : o.kind.creates = true
      · simp only [creates,if_true]
        exact lookup_modify_ne other _ _
      · simp only [creates,Bool.false_eq_true,if_false]
    · exact congrArg some (sound.id row)

theorem lockProject_ok {caller : Caller} {roles : List Role} {project : Project}
    (may : permitted db caller roles = true) (there : db.projects.lookup caller.projectId = some project) :
    lockProject db caller roles = .ok project := by
  simp [lockProject,may,there]

/-- What `replay` finds of a used key. -/
theorem replay_used {caller : Caller} {roles : List Role} {kind : Kind} {requestHash : RequestHash} (keyed : Keyed db)
    (sound : Sound db) (used : (⟨caller,roles,some kind,.request requestHash⟩ : Identity).Used db id body) :
    (body = .request requestHash → ∃ o, replay db caller.projectId kind caller.key requestHash = .ok (some o) ∧ o.id = id) ∧
    (body ≠ .request requestHash → replay db caller.projectId kind caller.key requestHash = .error conflict) := by
  obtain ⟨o,row,project,rfl,key,rfl⟩ := used
  cases found : findRow (fun p : Operation => decide (p.projectId = caller.projectId ∧ p.kind = o.kind ∧
      p.idempotencyKey = caller.key)) db.operations with
  | none => exact absurd (findRow_none found row) (by simp [project,key])
  | some p =>
    obtain ⟨same,id',row'⟩ := findRow_some found
    simp only [decide_eq_true_eq] at same
    obtain rfl := keyed.operations row row' (project.trans same.1.symm) same.2.1.symm (key.trans same.2.2.symm)
    rw [row] at row'
    cases row'
    unfold replay
    rw [found]
    constructor
    · intro hash
      exact ⟨o,by simp [demand,Body.request.inj hash],sound.id row⟩
    · intro other
      have differs : o.requestHash ≠ requestHash := fun hash => other (congrArg _ hash)
      simp [demand,differs,conflict,Bind.bind,Except.bind]

/-- What a request under a used key is answered. -/
structure Repeats (k : Identity) (db : Db) (id : OperationId) (body : Body) (outcome : Except Failure (Db × Accepted)) :
    Prop where
  same : body = k.body → ∃ o, outcome = .ok (db,⟨o,true,none⟩) ∧ o.id = id
  other : body ≠ k.body → outcome = .error conflict

theorem accept_used {caller : Caller} {roles : List Role} {kind : Kind} {requestHash : RequestHash}
    {proceed : Project → Except Failure (Db × Accepted)} (keyed : Keyed db) (sound : Sound db)
    (kinds : kind ≠ .projectCreate) (used : (⟨caller,roles,some kind,.request requestHash⟩ : Identity).Used db id body)
    (may : permitted db caller roles = true) :
    Repeats ⟨caller,roles,some kind,.request requestHash⟩ db id body
      (accept db caller roles kind requestHash proceed) := by
  obtain ⟨project,there⟩ := keyed.project sound used (fun wrong => kinds (Option.some.inj wrong))
  obtain ⟨same,other⟩ := replay_used keyed sound used
  have locked := lockProject_ok may there
  refine ⟨fun equal => ?_,fun differs => ?_⟩
  · obtain ⟨o,replayed,named⟩ := same equal
    exact ⟨o,by simp [accept,locked,replayed,Bind.bind,Except.bind,pure,Except.pure],named⟩
  · simp [accept,locked,other differs,Bind.bind,Except.bind]

theorem retryOperation_used {caller : Caller} {operationId : OperationId} (keyed : Keyed db) (sound : Sound db)
    (used : (⟨caller,[.admin],none,.resume operationId⟩ : Identity).Used db id body)
    (may : permitted db caller [.admin] = true) :
    Repeats ⟨caller,[.admin],none,.resume operationId⟩ db id body (retryOperation caller operationId db) := by
  obtain ⟨project,there⟩ := keyed.project sound used (by simp)
  obtain ⟨row,rfl⟩ := used
  have locked := lockProject_ok may there
  have found : db.retries.find? (fun r => r.projectId = caller.projectId ∧ r.idempotencyKey = caller.key) =
      some ⟨caller.projectId,caller.key,id⟩ := by
    cases first : db.retries.find? (fun r => r.projectId = caller.projectId ∧ r.idempotencyKey = caller.key) with
    | none => exact absurd (List.find?_eq_none.mp first _ row) (by simp)
    | some r =>
      have member := List.mem_of_find?_eq_some first
      have same := List.find?_some first
      obtain ⟨projectId,key,id'⟩ := r
      simp only [decide_eq_true_eq] at same
      obtain ⟨rfl,rfl⟩ := same
      rw [keyed.retries row member]
  obtain ⟨o,there,owner,_⟩ := keyed.resumed row
  have mine : (db.operations.lookup id).filter (fun o => o.projectId = caller.projectId) = some o :=
    Option.filter_eq_some_iff.mpr ⟨there,by simpa using owner⟩
  refine ⟨fun equal => ?_,fun differs => ?_⟩
  · cases equal
    refine ⟨o,?_,sound.id there⟩
    simp only [retryOperation,locked,found]
    simp [mine,Bind.bind,Except.bind,pure,Except.pure,demand,Schema.found]
  · have other : id ≠ operationId := fun same => differs (congrArg _ same)
    simp only [retryOperation,locked,found]
    simp [other,Bind.bind,Except.bind,demand,conflict]

theorem permitted_of_lock {caller : Caller} {roles : List Role} {project : Project}
    (locked : lockProject db caller roles = .ok project) : permitted db caller roles = true := by
  simp only [lockProject,bind_eq_ok,demand_eq_ok] at locked
  obtain ⟨_,may,_⟩ := locked
  exact may

/-- What a transaction under a key returns, if it commits: it was permitted, it names
    the operation that the key is used for, and a password only of its own. -/
structure Returns (k : Identity) (db db' : Db) (c : DbCall) (a : Accepted) : Prop where
  permitted : permitted db k.caller k.roles = true
  used : k.Used db' a.operation.id k.body
  reveals : a.credentials = none ∨ (target c = some a.operation.id ∧ k.kind.isSome)

theorem replay_found {caller : Caller} {roles : List Role} {kind : Kind} {requestHash : RequestHash} {o : Operation}
    (sound : Sound db) (replayed : replay db caller.projectId kind caller.key requestHash = .ok (some o)) :
    (⟨caller,roles,some kind,.request requestHash⟩ : Identity).Used db o.id (.request requestHash) := by
  unfold replay at replayed
  split at replayed
  · cases replayed
  · rename_i p found
    simp only [bind_eq_ok,demand_eq_ok,pure_eq_ok] at replayed
    obtain ⟨_,hash,same⟩ := replayed
    cases same
    obtain ⟨same,id,row⟩ := findRow_some found
    simp only [decide_eq_true_eq] at same
    rw [sound.id row]
    exact ⟨o,row,same.1,same.2.1,same.2.2,congrArg _ hash.symm⟩

theorem accept_returns {caller : Caller} {roles : List Role} {kind : Kind} {requestHash : RequestHash}
    {proceed : Project → Except Failure (Db × Accepted)} {a : Accepted} (sound : Sound db)
    (accepted : accept db caller roles kind requestHash proceed = .ok (db',a))
    (own : ∀ project, proceed project = .ok (db',a) → target c = some a.operation.id ∧
      db'.operations.lookup a.operation.id = some a.operation ∧ a.operation.projectId = caller.projectId ∧
      a.operation.kind = kind ∧ a.operation.idempotencyKey = caller.key ∧ a.operation.requestHash = requestHash) :
    Returns ⟨caller,roles,some kind,.request requestHash⟩ db db' c a := by
  simp only [accept,bind_eq_ok] at accepted
  obtain ⟨project,locked,previous,replayed,accepted⟩ := accepted
  cases previous with
  | some o =>
    simp only [pure_eq_ok,Prod.mk.injEq] at accepted
    obtain ⟨rfl,rfl⟩ := accepted
    exact ⟨permitted_of_lock locked,replay_found sound replayed,.inl rfl⟩
  | none =>
    obtain ⟨targets,row,projectId,kinds,key,hash⟩ := own project accepted
    exact ⟨permitted_of_lock locked,⟨_,row,projectId,kinds,key,congrArg _ hash.symm⟩,.inr ⟨targets,rfl⟩⟩

theorem retryOperation_returns {caller : Caller} {operationId : OperationId} {a : Accepted} (sound : Sound db)
    (ran : retryOperation caller operationId db = .ok (db',a)) :
    Returns ⟨caller,[.admin],none,.resume operationId⟩ db db' (.retryOperation caller operationId) a := by
  simp only [retryOperation,bind_eq_ok,demand_eq_ok,found_eq_ok,Option.filter_eq_some_iff] at ran
  obtain ⟨project,locked,_,same,o,⟨row,_⟩,done⟩ := ran
  refine ⟨permitted_of_lock locked,?_,.inl ?_⟩
  · split at done
    · rename_i r found
      simp only [pure_eq_ok,Prod.mk.injEq] at done
      obtain ⟨rfl,rfl⟩ := done
      have member := List.mem_of_find?_eq_some found
      have keyed := List.find?_some found
      rw [found] at same
      obtain ⟨projectId,key,id'⟩ := r
      simp only [Option.all_some,decide_eq_true_eq] at same keyed
      obtain ⟨rfl,rfl⟩ := keyed
      subst same
      rw [sound.id row]
      exact ⟨member,rfl⟩
    · simp only [bind_eq_ok,pure_eq_ok,Prod.mk.injEq] at done
      obtain ⟨_,_,_,_,_,_,_,_,rfl,rfl⟩ := done
      have added : (⟨caller.projectId,caller.key,operationId⟩ : Retry) ∈
          (⟨caller.projectId,caller.key,operationId⟩ : Retry) :: db.retries := List.mem_cons_self
      change Identity.Used _ _ o.id _
      rw [sound.id row]
      refine ⟨?_,rfl⟩
      by_cases creates : o.kind.creates = true
      · simp only [creates,if_true,audit]
        cases o.instanceId <;> exact added
      · simp only [creates,Bool.false_eq_true,if_false,audit]
        exact added
  · split at done
    · simp only [pure_eq_ok,Prod.mk.injEq] at done
      obtain ⟨_,rfl⟩ := done
      rfl
    · simp only [bind_eq_ok,pure_eq_ok,Prod.mk.injEq] at done
      obtain ⟨_,_,_,_,_,_,_,_,_,rfl⟩ := done
      rfl

theorem transact_returns {pick : Pick} {v : c.Value} {a : Accepted} (sound : Sound db) (asks : identity c = some k)
    (ran : transact pick db c = .ok (db',v)) (returned : receipt c v = some a) : Returns k db db' c a := by
  cases c with
  | createInstance caller platformAdmin options storageClass input id operationId credentials =>
    cases asks
    cases returned
    refine accept_returns sound ran (fun project admitted => ?_)
    simp only [bind_eq_ok,pure_eq_ok,Prod.mk.injEq] at admitted
    obtain ⟨_,_,_,_,_,_,_,_,_,_,_,_,_,insertion,rfl,rfl⟩ := admitted
    obtain ⟨_,rfl⟩ := insertOperation_ok insertion
    exact ⟨rfl,AList.lookup_insert _,rfl,rfl,rfl,rfl⟩
  | updateInstance caller instanceId input operationId desired expected =>
    cases asks
    cases returned
    refine accept_returns sound ran (fun project admitted => ?_)
    simp only [bind_eq_ok,pure_eq_ok,Prod.mk.injEq] at admitted
    obtain ⟨_,_,_,insertion,rfl,rfl⟩ := admitted
    obtain ⟨_,rfl⟩ := insertOperation_ok insertion
    exact ⟨rfl,AList.lookup_insert _,rfl,rfl,rfl,rfl⟩
  | rotateCredentials caller instanceId operationId desired expected credentials =>
    cases asks
    cases returned
    refine accept_returns sound ran (fun project admitted => ?_)
    simp only [bind_eq_ok,pure_eq_ok,Prod.mk.injEq] at admitted
    obtain ⟨_,insertion,_,inserts,rfl,rfl⟩ := admitted
    obtain ⟨_,rfl⟩ := insertOperation_ok insertion
    obtain rfl := insertCredential_ok inserts
    exact ⟨rfl,AList.lookup_insert _,rfl,rfl,rfl,rfl⟩
  | deleteInstance caller instanceId operationId =>
    cases asks
    cases returned
    refine accept_returns sound ran (fun project admitted => ?_)
    simp only [bind_eq_ok,pure_eq_ok,Prod.mk.injEq] at admitted
    obtain ⟨_,_,_,_,_,insertion,rfl,rfl⟩ := admitted
    obtain ⟨_,rfl⟩ := insertOperation_ok insertion
    exact ⟨rfl,AList.lookup_insert _,rfl,rfl,rfl,rfl⟩
  | deleteRetainedVolume caller instanceId uid operationId =>
    cases asks
    cases returned
    refine accept_returns sound ran (fun project admitted => ?_)
    simp only [bind_eq_ok,pure_eq_ok,Prod.mk.injEq] at admitted
    obtain ⟨_,_,_,_,_,insertion,rfl,rfl⟩ := admitted
    obtain ⟨_,rfl⟩ := insertOperation_ok insertion
    exact ⟨rfl,AList.lookup_insert _,rfl,rfl,rfl,rfl⟩
  | reclaimRetainedVolume caller instanceId prepared volumeUid input operationId desired credentials =>
    cases asks
    cases returned
    refine accept_returns sound ran (fun project admitted => ?_)
    simp only [bind_eq_ok,pure_eq_ok,Prod.mk.injEq] at admitted
    obtain ⟨_,_,_,_,_,_,_,insertion,_,inserts,rfl,rfl⟩ := admitted
    obtain ⟨_,rfl⟩ := insertOperation_ok insertion
    obtain rfl := insertCredential_ok inserts
    exact ⟨rfl,AList.lookup_insert _,rfl,rfl,rfl,rfl⟩
  | retryOperation caller operationId =>
    cases asks
    cases returned
    exact retryOperation_returns sound ran
  | _ => cases asks

/-- What a permitted request under a used key is answered, whatever it asks for. -/
theorem transact_used {pick : Pick} (keyed : Keyed db) (sound : Sound db) (asks : identity c = some k)
    (used : k.Used db id body) (may : permitted db k.caller k.roles = true) :
    (body = k.body → ∃ v o, transact pick db c = .ok (db,v) ∧ receipt c v = some ⟨o,true,none⟩ ∧ o.id = id) ∧
      (body ≠ k.body → transact pick db c = .error conflict) := by
  cases c with
  | createInstance _ _ _ _ _ _ _ _ | updateInstance _ _ _ _ _ _ | rotateCredentials _ _ _ _ _ _ | deleteInstance _ _ _
  | deleteRetainedVolume _ _ _ _ | reclaimRetainedVolume _ _ _ _ _ _ _ _ =>
    cases asks
    refine ⟨fun same => ?_,fun other => (accept_used keyed sound (by decide) used may).other other⟩
    obtain ⟨o,ran,named⟩ := (accept_used keyed sound (by decide) used may).same same
    exact ⟨_,o,ran,rfl,named⟩
  | retryOperation caller operationId =>
    cases asks
    have repeats := retryOperation_used keyed sound used may
    refine ⟨fun same => ?_,repeats.other⟩
    obtain ⟨o,ran,named⟩ := repeats.same same
    exact ⟨_,o,ran,rfl,named⟩
  | _ => cases asks

end
end Expbuild.Keys
