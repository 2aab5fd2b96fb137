import Expbuild.Calls
import Expbuild.Quotas

/-!
The transactions of the management database, each as the function from the
tables before to the tables after; a transaction that throws leaves them as they
were. `now()` is the time at which the transaction runs, and time has passed
between two admissions, so that `created_at` orders operations as they were
admitted.
-/
namespace Expbuild.Transactions
open Expbuild.Contract Expbuild.Schema Expbuild.Tables Expbuild.Quotas Expbuild.Calls

/-! ### Statements that several transactions share -/

/-- A violated unique index is answered by status 409. -/
def alreadyExists : Failure := .http 409 "Resource already exists"

def audit (e : AuditEvent) (db : Db) : Db := { db with audit := e :: db.audit }

/-- `UPDATE instance_bindings SET ... WHERE id=$1`; no row has a null id. -/
def updateBinding (id : Option InstanceId) (f : Binding → Binding) (db : Db) : Db :=
  match id with
  | some i => { db with bindings := modify i f db.bindings }
  | none => db
/-- `SET lifecycle=...`. -/
def enter (lifecycle : Lifecycle) (b : Binding) : Binding := { b with lifecycle := lifecycle }
def updateOperation (id : OperationId) (f : Operation → Operation) (db : Db) : Db :=
  { db with operations := modify id f db.operations }
def updateProject (id : ProjectId) (f : Project → Project) (db : Db) : Db :=
  { db with projects := modify id f db.projects }
/-- `UPDATE instance_credentials SET state=... WHERE instance_id=$1`. -/
def updateCredentials (id : Option InstanceId) (state : SecretName → CredentialState) (db : Db) : Db :=
  { db with credentials := db.credentials.map (fun c =>
      if some c.instanceId = id then { c with state := state c.secretName } else c) }

/-- Whether the user is active and has one of the roles in the project, or is a
    platform administrator. -/
def permitted (db : Db) (caller : Caller) (roles : List Role) : Bool :=
  (db.users.lookup caller.actor).any (fun user => user.active &&
    (user.platformAdmin || (db.members.lookup (caller.projectId,caller.actor)).any (fun role => role ∈ roles)))

def lockProject (db : Db) (caller : Caller) (roles : List Role) : Except Failure Project := do
  demand (permitted db caller roles) (.http 403 "Permission denied")
  found (db.projects.lookup caller.projectId) (.http 404 "Project not found")

def replay (db : Db) (projectId : ProjectId) (kind : Kind) (key : String) (requestHash : RequestHash) :
    Except Failure (Option Operation) :=
  match findRow (fun o => o.projectId = projectId ∧ o.kind = kind ∧ o.idempotencyKey = key) db.operations with
  | none => .ok none
  | some o => do
    demand (o.requestHash = requestHash) (.http 409 "Idempotency key was already used for another request")
    return some o

/-- Whether two rows of `operations` violate `operations_one_active` or
    `operations_one_project_init` together. -/
def excludes (o p : Operation) : Bool :=
  o.state.active && p.state.active &&
    ((o.instanceId.isSome && o.instanceId = p.instanceId) ||
      (o.kind = .projectCreate && p.kind = .projectCreate && o.projectId = p.projectId))

/-- The row of a new operation, with the defaults of the table. -/
def newOperation (db : Db) (caller : Caller) (id : OperationId) (instanceId : Option InstanceId) (kind : Kind)
    (requestHash : RequestHash) (request : OpRequest) (secretPayload : Option Sealed := none) : Operation where
  id := id
  projectId := caller.projectId
  instanceId := instanceId
  kind := kind
  idempotencyKey := caller.key
  requestHash := requestHash
  request := request
  secretPayload := secretPayload
  nextAttemptAt := db.now
  deadlineAt := db.now + 1200
  createdAt := db.now
  updatedAt := db.now

/-- `INSERT INTO operations`, with the keys and indexes of the table. -/
def insertOperation (o : Operation) (db : Db) : Except Failure Db := do
  demand (db.operations.lookup o.id = none ∧ anyRow (fun _ p => excludes p o ||
    (p.projectId = o.projectId && p.kind = o.kind && p.idempotencyKey = o.idempotencyKey)) db.operations = false)
    alreadyExists
  demand (o.instanceId.all (fun i => (db.bindings.lookup i).any (fun b => b.projectId = o.projectId))) (.api none)
  return { db with operations := db.operations.insert o.id o, now := db.now + 1 }

/-- `INSERT INTO instance_credentials`. -/
def insertCredential (c : Credential) (db : Db) : Except Failure Db := do
  demand (¬∃ old ∈ db.credentials, old.instanceId = c.instanceId ∧ old.secretName = c.secretName) alreadyExists
  return { db with credentials := c :: db.credentials }
/-- `COALESCE(MAX(revision),0)+1` of an instance. -/
def nextRevision (db : Db) (instanceId : InstanceId) : Nat :=
  ((db.credentials.filter (fun c => c.instanceId = instanceId)).map (fun c => c.revision)).foldr max 0 + 1

/-- A row with its project. -/
def joined (db : Db) (projectId : ProjectId) (instanceId : InstanceId) : Option BindingRow := do
  let b ← (db.bindings.lookup instanceId).filter (fun b => b.projectId = projectId)
  let p ← db.projects.lookup projectId
  return ⟨b,p.ns⟩

/-! ### The worker -/

/-- The condition of the claim: an unfinished operation whose turn has come and
    that no worker holds. -/
def claimable (now : Nat) (o : Operation) : Bool :=
  o.state.active && decide (o.nextAttemptAt ≤ now) && o.leaseUntil.all (fun lease => lease < now)

def claimedBy (claim : ClaimId) (now : Nat) (o : Operation) : Operation :=
  { o with workerId := some claim, leaseUntil := some (now + 30),
           state := if o.state = .pending then .applying else o.state, updatedAt := now }

/-- The claim of `tick`. Rows that other transactions hold are skipped, so that any
    row that fulfils the condition may be picked. -/
def claim (claim : ClaimId) (pick : OperationId) (db : Db) : Db × Option Operation :=
  match (db.operations.lookup pick).filter (claimable db.now) with
  | none => (db,none)
  | some o => (updateOperation pick (claimedBy claim db.now) db,some (claimedBy claim db.now o))

/-- `worker_id=$2 AND lease_until>now()`. -/
def leased (now : Nat) (o row : Operation) : Bool :=
  o.workerId.isSome && row.workerId = o.workerId && row.leaseUntil.any (fun lease => now < lease)
def held (db : Db) (o : Operation) : Bool :=
  (db.operations.lookup o.id).any (fun row =>
    leased db.now o row && (row.state = .applying || row.state = .reconciling))

/-- The `apply` callback of `finish`. -/
def applyChange (o : Operation) : Change → Db → Db
  | .nothing => id
  | .projectReady => updateProject o.projectId (fun p => { p with state := .ready })
  | .volumeDeleted => updateBinding o.instanceId (enter .deleted)
  | .released policy => fun db =>
    updateCredentials o.instanceId (fun _ => .revoked)
      (updateBinding o.instanceId (enter (if policy = .delete then .deleted else .detached)) db)
  | .activated displayName secretName => fun db =>
    updateCredentials o.instanceId (fun name => if name = secretName then .active else .revoked)
      (updateBinding o.instanceId (fun b => { enter .active b with displayName := displayName }) db)

/-- Settlement at the end of a successful request. -/
def settleFinished (o : Operation) (state : OpState) (db : Db) : Except Failure Db :=
  match o.instanceId,o.request.desired with
  | some i,some desired => if state = .succeeded ∧ o.kind.settles then settleResources db i desired else .ok db
  | _,_ => .ok db

def ended (now : Nat) (state : OpState) (code : Option String) (o : Operation) : Operation :=
  { o with state := state, errorCode := code, secretPayload := none, workerId := none, leaseUntil := none
           updatedAt := now }

/-- What a failure marks besides the operation. -/
def markFailed (o : Operation) (state : OpState) (db : Db) : Db :=
  if state = .failed ∧ o.kind = .projectCreate then updateProject o.projectId (fun p => { p with state := .failed }) db
  else if state = .failed ∧ o.kind.creates then updateBinding o.instanceId (enter .failed) db
  else db

def finish (o : Operation) (state : OpState) (code : Option String) (change : Change) (db : Db) :
    Except Failure (Db × Bool) :=
  if held db o then do
    let settled ← settleFinished o state (applyChange o change db)
    let marked := markFailed o state (updateOperation o.id (ended db.now state code) settled)
    return (audit { projectId := o.projectId, instanceId := o.instanceId, operationId := some o.id,
                    action := .entered state, code := code } marked,true)
  else return (db,false)

def defer (o : Operation) (code : Option String) (db : Db) : Db :=
  updateOperation o.id (fun row => if leased db.now o row then
    { row with leaseUntil := none, workerId := none, nextAttemptAt := db.now + 2, errorCode := code
               updatedAt := db.now } else row) db

/-- The condition of the update in `bind`. -/
def bindable (o : Operation) (uid : KubeUid) (b : Binding) : Bool :=
  b.projectId = o.projectId && (b.kubernetesUid = none || b.kubernetesUid = some uid ||
    (o.kind = .reclaim && b.kubernetesUid.isSome && b.kubernetesUid = o.request.previousInstanceUID))

def bind (o : Operation) (uid : KubeUid) (generation : Nat) (db : Db) : Except Failure (Db × Bool) :=
  if held db o then do
    demand (o.instanceId.any (fun i => (db.bindings.lookup i).any (bindable o uid)))
      (.operation "instance_identity_conflict" false)
    return (updateOperation o.id (fun row =>
        { row with state := .reconciling, targetGeneration := some generation, updatedAt := db.now })
      (updateBinding o.instanceId (fun b => { b with kubernetesUid := some uid }) db),true)
  else return (db,false)

def recordPolicy (o : Operation) (policy : DeletionPolicy) (db : Db) : Db :=
  updateOperation o.id (fun row => if leased db.now o row then
    { row with request := { row.request with deletionPolicy := some policy } } else row) db

def credentialNames (db : Db) (instanceId : Option InstanceId) : List SecretName :=
  (db.credentials.filter (fun c => some c.instanceId = instanceId)).map (fun c => c.secretName)
/-- The names of the revisions below the one of the given name. -/
def olderCredentialNames (db : Db) (instanceId : Option InstanceId) (secretName : SecretName) : List SecretName :=
  let rows := db.credentials.filter (fun c => some c.instanceId = instanceId)
  match rows.find? (fun c => c.secretName = secretName) with
  | none => []
  | some current => (rows.filter (fun c => c.revision < current.revision)).map (fun c => c.secretName)

/-! ### The routes -/

/-- An accepted request: the project is locked, a repeated key returns the
    operation it was used for, and otherwise the request is admitted. -/
def accept (db : Db) (caller : Caller) (roles : List Role) (kind : Kind) (requestHash : RequestHash)
    (proceed : Project → Except Failure (Db × Accepted)) : Except Failure (Db × Accepted) := do
  let project ← lockProject db caller roles
  let previous ← replay db caller.projectId kind caller.key requestHash
  match previous with
  | some o => return (db,⟨o,true,none⟩)
  | none => proceed project

def inputResources (input : InstanceInput) : Resources := ⟨input.storageGiB,input.cpuMillis,input.memoryMiB⟩

/-- The audit row of an admission. -/
def admission (caller : Caller) (o : Operation) (action : AuditAction) : AuditEvent :=
  { actorId := some caller.actor, projectId := o.projectId, instanceId := o.instanceId, operationId := some o.id,
    action := action }

def createInstance (caller : Caller) (platformAdmin : Bool) (options : Options) (storageClass : String)
    (input : InstanceInput) (id : InstanceId) (operationId : OperationId) (credentials : CredentialData) (db : Db) :
    Except Failure (Db × Accepted) :=
  let requestHash := RequestHash.create input
  accept db caller [.admin,.maintainer] .create requestHash fun project => do
    demand (input.exposure = .gateway → options.templates.gatewayEnabled)
      (.http 409 "Gateway exposure is not enabled")
    demand (templateEnabled input.template options.templates) (.http 409 "Template is not enabled")
    demand (project.state = .ready) (.http 409 "Project initialization is not complete")
    let desired := desiredObject input caller.projectId project.ns id storageClass operationId requestHash
    demand (db.bindings.lookup id = none) alreadyExists
    let row : Binding :=
      { projectId := caller.projectId, resourceName := desired.name, displayName := input.name
        templateName := input.template, templateVersion := some desired.spec.templateVersion }
    let reserved ← reserveResources { db with bindings := db.bindings.insert id row } caller.projectId id
      (inputResources input) true
    let credentialed ← insertCredential ⟨id,desired.spec.access.credentialsSecretRef,1,.pending⟩ reserved
    let o := newOperation db caller operationId (some id) .create requestHash { desired := some desired }
      (some (sealPayload operationId credentials))
    let inserted ← insertOperation o credentialed
    -- only administrators see the password
    let administers := platformAdmin || db.members.lookup (caller.projectId,caller.actor) = some .admin
    return (audit (admission caller o .instanceCreate) inserted,⟨o,false,if administers then some credentials else none⟩)

def updateInstance (caller : Caller) (instanceId : InstanceId) (input : InstanceInput) (operationId : OperationId)
    (desired : Manifest) (expected : Revision) (db : Db) : Except Failure (Db × Accepted) :=
  let requestHash := RequestHash.update instanceId input expected
  accept db caller [.admin,.maintainer] .update requestHash fun _ => do
    let reserved ← reserveResources db caller.projectId instanceId (inputResources input)
    let o := newOperation db caller operationId (some instanceId) .update requestHash
      { desired := some desired, expectedRevision := some expected }
    let inserted ← insertOperation o reserved
    return (audit (admission caller o .instanceUpdate) inserted,⟨o,false,none⟩)

def rotateCredentials (caller : Caller) (instanceId : InstanceId) (operationId : OperationId) (desired : Manifest)
    (expected : Revision) (credentials : CredentialData) (db : Db) : Except Failure (Db × Accepted) :=
  let requestHash := RequestHash.rotate instanceId expected
  accept db caller [.admin] .rotate requestHash fun _ => do
    let o := newOperation db caller operationId (some instanceId) .rotate requestHash
      { desired := some desired, expectedRevision := some expected } (some (sealPayload operationId credentials))
    let inserted ← insertOperation o db
    let credentialed ← insertCredential
      ⟨instanceId,.issued operationId,nextRevision inserted instanceId,.pending⟩ inserted
    return (audit (admission caller o .credentialRotate) credentialed,⟨o,false,some credentials⟩)

def deleteInstance (caller : Caller) (instanceId : InstanceId) (operationId : OperationId) (db : Db) :
    Except Failure (Db × Accepted) :=
  let requestHash := RequestHash.delete instanceId
  accept db caller [.admin] .delete requestHash fun _ => do
    let b ← found (joined db caller.projectId instanceId) (.http 404 "Instance not found")
    demand (b.binding.kubernetesUid.isSome ∧ b.binding.lifecycle.released = false)
      (.http 409 "Instance has no active Kubernetes binding")
    let o := newOperation db caller operationId (some instanceId) .delete requestHash
      { uid := b.binding.kubernetesUid, ns := some b.ns, name := some b.binding.resourceName }
    let inserted ← insertOperation o db
    return (audit (admission caller o .instanceDelete)
      (updateBinding (some instanceId) (enter .deleting) inserted),⟨o,false,none⟩)

/-- `['detached','failed'].includes(lifecycle)`. -/
def retains (lifecycle : Lifecycle) : Bool := lifecycle = .detached || lifecycle = .failed

def deleteRetainedVolume (caller : Caller) (instanceId : InstanceId) (uid : VolumeUid) (operationId : OperationId)
    (db : Db) : Except Failure (Db × Accepted) :=
  let requestHash := RequestHash.volumeDelete instanceId uid
  accept db caller [.admin] .volumeDelete requestHash fun _ => do
    let b ← found (joined db caller.projectId instanceId) (.http 404 "Instance not found")
    demand (retains b.binding.lifecycle ∧ b.binding.kubernetesUid.isSome)
      (.http 409 "Instance does not have retained storage")
    let o := newOperation db caller operationId (some instanceId) .volumeDelete requestHash
      { ns := some b.ns, name := some b.binding.resourceName, instanceUid := b.binding.kubernetesUid,
        uid := some uid }
    let inserted ← insertOperation o db
    return (audit (admission caller o .volumeDelete) inserted,⟨o,false,none⟩)

/-- The row of a reclaimed instance. -/
def reopened (input : InstanceInput) (b : Binding) : Binding :=
  Binding.raise (inputResources input) (enter .pending b)

/-- The second half of a reclaim: the row must be as it was when the request was
    prepared. -/
def reclaimRetainedVolume (caller : Caller) (instanceId : InstanceId) (prepared : Binding) (volumeUid : VolumeUid)
    (input : InstanceInput) (operationId : OperationId) (desired : Manifest) (credentials : CredentialData) (db : Db) :
    Except Failure (Db × Accepted) :=
  let requestHash := RequestHash.reclaim instanceId volumeUid input
  accept db caller [.admin] .reclaim requestHash fun _ => do
    let current ← found ((db.bindings.lookup instanceId).filter (fun b => b.projectId = caller.projectId))
      (.http 409 "Instance changed during reclaim preparation")
    demand (retains current.lifecycle ∧ current.kubernetesUid = prepared.kubernetesUid ∧
        current.templateName = input.template ∧ current.templateVersion = prepared.templateVersion ∧
        current.reservedStorageGib = prepared.reservedStorageGib ∧
        current.reservedCpuMillis = prepared.reservedCpuMillis ∧
        current.reservedMemoryMib = prepared.reservedMemoryMib)
      (.http 409 "Instance changed during reclaim preparation")
    let raised := updateBinding (some instanceId) (reopened input) db
    checked raised caller.projectId
    let o := newOperation db caller operationId (some instanceId) .reclaim requestHash
      { desired := some desired, previousInstanceUID := prepared.kubernetesUid, volumeUid := some volumeUid }
      (some (sealPayload operationId credentials))
    let inserted ← insertOperation o raised
    let credentialed ← insertCredential
      ⟨instanceId,desired.spec.access.credentialsSecretRef,nextRevision inserted instanceId,.pending⟩ inserted
    return (audit (admission caller o .volumeReclaim) credentialed,⟨o,false,some credentials⟩)

/-- A later request on the same instance, which a retry would come too late for. -/
def newerExists (db : Db) (o : Operation) : Bool :=
  anyRow (fun id p => p.instanceId.isSome && p.instanceId = o.instanceId && id ≠ o.id && o.createdAt ≤ p.createdAt)
    db.operations

def resumed (now : Nat) (o : Operation) : Operation :=
  { o with state := .reconciling, errorCode := none, workerId := none, leaseUntil := none, nextAttemptAt := now,
           deadlineAt := now + 1200, updatedAt := now }

/-- Whether a retry can recover the object that a lost creation left. -/
def recoveringCreate (o : Operation) : Bool := o.kind.creates && o.targetGeneration.isNone

/-- The conditions of a retry on the operation and on its binding. -/
def retryable (o : Operation) : Bool :=
  o.state = .failed && (o.kind = .delete || recoveringCreate o || (o.kind.applies && o.targetGeneration.isSome))
def reconcilable (o : Operation) (b : Binding) : Bool :=
  (recoveringCreate o || b.kubernetesUid.isSome) &&
    (if o.kind = .delete then b.lifecycle = .deleting && o.request.uid = b.kubernetesUid
     else !(b.lifecycle = .deleting || b.lifecycle.released))

def retryOperation (caller : Caller) (operationId : OperationId) (db : Db) : Except Failure (Db × Accepted) := do
  let _ ← lockProject db caller [.admin]
  let replayed := db.retries.find? (fun r => r.projectId = caller.projectId ∧ r.idempotencyKey = caller.key)
  demand (replayed.all (fun r => r.operationId = operationId))
    (.http 409 "Idempotency key was already used for another request")
  let o ← found ((db.operations.lookup operationId).filter (fun o => o.projectId = caller.projectId))
    (.http 404 "Operation not found")
  match replayed with
  | some _ => return (db,⟨o,true,none⟩)
  | none => do
    demand (retryable o) (.http 409 "Only failed instance operations with a recoverable request can be resumed")
    demand (o.instanceId.any (fun i => (db.bindings.lookup i).any (reconcilable o)))
      (.http 409 "Instance is no longer available for reconciliation")
    demand (newerExists db o = false) (.http 409 "A newer instance operation exists")
    demand (anyRow (fun _ p => excludes p (resumed db.now o)) db.operations = false) alreadyExists
    let resumption := updateOperation operationId (resumed db.now)
      { db with retries := ⟨caller.projectId,caller.key,operationId⟩ :: db.retries }
    let pending := if o.kind.creates then updateBinding o.instanceId (enter .pending) resumption
      else resumption
    return (audit { admission caller o .operationRetry with code := o.errorCode } pending,
      ⟨resumed db.now o,false,none⟩)

def platformAdministrator (db : Db) (actor : UserId) : Bool :=
  (db.users.lookup actor).any (fun user => user.active && user.platformAdmin)

def updateQuota (caller : Caller) (limits : Quota) (expected : Nat) (db : Db) : Except Failure Db := do
  demand (platformAdministrator db caller.actor) (.http 403 "Platform administrator required")
  let current ← quotaSnapshot db caller.projectId
  demand (current.revision = expected) (.http 409 "Project quota changed")
  checkQuota limits current.reserved current.unknownReservations
  return audit { actorId := some caller.actor, projectId := caller.projectId, action := .quotaUpdate }
    (updateProject caller.projectId (fun p => { p with quotaLimits := limits, quotaRevision := p.quotaRevision + 1,
                                                       quotaObservedRevision := none, quotaSyncError := none }) db)

def createProject (actor : UserId) (projectId : ProjectId) (operationId : OperationId) (db : Db) :
    Except Failure Db := do
  demand (db.projects.lookup projectId = none) alreadyExists
  let ns : Namespace := ⟨projectId⟩
  let caller : Caller := ⟨actor,projectId,toString projectId⟩
  let o := newOperation db caller operationId none .projectCreate (.project ns) { ns := some ns }
  let inserted ← insertOperation o
    { db with projects := db.projects.insert projectId { ns := ns, state := .pending }
              members := db.members.insert (projectId,actor) .admin }
  return audit { actorId := some actor, projectId := projectId, action := .projectCreate } inserted

def retryProject (caller : Caller) (operationId : OperationId) (db : Db) : Except Failure (Db × Accepted) := do
  let project ← lockProject db caller [.admin]
  match findRow (fun o => o.projectId = caller.projectId ∧ o.kind = .projectCreate ∧ o.idempotencyKey = caller.key)
      db.operations with
  | some o => return (db,⟨o,true,none⟩)
  | none => do
    demand (project.state = .failed) (.http 409 "Only failed project initialization can be retried")
    let o := newOperation db caller operationId none .projectCreate (.project project.ns) { ns := some project.ns }
    let inserted ← insertOperation o db
    return (audit (admission caller o .projectRetry)
      (updateProject caller.projectId (fun p => { p with state := .pending }) inserted),⟨o,false,none⟩)

/-! ### All of them -/

/-- What the database leaves open: which row a claim picks and what the quota gate
    and the clock of the process say. -/
structure Pick where
  operation : OperationId := 0
  gate : Bool := true
  clock : Nat := 0
  deriving DecidableEq,Repr

/-- A query. -/
def reads {α : Type} (db : Db) (value : α) : Except Failure (Db × α) := .ok (db,value)

def transact (pick : Pick) (db : Db) : (c : DbCall) → Except Failure (Db × c.Value)
  | .claim c => .ok (claim c pick.operation db)
  | .finish o state code change => finish o state code change db
  | .defer o code => .ok (defer o code db,())
  | .bind o uid generation => bind o uid generation db
  | .recordPolicy o policy => .ok (recordPolicy o policy db,())
  | .quotaGate _ => reads db pick.gate
  | .volumeBinding instanceId projectId => reads db (joined db projectId instanceId)
  | .boundUid instanceId => reads db (instanceId.bind fun i => (db.bindings.lookup i).bind (fun b => b.kubernetesUid))
  | .credentialNames instanceId => reads db (credentialNames db instanceId)
  | .olderCredentialNames instanceId secretName => reads db (olderCredentialNames db instanceId secretName)
  | .projectAccess caller roles => do
    demand (permitted db caller roles) (.http 403 "Permission denied")
    reads db ((db.users.lookup caller.actor).any (fun user => user.platformAdmin))
  | .platformAccess actor => do
    demand (platformAdministrator db actor) (.http 403 "Platform administrator required")
    reads db ()
  | .replay caller roles kind requestHash => do
    let _ ← lockProject db caller roles
    let previous ← replay db caller.projectId kind caller.key requestHash
    reads db previous
  | .binding projectId instanceId => do
    let row ← found (joined db projectId instanceId) (.http 404 "Instance not found")
    reads db row
  | .createInstance caller platformAdmin options storageClass input id operationId credentials =>
    createInstance caller platformAdmin options storageClass input id operationId credentials db
  | .updateInstance caller instanceId input operationId desired expected =>
    updateInstance caller instanceId input operationId desired expected db
  | .rotateCredentials caller instanceId operationId desired expected credentials =>
    rotateCredentials caller instanceId operationId desired expected credentials db
  | .deleteInstance caller instanceId operationId => deleteInstance caller instanceId operationId db
  | .deleteRetainedVolume caller instanceId uid operationId =>
    deleteRetainedVolume caller instanceId uid operationId db
  | .reclaimRetainedVolume caller instanceId prepared volumeUid input operationId desired credentials =>
    reclaimRetainedVolume caller instanceId prepared volumeUid input operationId desired credentials db
  | .retryOperation caller operationId => retryOperation caller operationId db
  | .updateQuota caller limits expected => do
    let after ← updateQuota caller limits expected db
    return (after,())
  | .createProject actor projectId operationId => do
    let after ← createProject actor projectId operationId db
    return (after,())
  | .retryProject caller operationId => retryProject caller operationId db

end Expbuild.Transactions
