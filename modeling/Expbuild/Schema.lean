import Expbuild.Contract
import Expbuild.Tables

/-!
The tables of the management database that instance operations read and write,
and the errors that routes and workers raise. Columns that none of them reads
(creation data of users, inventory, observation) are left out.
-/
namespace Expbuild.Schema
open Expbuild.Contract Expbuild.Tables

/-- Identifies one `tick` of one worker: the `worker_id` it claims with. -/
abbrev ClaimId := Nat

/-- What code throws. `api` is any other error, with the status code it carries. -/
inductive Failure where
  | http (statusCode : Nat) (message : String)
  | operation (code : String) (superseded : Bool)
  | api (statusCode : Option Nat)
  deriving DecidableEq,Repr

/-- Throws unless the condition holds. -/
def demand (condition : Prop) [Decidable condition] (e : Failure) : Except Failure Unit :=
  if condition then .ok () else .error e
/-- The row, or the error where there is none. -/
def found {α : Type} (row : Option α) (e : Failure) : Except Failure α :=
  match row with
  | some a => .ok a
  | none => .error e

section
variable {α β : Type}

@[simp] theorem bind_eq_ok {x : Except Failure α} {f : α → Except Failure β} {r : β} :
    (x >>= f) = .ok r ↔ ∃ a, x = .ok a ∧ f a = .ok r := by
  cases x with
  | error e => simp [bind,Except.bind]
  | ok a => simp [bind,Except.bind]

@[simp] theorem pure_eq_ok {a b : α} : (pure a : Except Failure α) = .ok b ↔ a = b := by
  simp [pure,Except.pure]

@[simp] theorem demand_eq_ok {condition : Prop} [Decidable condition] {e : Failure} {u : Unit} :
    demand condition e = .ok u ↔ condition := by
  by_cases holds : condition
  · simp [demand,holds]
  · simp [demand,holds]

@[simp] theorem found_eq_ok {row : Option α} {e : Failure} {a : α} : found row e = .ok a ↔ row = some a := by
  cases row with
  | none => simp [found]
  | some b => simp [found]

end

inductive Lifecycle where
  | pending | active | deleting | deleted | detached | failed
  deriving DecidableEq,Repr
inductive Kind where
  | projectCreate | create | update | rotate | reclaim | delete | volumeDelete
  deriving DecidableEq,Repr
inductive OpState where
  | pending | applying | reconciling | succeeded | failed | superseded
  deriving DecidableEq,Repr
inductive ProjectState where
  | pending | ready | failed | deleting
  deriving DecidableEq,Repr
inductive Role where
  | admin | maintainer | viewer
  deriving DecidableEq,Repr
inductive CredentialState where
  | pending | active | revoking | revoked
  deriving DecidableEq,Repr

/-- `lifecycle IN ('deleted','detached')`: count, CPU and memory are released. -/
def Lifecycle.released : Lifecycle → Bool
  | .deleted | .detached => true
  | _ => false
/-- `state IN ('pending','applying','reconciling')`. -/
def OpState.active : OpState → Bool
  | .pending | .applying | .reconciling => true
  | _ => false
/-- The kinds that apply a configuration to a `CacheInstance`. -/
def Kind.applies : Kind → Bool
  | .create | .reclaim | .update | .rotate => true
  | _ => false
/-- The kinds that create a `CacheInstance`. -/
def Kind.creates : Kind → Bool
  | .create | .reclaim => true
  | _ => false
/-- The kinds whose success settles reservations. -/
def Kind.settles : Kind → Bool
  | .create | .reclaim | .update => true
  | _ => false

/-- An absent limit is unlimited. -/
structure Quota where
  instances : Option Nat := none
  storageGiB : Option Nat := none
  cpuMillis : Option Nat := none
  memoryMiB : Option Nat := none
  deriving DecidableEq,Repr

structure Project where
  ns : Namespace
  state : ProjectState
  quotaLimits : Quota := {}
  quotaRevision : Nat := 1
  quotaObservedRevision : Option Nat := none
  quotaSyncError : Option String := none
  deriving DecidableEq

/-- A row of `instance_bindings`. -/
structure Binding where
  projectId : ProjectId
  resourceName : ResourceName
  kubernetesUid : Option KubeUid := none
  lifecycle : Lifecycle := .pending
  displayName : String
  templateName : Template
  templateVersion : Option TemplateVersion
  reservedStorageGib : Option Nat := none
  reservedCpuMillis : Option Nat := none
  reservedMemoryMib : Option Nat := none
  deriving DecidableEq

/-- The credentials of a Secret; only compared. -/
abbrev CredentialData := Nat

/-- Credentials encrypted for one operation: the operation is authenticated data
    of the cipher, so that a payload opens only for its own operation. -/
structure Sealed where
  operationId : OperationId
  data : CredentialData
  deriving DecidableEq,Repr
def sealPayload (operationId : OperationId) (data : CredentialData) : Sealed := ⟨operationId,data⟩
def unsealPayload (operationId : OperationId) (payload : Sealed) : Except Failure CredentialData :=
  if payload.operationId = operationId then .ok payload.data else .error (.api none)

/-- The `request` column. `uid` is the `CacheInstance` of a deletion, or the claim of
    a volume deletion. -/
structure OpRequest where
  ns : Option Namespace := none
  desired : Option Manifest := none
  expectedRevision : Option Revision := none
  uid : Option KubeUid := none
  volumeUid : Option VolumeUid := none
  instanceUid : Option KubeUid := none
  previousInstanceUID : Option KubeUid := none
  name : Option ResourceName := none
  deletionPolicy : Option DeletionPolicy := none
  deriving DecidableEq

/-- A row of `operations`. -/
structure Operation where
  id : OperationId
  projectId : ProjectId
  instanceId : Option InstanceId
  kind : Kind
  idempotencyKey : String
  requestHash : RequestHash
  request : OpRequest
  state : OpState := .pending
  targetGeneration : Option Nat := none
  workerId : Option ClaimId := none
  leaseUntil : Option Nat := none
  errorCode : Option String := none
  secretPayload : Option Sealed := none
  nextAttemptAt : Nat
  deadlineAt : Nat
  createdAt : Nat
  updatedAt : Nat := 0
  deriving DecidableEq

/-- A row of `instance_credentials`. -/
structure Credential where
  instanceId : InstanceId
  secretName : SecretName
  revision : Nat
  state : CredentialState
  deriving DecidableEq

/-- A row of `operation_retries`. -/
structure Retry where
  projectId : ProjectId
  idempotencyKey : String
  operationId : OperationId
  deriving DecidableEq

inductive AuditAction where
  /-- `operation.<state>`. -/
  | entered (state : OpState)
  | operationRetry | projectCreate | projectRetry | instanceCreate | instanceUpdate | credentialRotate
  | instanceDelete | volumeDelete | volumeReclaim | quotaUpdate | reservationReconcile
  deriving DecidableEq,Repr

structure AuditEvent where
  actorId : Option UserId := none
  projectId : ProjectId
  instanceId : Option InstanceId := none
  operationId : Option OperationId := none
  action : AuditAction
  code : Option String := none
  deriving DecidableEq

structure User where
  active : Bool
  platformAdmin : Bool
  deriving DecidableEq,Repr

structure Db where
  users : Table UserId User := ∅
  members : Table (ProjectId × UserId) Role := ∅
  projects : Table ProjectId Project := ∅
  bindings : Table InstanceId Binding := ∅
  operations : Table OperationId Operation := ∅
  credentials : List Credential := []
  retries : List Retry := []
  audit : List AuditEvent := []
  /-- `now()`, in seconds. -/
  now : Nat := 0

end Expbuild.Schema
