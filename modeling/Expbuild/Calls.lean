import Expbuild.Programs
import Expbuild.Schema

/-!
What the management API and its workers ask of the outside: transactions and
queries of PostgreSQL (`DbCall`) and single requests to the Kubernetes API
server (`KubeCall`), each with the type of its result. A call is answered by its
result or by the error it throws.
-/
namespace Expbuild.Calls
open Expbuild.Contract Expbuild.Schema Expbuild.Programs

/-! ### Kubernetes -/

abbrev Key := Namespace × ResourceName

structure Secret where
  uid : Nat
  labels : Labels
  operationId : Option OperationId
  data : CredentialData
  deriving DecidableEq

/-- A persistent volume claim. -/
structure Claim where
  uid : VolumeUid
  resourceVersion : Nat
  labels : Labels
  /-- Whether `ownerReferences` is not empty. -/
  owned : Bool := false
  deleting : Bool := false
  storageClass : String
  phase : String
  capacity : String
  allocatedCapacity : String
  deriving DecidableEq

inductive PolicyName where
  | isolation | clientAccess
  deriving DecidableEq,Repr
/-- A network policy; `asWritten` says that its specification is the one that
    the platform writes under this name. -/
structure NetworkPolicy where
  labels : Labels
  deleting : Bool := false
  asWritten : Bool := true
  deriving DecidableEq

inductive KubeCall where
  | createNamespace (ns : Namespace) (labels : Labels)
  | readNamespace (ns : Namespace)
  | createPolicy (ns : Namespace) (name : PolicyName) (labels : Labels)
  | readPolicy (ns : Namespace) (name : PolicyName)
  | createSecret (ns : Namespace) (name : SecretName) (labels : Labels) (operationId : OperationId)
      (data : CredentialData)
  | readSecret (ns : Namespace) (name : SecretName)
  | deleteSecret (ns : Namespace) (name : SecretName) (uid : Nat)
  | readInstance (ns : Namespace) (name : ResourceName)
  | createInstance (body : Manifest)
  | replaceInstance (ns : Namespace) (name : ResourceName) (body : CacheObject)
  | deleteInstance (ns : Namespace) (name : ResourceName) (uid : KubeUid)
  | readClaim (ns : Namespace) (name : ResourceName)
  /-- The claims that the Pods of a namespace mount. -/
  | listMounts (ns : Namespace)
  | deleteClaim (ns : Namespace) (name : ResourceName) (uid : VolumeUid) (resourceVersion : Nat)

@[reducible] def KubeCall.Value : KubeCall → Type
  | .readNamespace _ => Labels
  | .readPolicy _ _ => NetworkPolicy
  | .readSecret _ _ => Secret
  | .readInstance _ _ | .createInstance _ | .replaceInstance _ _ _ => CacheObject
  | .readClaim _ _ => Claim
  | .listMounts _ => List ResourceName
  | _ => Unit

/-! ### The database -/

/-- What `finish` changes besides the operation itself (its `apply` callback). -/
inductive Change where
  | nothing
  | projectReady
  | volumeDeleted
  | released (policy : DeletionPolicy)
  | activated (displayName : String) (secretName : SecretName)
  deriving DecidableEq,Repr

/-- Who makes a request, in which project and under which idempotency key. -/
structure Caller where
  actor : UserId
  projectId : ProjectId
  key : String
  deriving DecidableEq,Repr

/-- The settings that admission reads. -/
structure Options where
  kube : Bool := true
  encryptionKey : Bool := true
  storageClass : Option String
  templates : TemplateOptions := {}
  deriving DecidableEq

/-- A row of `instance_bindings` joined with its project. -/
structure BindingRow where
  binding : Binding
  ns : Namespace
  deriving DecidableEq

/-- What the transaction of an accepted request returns: the operation, whether it
    was there before, and the password where it is revealed (by the data it opens). -/
structure Accepted where
  operation : Operation
  replayed : Bool
  credentials : Option CredentialData
  deriving DecidableEq

inductive DbCall where
  -- the worker
  | claim (claim : ClaimId)
  | finish (operation : Operation) (state : OpState) (code : Option String) (apply : Change)
  | defer (operation : Operation) (code : Option String)
  | bind (operation : Operation) (uid : KubeUid) (generation : Nat)
  | recordPolicy (operation : Operation) (policy : DeletionPolicy)
  | quotaGate (projectId : ProjectId)
  | volumeBinding (instanceId : InstanceId) (projectId : ProjectId)
  | boundUid (instanceId : Option InstanceId)
  | credentialNames (instanceId : Option InstanceId)
  | olderCredentialNames (instanceId : Option InstanceId) (secretName : SecretName)
  -- the routes
  | projectAccess (caller : Caller) (roles : List Role)
  | platformAccess (actor : UserId)
  | replay (caller : Caller) (roles : List Role) (kind : Kind) (requestHash : RequestHash)
  | binding (projectId : ProjectId) (instanceId : InstanceId)
  | createInstance (caller : Caller) (platformAdmin : Bool) (options : Options) (storageClass : String)
      (input : InstanceInput) (id : InstanceId) (operationId : OperationId) (credentials : CredentialData)
  | updateInstance (caller : Caller) (instanceId : InstanceId) (input : InstanceInput) (operationId : OperationId)
      (desired : Manifest) (expected : Revision)
  | rotateCredentials (caller : Caller) (instanceId : InstanceId) (operationId : OperationId) (desired : Manifest)
      (expected : Revision) (credentials : CredentialData)
  | deleteInstance (caller : Caller) (instanceId : InstanceId) (operationId : OperationId)
  | deleteRetainedVolume (caller : Caller) (instanceId : InstanceId) (uid : VolumeUid) (operationId : OperationId)
  | reclaimRetainedVolume (caller : Caller) (instanceId : InstanceId) (prepared : Binding) (volumeUid : VolumeUid)
      (input : InstanceInput) (operationId : OperationId) (desired : Manifest) (credentials : CredentialData)
  | retryOperation (caller : Caller) (operationId : OperationId)
  | updateQuota (caller : Caller) (limits : Quota) (expected : Nat)
  | createProject (actor : UserId) (projectId : ProjectId) (operationId : OperationId)
  | retryProject (caller : Caller) (operationId : OperationId)

@[reducible] def DbCall.Value : DbCall → Type
  | .claim _ => Option Operation
  | .finish _ _ _ _ | .bind _ _ _ | .quotaGate _ | .projectAccess _ _ => Bool
  | .volumeBinding _ _ => Option BindingRow
  | .boundUid _ => Option KubeUid
  | .credentialNames _ | .olderCredentialNames _ _ => List SecretName
  | .replay _ _ _ _ => Option Operation
  | .binding _ _ => BindingRow
  | .createInstance _ _ _ _ _ _ _ _ | .updateInstance _ _ _ _ _ _ | .rotateCredentials _ _ _ _ _ _
  | .deleteInstance _ _ _ | .deleteRetainedVolume _ _ _ _ | .reclaimRetainedVolume _ _ _ _ _ _ _ _
  | .retryOperation _ _ | .retryProject _ _ => Accepted
  | _ => Unit

/-! ### Programs over both -/

inductive Call where
  | kube (call : KubeCall)
  | db (call : DbCall)
  /-- `Date.now()` of the process, which need not agree with the database. -/
  | clock

@[reducible] def Call.Value : Call → Type
  | .kube c => c.Value
  | .db c => c.Value
  | .clock => Nat
@[reducible] def Call.Answer (c : Call) : Type := Except Failure c.Value

/-- Asynchronous code that may throw. -/
abbrev Io := Prog Call Call.Answer Failure
abbrev Happened := Event Call.Answer
abbrev Past := History Call.Answer

def Io.await (c : Call) : Io c.Value :=
  .request c (fun | .ok v => .pure v | .error e => .throw e)
def kube (c : KubeCall) : Io c.Value := Io.await (.kube c)
def db (c : DbCall) : Io c.Value := Io.await (.db c)
/-- Throws unless the condition holds. -/
def require (condition : Prop) [Decidable condition] (e : Failure) : Io Unit :=
  if condition then .pure () else .throw e
/-- The value, or the error where it is missing. -/
def present {α : Type} (value : Option α) (e : Failure) : Io α :=
  match value with
  | some a => .pure a
  | none => .throw e
/-- `if (condition) await body`. -/
def onlyIf (condition : Prop) [Decidable condition] (body : Io Unit) : Io Unit :=
  if condition then body else .pure ()
/-- `for (const x of xs) await body(x)`. -/
def forEach {α : Type} (xs : List α) (body : α → Io Unit) : Io Unit :=
  match xs with
  | [] => .pure ()
  | x :: rest => body x >>= fun _ => forEach rest body

/-! ### Rules for these programs -/

section
variable {licence : Past → Call → Prop} {past : Past} {α : Type}

theorem await_eq (c : Call) : Io.await c = @Prog.ask Call Call.Value Failure c := by
  refine congrArg _ (funext fun x => ?_)
  cases x with
  | ok v => rfl
  | error e => rfl

theorem licensed_await {post : Past → Except Failure α → Prop} (c : Call) (next : c.Value → Io α) :
    Licensed licence post past (Io.await c >>= next) ↔ licence past c ∧
      (∀ v, Licensed licence post (⟨c,.ok v⟩ :: past) (next v)) ∧
      ∀ e, post (⟨c,.error e⟩ :: past) (.error e) := by
  rw [await_eq]
  exact licensed_ask c next

theorem licensed_await_only {c : Call} {post : Past → Except Failure c.Value → Prop} :
    Licensed licence post past (Io.await c) ↔ licence past c ∧ ∀ x, post (⟨c,x⟩ :: past) x := by
  rw [await_eq]
  exact licensed_ask_only

theorem licensed_require {post : Past → Except Failure α → Prop} (condition : Prop) [Decidable condition] (e : Failure)
    (next : Io α) : Licensed licence post past (require condition e >>= fun _ => next) ↔
      (condition → Licensed licence post past next) ∧ (¬condition → post past (.error e)) :=
  Prog.licensed_require condition e next

theorem licensed_present {β : Type} {post : Past → Except Failure α → Prop} (value : Option β) (e : Failure)
    (next : β → Io α) : Licensed licence post past (present value e >>= next) ↔
      (∀ b, value = some b → Licensed licence post past (next b)) ∧ (value = none → post past (.error e)) :=
  Prog.licensed_present value e next

/-- A loop whose body keeps an invariant of the past keeps it to its end. -/
theorem licensed_forEach {post : Past → Except Failure Unit → Prop} {xs : List α} {body : α → Io Unit}
    (keeps : Past → Prop) (holds : keeps past)
    (step : ∀ x ∈ xs, ∀ later, keeps later →
      Licensed licence (fun after result => result = .ok () ∧ keeps after ∨ ∃ e, result = .error e ∧ post after (.error e))
        later (body x))
    (ends : ∀ later, keeps later → post later (.ok ())) : Licensed licence post past (forEach xs body) := by
  induction xs generalizing past with
  | nil => exact ends past holds
  | cons x rest ih =>
    rw [forEach,licensed_bind]
    refine (step x (by simp) past holds).mono (fun _ _ _ may => may) ?_
    intro later result _ after
    rcases after with ⟨rfl,kept⟩ | ⟨e,rfl,ended⟩
    · exact ih kept (fun y member => step y (by simp [member]))
    · exact ended

end
end Expbuild.Calls
