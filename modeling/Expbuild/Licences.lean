import Expbuild.Platform

/-!
Under which past a program makes a call. What a tick or a request does next
depends on nothing but what it saw, so every rule of the worker ("only after the
policy was recorded", "only over the revision that was asked for") is a condition
on its past. `licence` states them, and `licensed` proves them for every program
once, whatever the answers are.
-/
namespace Expbuild.Licences
open Expbuild.Contract Expbuild.Schema Expbuild.Programs Expbuild.Calls Expbuild.Kubernetes Expbuild.Platform

/-! ### What a past shows -/

section
variable (past : Past)

/-- The tick claimed the operation. -/
def Claimed (o : Operation) : Prop := ∃ c, (⟨.db (.claim c),.ok (some o)⟩ : Happened) ∈ past

/-- The object was read. -/
def Read (ns : Namespace) (name : ResourceName) (c : CacheObject) : Prop :=
  (⟨.kube (.readInstance ns name),.ok c⟩ : Happened) ∈ past

/-- The object was found missing. -/
def Absent (ns : Namespace) (name : ResourceName) : Prop :=
  ∃ e, statusCode e = some 404 ∧ (⟨.kube (.readInstance ns name),.error e⟩ : Happened) ∈ past

/-- A call threw an error that supersedes the operation. -/
def Scolded : Prop := ∃ (c : Call) (code : String), (⟨c,.error (.operation code true)⟩ : Happened) ∈ past

/-- Something happened after a past of the given kind. -/
def Since (e : Happened) (earlier : Past → Prop) : Prop := ∃ later before, past = later ++ e :: before ∧ earlier before

/-- The binding was made. -/
def Bound (o : Operation) (uid : KubeUid) (generation : Nat) : Prop :=
  (⟨.db (.bind o uid generation),.ok true⟩ : Happened) ∈ past

/-- The object that an execution of an operation ends up with: it was created,
    replaced or found to be its own. -/
inductive Applied (o : Operation) (desired : Manifest) (c : CacheObject) : Prop where
  | created (answer : (⟨.kube (.createInstance desired),.ok c⟩ : Happened) ∈ past)
  | replaced (current : CacheObject) (stays : current.deleting = false)
      (answer : (⟨.kube (.replaceInstance desired.ns desired.name (updated current desired)),.ok c⟩ : Happened) ∈ past)
  | found (read : Read past desired.ns desired.name c) (stays : c.deleting = false)
      (own : c.annotations.operationId = desired.annotations.operationId ∨ c.annotations.operationId = some o.id)

/-- The generation that an operation waits for: of the object that was bound, or
    the one recorded when the operation was claimed. -/
inductive Targeted (o : Operation) : Option Nat → Prop where
  | bound {uid : KubeUid} {generation : Nat} (answer : Bound past o uid generation) : Targeted o (some generation)
  | recorded (resumes : o.state = .reconciling) (set : o.kind.creates = true → o.targetGeneration.isSome) :
      Targeted o o.targetGeneration

/-- The object was compared with the binding, once the target was known. -/
structure Compared (o : Operation) (desired : Manifest) (c : CacheObject) (target : Option Nat) : Prop where
  asks : o.request.desired = some desired
  seen : Applied past o desired c ∨ Read past desired.ns desired.name c
  targeted : Targeted past o target
  uid : c.uid.isSome
  bound : Since past ⟨.db (.boundUid o.instanceId),.ok c.uid⟩
    (fun earlier => Claimed earlier o ∧ Targeted earlier o target)
  instanceId : some c.spec.instanceId = o.instanceId
  projectId : c.spec.projectId = o.projectId

/-- Somebody got in the way of a creation or a reclaim: its own object was edited or
    is being deleted when it is found again, or the bound object has another
    generation or belongs to another operation. -/
inductive Displaced (o : Operation) : Prop where
  | edited {desired : Manifest} {c : CacheObject} {e : Failure} (asks : o.request.desired = some desired)
      (taken : statusCode e = some 409)
      (answer : (⟨.kube (.createInstance desired),.error e⟩ : Happened) ∈ past)
      (read : Read past desired.ns desired.name c) (own : sameRequest c desired = true)
      (changed : ¬(c.spec = desired.spec ∧ c.deleting = false))
  | moved {desired : Manifest} {c : CacheObject} {target : Option Nat} (compared : Compared past o desired c target)
      (other : ¬(c.generation = some (target.getD 0) ∧ c.annotations.operationId = some o.id))

/-- What a creation or a reclaim is superseded by. -/
inductive Strands (o : Operation) : Prop where
  | displaced (displaced : Displaced past o)
  | scolded (scolded : Scolded past)

/-- How an operation may end. -/
inductive Finishes (o : Operation) : OpState → Change → Prop where
  | failed : Finishes o .failed .nothing
  | superseded (why : o.kind.creates = true → Strands past o) : Finishes o .superseded .nothing
  | project (kind : o.kind = .projectCreate) : Finishes o .succeeded .projectReady
  | volume (kind : o.kind = .volumeDelete) : Finishes o .succeeded .volumeDeleted
  | released {ns : Namespace} {name : ResourceName} (kind : o.kind = .delete) (space : o.request.ns = some ns)
      (named : o.request.name = some name) (absent : Absent past ns name)
      (unrecorded : ∀ p policy x, (⟨.db (.recordPolicy p policy),x⟩ : Happened) ∉ past) :
      Finishes o .succeeded (.released (o.request.deletionPolicy.getD .retain))
  | activated {desired : Manifest} {c : CacheObject} {target : Option Nat} (applies : o.kind.applies = true)
      (compared : Compared past o desired c target) (generation : c.generation = some (target.getD 0))
      (own : c.annotations.operationId = some o.id) (ready : Worker.ready c = true) :
      Finishes o .succeeded
        (.activated (desired.annotations.displayName.getD "") desired.spec.access.credentialsSecretRef)

/-- The write of an update or a rotation: over the revision that was asked for. -/
structure UpdateWrite (o : Operation) (desired : Manifest) (current : CacheObject) : Prop where
  claimed : Claimed past o
  applies : o.kind.applies = true
  updates : o.kind.creates = false
  asks : o.request.desired = some desired
  expected : o.request.expectedRevision = some (revision current)
  read : Read past desired.ns desired.name current
  instanceId : current.spec.instanceId = desired.spec.instanceId
  uid : current.uid.isSome
  stays : current.deleting = false
  other : current.annotations.operationId ≠ desired.annotations.operationId

/-- The write of a reclaim approval: for the object that was bound, or for the one
    that the tick read first where the target was already known. -/
structure ApproveWrite (o : Operation) (desired : Manifest) (current : CacheObject) (uid : KubeUid) : Prop where
  claimed : Claimed past o
  kind : o.kind = .reclaim
  asks : o.request.desired = some desired
  read : Read past desired.ns desired.name current
  approvable : approvable current desired uid = true
  unmarked : current.annotations.reclaimBoundUid = none
  identified : (∃ generation, Bound past o uid generation) ∨
    (o.state = .reconciling ∧ o.targetGeneration.isSome ∧ ∃ c, c.uid = some uid ∧
      Since past ⟨.kube (.readInstance desired.ns desired.name),.ok c⟩
        (fun earlier => Claimed earlier o ∧ ∀ ns name x, (⟨.kube (.readInstance ns name),x⟩ : Happened) ∉ earlier))

end

/-- The calls that any program may make at any time. -/
def free : Call → Bool
  | .kube (.createInstance _) | .kube (.replaceInstance _ _ _) | .kube (.deleteInstance _ _ _)
  | .kube (.deleteSecret _ _ _) => false
  | .db (.claim _) | .db (.finish _ _ _ _) | .db (.defer _ _) | .db (.bind _ _ _) | .db (.recordPolicy _ _)
  | .db (.boundUid _) | .db (.credentialNames _) | .db (.olderCredentialNames _ _) | .db (.updateInstance _ _ _ _ _ _)
  | .db (.rotateCredentials _ _ _ _ _ _) | .db (.reclaimRetainedVolume _ _ _ _ _ _ _ _) => false
  | _ => true

/-- The past under which a task makes a call. -/
def licence (task : Task) (past : Past) : Call → Prop
  | .db (.claim c) => past = [] ∧ ∃ gated, task = .tick gated c
  | .db (.finish o state _ change) => Claimed past o ∧ Finishes past o state change
  | .db (.defer o _) => Claimed past o
  | .db (.bind o uid generation) => Claimed past o ∧ o.kind.applies = true ∧ ∃ desired c,
      o.request.desired = some desired ∧ Applied past o desired c ∧ c.uid = some uid ∧ c.generation = some generation
  | .db (.recordPolicy o policy) => Claimed past o ∧ o.kind = .delete ∧ ∃ ns name uid current,
      o.request.ns = some ns ∧ o.request.name = some name ∧ o.request.uid = some uid ∧ Read past ns name current ∧
      current.uid = some uid ∧ policy = current.spec.storage.deletionPolicy
  | .db (.boundUid i) => ∃ o target, Claimed past o ∧ i = o.instanceId ∧ Targeted past o target
  | .db (.credentialNames i) => ∃ o ns name, Claimed past o ∧ o.kind = .delete ∧ i = o.instanceId ∧
      o.request.ns = some ns ∧ o.request.name = some name ∧ Absent past ns name
  | .db (.olderCredentialNames i secretName) => ∃ o desired c target, Claimed past o ∧
      (o.kind = .rotate ∨ o.kind = .reclaim) ∧ i = o.instanceId ∧
      secretName = desired.spec.access.credentialsSecretRef ∧ Compared past o desired c target ∧
      c.annotations.operationId = some o.id
  | .kube (.createInstance body) => ∃ o, Claimed past o ∧ o.kind.creates = true ∧ o.request.desired = some body ∧
      o.state ≠ .reconciling
  | .kube (.replaceInstance ns name body) =>
      (∃ o desired current, UpdateWrite past o desired current ∧ o.state ≠ .reconciling ∧ ns = desired.ns ∧
        name = desired.name ∧ body = updated current desired) ∨
      ∃ o desired current uid, ApproveWrite past o desired current uid ∧ ns = current.ns ∧ name = current.name ∧
        body = withMarker current uid
  | .kube (.deleteInstance ns name uid) => ∃ o current, Claimed past o ∧ o.kind = .delete ∧ o.request.ns = some ns ∧
      o.request.name = some name ∧ o.request.uid = some uid ∧ Read past ns name current ∧ current.uid = some uid ∧
      (⟨.db (.recordPolicy o current.spec.storage.deletionPolicy),.ok ()⟩ : Happened) ∈ past
  | .kube (.deleteSecret ns name _) => ∃ o names, Claimed past o ∧ name ∈ names ∧
      ((o.kind = .delete ∧ o.request.ns = some ns ∧
          (⟨.db (.credentialNames o.instanceId),.ok names⟩ : Happened) ∈ past) ∨
        ∃ desired, (o.kind = .rotate ∨ o.kind = .reclaim) ∧ o.request.desired = some desired ∧ ns = desired.ns ∧
          (⟨.db (.olderCredentialNames o.instanceId desired.spec.access.credentialsSecretRef),.ok names⟩ : Happened) ∈
            past)
  | .db (.updateInstance caller instanceId input operationId desired expected) => ∃ b current,
      (⟨.db (.binding caller.projectId instanceId),.ok b⟩ : Happened) ∈ past ∧
      Read past b.ns b.binding.resourceName current ∧ Routes.describes instanceId b.binding current = true ∧
      b.binding.kubernetesUid.isSome ∧ revision current = expected ∧
      desired = Routes.updateDesired caller instanceId input operationId expected b.ns current
  | .db (.rotateCredentials caller instanceId operationId desired expected _) => ∃ b current,
      (⟨.db (.binding caller.projectId instanceId),.ok b⟩ : Happened) ∈ past ∧
      Read past b.ns b.binding.resourceName current ∧ Routes.describes instanceId b.binding current = true ∧
      b.binding.kubernetesUid.isSome ∧ revision current = expected ∧
      desired = Routes.rotateDesired instanceId operationId expected current
  | .db (.reclaimRetainedVolume caller instanceId prepared volumeUid input operationId desired _) =>
      ∃ b storageClass version uid, (⟨.db (.binding caller.projectId instanceId),.ok b⟩ : Happened) ∈ past ∧
      prepared = b.binding ∧ b.binding.kubernetesUid = some uid ∧
      desired = Routes.reclaimDesired caller instanceId volumeUid input operationId storageClass b.ns version uid
  | _ => True

theorem licence_free (task : Task) (past : Past) {c : Call} (unrestricted : free c = true) : licence task past c := by
  cases c with
  | kube call => cases call <;> trivial
  | db call => cases call <;> trivial
  | clock => trivial

/-- An operation ends in a terminal state. -/
theorem finishes_over {past : Past} {o : Operation} {state : OpState} {change : Change}
    (finishes : Finishes past o state change) : state.active = false := by
  cases finishes <;> rfl

/-! ### A past only grows -/

section
variable {past later : Past} {o : Operation} {desired : Manifest} {c : CacheObject} {target : Option Nat}

theorem Claimed.mono (grows : past <:+ later) (claimed : Claimed past o) : Claimed later o := by
  obtain ⟨claim,member⟩ := claimed
  exact ⟨claim,grows.subset member⟩

theorem Read.mono (grows : past <:+ later) {ns : Namespace} {name : ResourceName} (read : Read past ns name c) :
    Read later ns name c := grows.subset read

theorem Applied.mono (grows : past <:+ later) (applied : Applied past o desired c) : Applied later o desired c := by
  cases applied with
  | created answer => exact .created (grows.subset answer)
  | replaced current stays answer => exact .replaced current stays (grows.subset answer)
  | found read stays own => exact .found (read.mono grows) stays own

theorem Targeted.mono (grows : past <:+ later) (targeted : Targeted past o target) : Targeted later o target := by
  cases targeted with
  | bound answer => exact .bound (grows.subset answer)
  | recorded resumes set => exact .recorded resumes set

theorem Since.mono (grows : past <:+ later) {e : Happened} {earlier : Past → Prop} (since : Since past e earlier) :
    Since later e earlier := by
  obtain ⟨new,rfl⟩ := grows
  obtain ⟨between,before,rfl,holds⟩ := since
  exact ⟨new ++ between,before,by simp,holds⟩

theorem since_cons {e e' : Happened} {earlier : Past → Prop} (since : Since (e' :: past) e earlier) :
    (e' = e ∧ earlier past) ∨ Since past e earlier := by
  obtain ⟨between,before,eq,holds⟩ := since
  cases between with
  | nil => cases eq; exact .inl ⟨rfl,holds⟩
  | cons first between => cases eq; exact .inr ⟨between,before,rfl,holds⟩

theorem Compared.mono (grows : past <:+ later) (compared : Compared past o desired c target) :
    Compared later o desired c target where
  asks := compared.asks
  seen := compared.seen.imp (Applied.mono grows) (Read.mono grows)
  targeted := compared.targeted.mono grows
  uid := compared.uid
  bound := compared.bound.mono grows
  instanceId := compared.instanceId
  projectId := compared.projectId

end

/-! ### Programs that only look -/

section
variable {α β : Type}

/-- Only free calls, and no superseding error of its own. -/
def Quiet (p : Io α) : Prop :=
  ∀ past, Licensed (fun _ c => free c = true)
    (fun later result => ∀ code, result = .error (.operation code true) → Scolded later) past p

theorem quiet_pure (a : α) : Quiet (pure a : Io α) := fun _ _ wrong => by cases wrong

theorem quiet_throw {e : Failure} (plain : ∀ code, e ≠ .operation code true) : Quiet (throw e : Io α) := by
  intro past code wrong
  cases wrong
  exact absurd rfl (plain code)

theorem quiet_await {c : Call} (unrestricted : free c = true) : Quiet (Io.await c) := by
  intro past
  rw [licensed_await_only]
  refine ⟨unrestricted,?_⟩
  rintro x code rfl
  exact ⟨c,code,List.mem_cons_self⟩

theorem quiet_bind {p : Io α} {f : α → Io β} (first : Quiet p) (rest : ∀ a, Quiet (f a)) : Quiet (p >>= f) := by
  intro past
  rw [licensed_bind]
  refine (first past).mono (fun _ _ _ may => may) ?_
  intro later result _ scolds
  cases result with
  | ok a => exact rest a later
  | error e =>
    intro code wrong
    cases wrong
    exact scolds code rfl

theorem quiet_require {condition : Prop} [Decidable condition] {e : Failure} (plain : ∀ code, e ≠ .operation code true) :
    Quiet (require condition e) := by
  unfold require
  split
  · exact quiet_pure ()
  · exact quiet_throw plain

theorem quiet_present {value : Option α} {e : Failure} (plain : ∀ code, e ≠ .operation code true) :
    Quiet (present value e) := by
  cases value with
  | none => exact quiet_throw plain
  | some a => exact quiet_pure a

/-- Errors that a handler answers or throws again. -/
theorem quiet_tryCatch {p : Io α} {handler : Failure → Io α} (body : Quiet p)
    (handled : ∀ e, Quiet (handler e) ∨ handler e = throw e) : Quiet (tryCatch p handler) := by
  intro past
  rw [licensed_tryCatch]
  refine (body past).mono (fun _ _ _ may => may) ?_
  intro later result _ scolds
  cases result with
  | ok a => intro code wrong; cases wrong
  | error e =>
    change Licensed _ _ later (handler e)
    rcases handled e with quiet | same
    · exact quiet later
    · rw [same]
      intro code wrong
      cases wrong
      exact scolds code rfl

theorem quiet_onStatus {code : Nat} {body handler : Io α} (first : Quiet body) (second : Quiet handler) :
    Quiet (onStatus code body handler) := by
  refine quiet_tryCatch first (fun e => ?_)
  by_cases matched : statusCode e = some code
  · exact .inl (by simpa [matched] using second)
  · exact .inr (by simp [matched])

theorem quiet_getInstance (ns : Namespace) (name : ResourceName) : Quiet (getInstance ns name) :=
  quiet_onStatus (quiet_bind (quiet_await rfl) (fun _ => quiet_pure _)) (quiet_pure _)

theorem quiet_ensurePolicy (ns : Namespace) (name : PolicyName) (projectId : ProjectId) (check : NetworkPolicy → Bool) :
    Quiet (ensurePolicy ns name projectId check) :=
  quiet_onStatus (quiet_await rfl) (quiet_bind (quiet_await rfl) (fun _ =>
    quiet_bind (quiet_require (by simp)) (fun _ => quiet_require (by simp))))

theorem quiet_ensureProject (ns : Namespace) (projectId : ProjectId) : Quiet (ensureProject ns projectId) :=
  quiet_bind (quiet_onStatus (quiet_await rfl) (quiet_pure _)) (fun _ =>
    quiet_bind (quiet_await rfl) (fun _ => quiet_bind (quiet_require (by simp)) (fun _ =>
      quiet_bind (quiet_ensurePolicy _ _ _ _) (fun _ => quiet_ensurePolicy _ _ _ _))))

theorem quiet_ensureCredentials (ns : Namespace) (name : SecretName) (projectId : ProjectId)
    (instanceId : Option InstanceId) (operationId : OperationId) (data : CredentialData) :
    Quiet (ensureCredentials ns name projectId instanceId operationId data) :=
  quiet_onStatus (quiet_await rfl) (quiet_bind (quiet_await rfl) (fun _ => quiet_require (by simp)))

theorem quiet_retainedClaim (identity : RetainedVolumeIdentity) : Quiet (retainedClaim identity) :=
  quiet_bind (quiet_await rfl) (fun _ => quiet_bind (quiet_require (by simp)) (fun _ =>
    quiet_onStatus (quiet_bind (quiet_await rfl) (fun _ => quiet_bind (quiet_require (by simp)) (fun _ =>
      quiet_pure _))) (quiet_pure _)))

theorem quiet_getRetainedVolume (identity : RetainedVolumeIdentity) : Quiet (getRetainedVolume identity) :=
  quiet_bind (quiet_retainedClaim identity) (fun _ => quiet_pure _)

theorem quiet_deleteRetainedVolume (identity : RetainedVolumeIdentity) (uid : VolumeUid) :
    Quiet (deleteRetainedVolume identity uid) := by
  refine quiet_bind (quiet_retainedClaim identity) (fun read => ?_)
  cases read with
  | none => exact quiet_pure _
  | some pvc =>
    refine quiet_bind (quiet_require (by simp)) (fun _ => quiet_bind (quiet_getInstance _ _) (fun _ =>
      quiet_bind (quiet_require (by simp)) (fun _ => quiet_bind (quiet_await rfl) (fun _ =>
        quiet_bind (quiet_require (by simp)) (fun _ => quiet_tryCatch (quiet_await rfl) (fun e => ?_))))))
    by_cases taken : statusCode e = some 409
    · exact .inl (by simpa [taken,operationError] using quiet_throw (by simp))
    · by_cases gone : statusCode e = some 404
      · exact .inl (by simpa [gone] using quiet_pure ())
      · exact .inr (by simp [taken,gone])

theorem quiet_onlyIf {condition : Prop} [Decidable condition] {body : Io Unit} (quiet : Quiet body) :
    Quiet (onlyIf condition body) := by
  unfold onlyIf
  split
  · exact quiet
  · exact quiet_pure ()

end
end Expbuild.Licences
