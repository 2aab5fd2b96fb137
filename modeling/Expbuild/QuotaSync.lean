import Expbuild.Rows
import Expbuild.Inventory
import Expbuild.Runs

/-!
`quota-sync.ts` and `ensureProjectQuota`: the transaction that keeps the row of a
project locked while it brings the `ResourceQuota` of its namespace to the
limits of the row, one Kubernetes call after the other.
-/
namespace Expbuild.QuotaSync
open Expbuild.Contract Expbuild.Schema Expbuild.Tables Expbuild.Calls Expbuild.Transactions Expbuild.Kubernetes
open Expbuild.Inventory (NamespaceMeta)

/-- What the client library makes of quantities: a scalar to compare, or an error. -/
structure Library (Scalar : Type) where
  quantityToScalar : String → Option Scalar
  /-- The number that a quantity stands for. -/
  amount : String → Option ℚ
  /-- Scalars compare quantities exactly. -/
  exact : ∀ {a b x}, quantityToScalar a = some x → quantityToScalar b = some x → ∃ q, amount a = some q ∧ amount b = some q

/-- The annotation `cache.expbuild.io/quota-revision`: the digits of a positive
    number, or any other text that is not empty. -/
inductive Annotation where
  | number (n : Nat)
  | other (text : String)
deriving DecidableEq,Repr

/-- The object `expbuild-resources` of a namespace. -/
structure ResourceQuota where
  uid : Nat
  resourceVersion : Nat
  labels : Labels := {}
  /-- Whether `ownerReferences` is not empty. -/
  owned : Bool := false
  /-- Whether `scopes` is not empty or there is a `scopeSelector`. -/
  restricted : Bool := false
  deleting : Bool := false
  finalizers : Bool := false
  revision : Option Annotation := none
  hard : Option (Table String String) := none
  statusHard : Option (Table String String) := none
  statusUsed : Option (Table String String) := none

/-- `hard` of the limits. -/
def hardOf (limits : Quota) : List (String × String) :=
  (limits.instances.toList.map (fun n => ("count/cacheinstances.cache.expbuild.io",toString n))) ++
  (limits.storageGiB.toList.map (fun n => ("requests.storage",toString n ++ "Gi"))) ++
  (limits.cpuMillis.toList.flatMap (fun n => [("requests.cpu",toString n ++ "m"),("limits.cpu",toString n ++ "m")])) ++
  (limits.memoryMiB.toList.flatMap (fun n => [("requests.memory",toString n ++ "Mi"),("limits.memory",toString n ++ "Mi")]))

def record (entries : List (String × String)) : Table String String := entries.foldr (fun e t => t.insert e.1 e.2) ∅

/-- The last calls of `ensureProjectQuota`: what they have read, if they came so far. -/
abbrev Seen := Option (Option ResourceQuota)

/-- What `ensureProjectQuota` does next. -/
inductive Stage where
  | readNamespace
  | readQuota
  | create
  | replace (current : ResourceQuota)
  | delete (current : ResourceQuota)
  | ended (result : Except String Bool)

/-- An open transaction with the row that it has locked. -/
structure Session where
  project : Project
  stage : Stage
  seen : Seen

structure System where
  db : Db
  /-- The open transactions, by the project whose row they lock. -/
  sessions : Table ProjectId Session
  namespaces : Table Namespace NamespaceMeta
  quotas : Table Namespace ResourceQuota
  /-- The next `uid` and the next `resourceVersion`. -/
  version : Nat
  /-- What the last call for a project has observed. -/
  last : Table ProjectId Seen
  /-- What the last one has observed whose transaction was committed. -/
  committed : Table ProjectId Seen

section
variable {Scalar : Type} [DecidableEq Scalar] (lib : Library Scalar)

/-- `equal` of the limits. -/
def equal (limits : Quota) (actual : Option (Table String String)) : Bool :=
  match actual with
  | none => false
  | some actual => actual.keys.length = (hardOf limits).length && (hardOf limits).all (fun e =>
      match (actual.lookup e.1).bind lib.quantityToScalar,lib.quantityToScalar e.2 with
      | some a,some b => a = b
      | _,_ => false)

/-- An annotation that is not the number of an older revision or of this one. -/
def newer (revision : Nat) : Option Annotation → Bool
  | none => false
  | some (.number n) => revision < n
  | some (.other _) => true

/-- What follows the first read. -/
def checkNamespace (id : ProjectId) (found : NamespaceMeta) : Stage :=
  if found.deleting || !ownedBy id found.labels then .ended (.error "namespace_ownership_conflict") else .readQuota

/-- What follows the read of the quota. -/
def compareQuota (id : ProjectId) (project : Project) (current : Option ResourceQuota) : Stage :=
  match current with
  | none => if hardOf project.quotaLimits = [] then .ended (.ok true) else .create
  | some current =>
    if current.owned || !ownedBy id current.labels then .ended (.error "quota_ownership_conflict")
    else if current.restricted then .ended (.error "quota_scope_conflict")
    else if current.deleting then .ended (.ok false)
    else if newer project.quotaRevision current.revision then .ended (.error "quota_revision_conflict")
    else if hardOf project.quotaLimits = [] then .delete current
    else if !equal lib project.quotaLimits current.hard || current.revision ≠ some (.number project.quotaRevision) then
      .replace current
    else .ended (.ok (equal lib project.quotaLimits current.statusHard &&
      (hardOf project.quotaLimits).all (fun e => (current.statusUsed.bind (fun used => used.lookup e.1)).isSome)))

/-- The text of `quota_sync_error` for a Kubernetes error. -/
def errorText (code : Option Nat) : String :=
  match code with
  | some code => if 400 ≤ code ∧ code ≤ 599 then "kubernetes_" ++ toString code else "kubernetes_unavailable"
  | none => "kubernetes_unavailable"

namespace Session

def read (id : ProjectId) (current : Option ResourceQuota) (session : Session) : Session :=
  { session with seen := some current, stage := compareQuota lib id session.project current }

/-- A call throws; a quota that is not found is none. -/
def throws (id : ProjectId) (code : Option Nat) (session : Session) : Session :=
  match session.stage,code with
  | .readQuota,some 404 => session.read lib id none
  | _,_ => { session with stage := .ended (.error (errorText code)) }

end Session

/-- The same object, at the version that was read. -/
def unchanged (current found : ResourceQuota) : Bool :=
  found.uid = current.uid && found.resourceVersion = current.resourceVersion

/-- The next Kubernetes call of a session, with the state of the cluster after it. -/
def perform (id : ProjectId) (session : Session) (s : System) : System × Session :=
  let project := session.project
  let ended (result : Bool) : Session := { session with stage := .ended (.ok result) }
  match session.stage with
  | .readNamespace =>
    match s.namespaces.lookup project.ns with
    | none => (s,session.throws lib id (some 404))
    | some found => (s,{ session with stage := checkNamespace id found })
  | .readQuota =>
    match s.quotas.lookup project.ns with
    | none => (s,session.throws lib id (some 404))
    | some current => (s,session.read lib id (some current))
  | .create =>
    match s.namespaces.lookup project.ns,s.quotas.lookup project.ns with
    | none,_ => (s,session.throws lib id (some 404))
    | some _,some _ => (s,session.throws lib id (some 409))
    | some _,none => ({ s with
        quotas := s.quotas.insert project.ns
          { uid := s.version, resourceVersion := s.version, labels := labels id
            revision := some (.number project.quotaRevision), hard := some (record (hardOf project.quotaLimits)) }
        version := s.version + 1 },ended false)
  | .replace current =>
    match s.quotas.lookup project.ns with
    | none => (s,session.throws lib id (some 404))
    | some found =>
      if unchanged current found then ({ s with
        quotas := s.quotas.insert project.ns { current with
          resourceVersion := s.version, revision := some (.number project.quotaRevision)
          hard := some (record (hardOf project.quotaLimits)) }
        version := s.version + 1 },ended false)
      else (s,session.throws lib id (some 409))
  | .delete current =>
    match s.quotas.lookup project.ns with
    | none => (s,session.throws lib id (some 404))
    | some found =>
      if unchanged current found then
        if found.finalizers then ({ s with
          quotas := s.quotas.insert project.ns { found with resourceVersion := s.version, deleting := true }
          version := s.version + 1 },ended false)
        else ({ s with quotas := s.quotas.erase project.ns },ended false)
      else (s,session.throws lib id (some 409))
  | .ended _ => (s,session)

/-- How a call ends: answered, without effect, or with an effect that nobody hears of. -/
inductive Fault where
  | none
  | failed (code : Option Nat)
  | lost (code : Option Nat)

inductive Label where
  /-- Any other transaction, as PUT quota. -/
  | call (pick : Pick) (c : DbCall)
  /-- `ensure` or `tick` locks a row. -/
  | lock (id : ProjectId)
  | kube (id : ProjectId) (fault : Fault)
  | commit (id : ProjectId)
  | rollback (id : ProjectId)
  /-- Others change a namespace or its quota, in place or anew. -/
  | others (ns : Namespace) (found : Option NamespaceMeta) (quota : Option ResourceQuota) (inPlace : Bool)

/-- Whether a transaction has to wait for the lock of a row. -/
def waits (s : System) : DbCall → Bool
  | .updateQuota caller _ _ => (s.sessions.lookup caller.projectId).isSome
  | _ => false

def alterNamespace (ns : Namespace) (found : Option NamespaceMeta) (s : System) : System :=
  { s with namespaces := match found with
      | none => s.namespaces.erase ns
      | some found => s.namespaces.insert ns found }

def alterQuota (ns : Namespace) (quota : Option ResourceQuota) (inPlace : Bool) (s : System) : System :=
  match quota,s.quotas.lookup ns with
  | none,_ => { s with quotas := s.quotas.erase ns }
  | some quota,some found =>
    { s with quotas := s.quotas.insert ns { quota with
               uid := if inPlace then found.uid else s.version, resourceVersion := s.version }
             version := s.version + 1 }
  | some quota,none =>
    { s with quotas := s.quotas.insert ns { quota with uid := s.version, resourceVersion := s.version }
             version := s.version + 1 }

def settle (result : Except String Bool) (session : Session) (p : Project) : Project :=
  { p with
    quotaObservedRevision := if result matches .ok true then some session.project.quotaRevision else none
    quotaSyncError := match result with
      | .ok _ => none
      | .error text => some text }

def step (l : Label) (s : System) : Option System :=
  match l with
  | .call pick c =>
    if waits s c then none
    else
      match transact pick s.db c with
      | .ok (db,_) => some { s with db }
      | .error _ => none
  | .lock id =>
    match s.sessions.lookup id,s.db.projects.lookup id with
    | none,some project =>
      if project.state = .ready then some { s with
        sessions := s.sessions.insert id ⟨project,.readNamespace,none⟩, last := s.last.insert id none }
      else none
    | _,_ => none
  | .kube id fault =>
    match s.sessions.lookup id with
    | none => none
    | some session =>
      match session.stage with
      | .ended _ => none
      | _ =>
        let (s',session') := match fault with
          | .none => perform lib id session s
          | .failed code => (s,session.throws lib id code)
          | .lost code => ((perform lib id session s).1,session.throws lib id code)
        some { s' with sessions := s.sessions.insert id session', last := s.last.insert id session'.seen }
  | .commit id =>
    match s.sessions.lookup id with
    | none => none
    | some session =>
      match session.stage with
      | .ended result => some { s with
          db := updateProject id (settle result session) s.db
          sessions := s.sessions.erase id, committed := s.committed.insert id session.seen }
      | _ => none
  | .rollback id =>
    match s.sessions.lookup id with
    | none => none
    | some _ => some { s with sessions := s.sessions.erase id }
  | .others ns found quota inPlace => some (alterQuota ns quota inPlace (alterNamespace ns found s))

end
end Expbuild.QuotaSync
