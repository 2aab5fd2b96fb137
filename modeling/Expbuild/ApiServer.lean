import Expbuild.Calls
import Expbuild.Objects

/-!
The Kubernetes API server as the platform relies on it. `CacheInstance` objects
are in a versioned store: a create fails where the name is taken, a replace fails
unless it carries the current identity and version, a delete carries the identity
as a precondition and completes once the finalizers are gone. The operator and
everybody else act on the cluster through `Act`.

Identities are handed out in increasing order. The platform only ever compares
them, so this fixes no more than their names.
-/
namespace Expbuild.ApiServer
open Expbuild.Contract Expbuild.Schema Expbuild.Tables Expbuild.Objects Expbuild.Calls

/-- The metadata and status of a `CacheInstance`. -/
structure Meta where
  apiVersion : String
  kind : String
  labels : Labels
  annotations : Annotations
  status : Status
  deriving DecidableEq

abbrev Object := Entry Key Meta Spec

/-- An object as a client reads it. -/
def render (e : Object) : CacheObject where
  apiVersion := e.metadata.apiVersion
  kind := e.metadata.kind
  name := e.key.2
  ns := e.key.1
  labels := e.metadata.labels
  annotations := e.metadata.annotations
  spec := e.spec
  uid := some e.uid
  generation := some e.generation
  resourceVersion := some e.version
  deleting := e.deleting
  status := e.metadata.status

/-- A write of a client, for the record: the operation named by the written
    object, the revision it replaced (none for a creation), the generation it led
    to and whether it changed the specification. -/
structure Write where
  uid : KubeUid
  operationId : Option OperationId
  replaced : Option Revision
  generation : Nat
  specChanged : Bool
  deriving DecidableEq

structure Cluster where
  objects : Store Key Meta Spec := {}
  writes : List Write := []
  namespaces : Table Namespace Labels := ∅
  policies : Table (Namespace × PolicyName) NetworkPolicy := ∅
  secrets : Table (Namespace × SecretName) Secret := ∅
  nextSecret : Nat := 0
  claims : Table Key Claim := ∅
  /-- The claims that Pods mount. -/
  mounts : List Key := []

/-- The object under a key. -/
def Cluster.at (c : Cluster) (k : Key) : Option Object := c.objects.live.lookup k

def notFound : Failure := .api (some 404)
def conflict : Failure := .api (some 409)

/-! ### Requests on `CacheInstance` objects -/

def manifestMeta (body : Manifest) (status : Status) : Meta :=
  ⟨body.apiVersion,body.kind,body.labels,body.annotations,status⟩

def createObject (body : Manifest) (c : Cluster) : Except Failure (Cluster × CacheObject) := do
  let k : Key := (body.ns,body.name)
  demand (c.at k = none) conflict
  let e := c.objects.fresh k (manifestMeta body {}) body.spec
  return ({ c with objects := c.objects.create k (manifestMeta body {}) body.spec
                   writes := ⟨e.uid,body.annotations.operationId,none,1,true⟩ :: c.writes },render e)

/-- The object after a replace. Its status is written through another path. -/
def replacement (body : CacheObject) (e : Object) : Object :=
  Store.changed e { e.metadata with labels := body.labels, annotations := body.annotations } body.spec

def replaceObject (k : Key) (body : CacheObject) (c : Cluster) : Except Failure (Cluster × CacheObject) := do
  let e ← found (c.at k) notFound
  demand (body.uid = some e.uid ∧ body.resourceVersion = some e.version) conflict
  let new := replacement body e
  return ({ c with objects := c.objects.write new
                   writes := ⟨e.uid,body.annotations.operationId,some ⟨some e.uid,some e.generation⟩,new.generation,
                              body.spec ≠ e.spec⟩ :: c.writes },
    render { new with version := c.objects.nextVersion })

def deleteObject (k : Key) (uid : KubeUid) (c : Cluster) : Except Failure Cluster := do
  let e ← found (c.at k) notFound
  demand (e.uid = uid) conflict
  return { c with objects := c.objects.delete e }

/-! ### Requests on other objects -/

def createSecret (ns : Namespace) (name : SecretName) (secretLabels : Labels) (operationId : OperationId)
    (data : CredentialData) (c : Cluster) : Except Failure Cluster := do
  demand (c.secrets.lookup (ns,name) = none) conflict
  return { c with secrets := c.secrets.insert (ns,name) ⟨c.nextSecret,secretLabels,some operationId,data⟩
                  nextSecret := c.nextSecret + 1 }

def deleteSecret (ns : Namespace) (name : SecretName) (uid : Nat) (c : Cluster) : Except Failure Cluster := do
  let secret ← found (c.secrets.lookup (ns,name)) notFound
  demand (secret.uid = uid) conflict
  return { c with secrets := c.secrets.erase (ns,name) }

/-- A claim is protected while it is in use, so that a deletion first marks it. -/
def deleteClaim (k : Key) (uid : VolumeUid) (version : Nat) (c : Cluster) : Except Failure Cluster := do
  let claim ← found (c.claims.lookup k) notFound
  demand (claim.uid = uid ∧ claim.resourceVersion = version) conflict
  return { c with claims := c.claims.insert k { claim with deleting := true, resourceVersion := version + 1 } }

/-- Answers a request. A request that throws changes nothing. -/
def serve (c : Cluster) : (call : KubeCall) → Except Failure (Cluster × call.Value)
  | .createNamespace ns nsLabels => do
    demand (c.namespaces.lookup ns = none) conflict
    return ({ c with namespaces := c.namespaces.insert ns nsLabels },())
  | .readNamespace ns => do
    let nsLabels ← found (c.namespaces.lookup ns) notFound
    return (c,nsLabels)
  | .createPolicy ns name policyLabels => do
    demand (c.policies.lookup (ns,name) = none) conflict
    return ({ c with policies := c.policies.insert (ns,name) { labels := policyLabels } },())
  | .readPolicy ns name => do
    let policy ← found (c.policies.lookup (ns,name)) notFound
    return (c,policy)
  | .createSecret ns name secretLabels operationId data => do
    let after ← createSecret ns name secretLabels operationId data c
    return (after,())
  | .readSecret ns name => do
    let secret ← found (c.secrets.lookup (ns,name)) notFound
    return (c,secret)
  | .deleteSecret ns name uid => do
    let after ← deleteSecret ns name uid c
    return (after,())
  | .readInstance ns name => do
    let e ← found (c.at (ns,name)) notFound
    return (c,render e)
  | .createInstance body => createObject body c
  | .replaceInstance ns name body => replaceObject (ns,name) body c
  | .deleteInstance ns name uid => do
    let after ← deleteObject (ns,name) uid c
    return (after,())
  | .readClaim ns name => do
    let claim ← found (c.claims.lookup (ns,name)) notFound
    return (c,claim)
  | .listMounts ns => return (c,(c.mounts.filter (fun k => k.1 = ns)).map (fun k => k.2))
  | .deleteClaim ns name uid version => do
    let after ← deleteClaim (ns,name) uid version c
    return (after,())

/-! ### Everybody else -/

/-- What happens in the cluster besides the requests of the platform. -/
inductive Act where
  /-- The operator takes or gives up its finalizers. -/
  | finalizers (k : Key) (on : Bool)
  | status (k : Key) (status : Status)
  | claim (k : Key) (claim : Option Claim)
  | mounts (mounts : List Key)
  /-- Somebody else creates, edits or deletes an object. -/
  | create (body : Manifest)
  | edit (k : Key) (labels : Labels) (annotations : Annotations) (spec : Spec)
  | delete (k : Key)

/-- Whether it only follows from what the platform asked for. -/
def Act.own : Act → Bool
  | .create _ | .edit _ _ _ _ | .delete _ => false
  | _ => true

def act (c : Cluster) : Act → Option Cluster
  | .finalizers k on => do
    let e ← c.at k
    return { c with objects := c.objects.finalize e on }
  | .status k status => do
    let e ← c.at k
    return { c with objects := c.objects.write (Store.changed e { e.metadata with status := status } e.spec) }
  | .claim k claim => some { c with claims := match claim with
      | some v => c.claims.insert k v
      | none => c.claims.erase k }
  | .mounts mounts => some { c with mounts := mounts }
  | .create body =>
    let k : Key := (body.ns,body.name)
    if c.at k = none then some { c with objects := c.objects.create k (manifestMeta body {}) body.spec } else none
  | .edit k newLabels annotations spec => do
    let e ← c.at k
    return { c with objects := c.objects.write (Store.changed e
      { e.metadata with labels := newLabels, annotations := annotations } spec) }
  | .delete k => do
    let e ← c.at k
    return { c with objects := c.objects.delete e }

/-! ### What a request and an act can do to the objects -/

section
variable {c c' : Cluster}

theorem serve_read {ns : Namespace} {name : ResourceName} {v : CacheObject}
    (ran : serve c (.readInstance ns name) = .ok (c',v)) : c' = c ∧ ∃ e, c.at (ns,name) = some e ∧ v = render e := by
  simp only [serve,bind_eq_ok,found_eq_ok,pure_eq_ok,Prod.mk.injEq] at ran
  obtain ⟨e,present,rfl,rfl⟩ := ran
  exact ⟨rfl,e,present,rfl⟩

theorem serve_create {body : Manifest} {v : CacheObject} (ran : serve c (.createInstance body) = .ok (c',v)) :
    c.at (body.ns,body.name) = none ∧
    c'.objects = c.objects.create (body.ns,body.name) (manifestMeta body {}) body.spec ∧
    c'.writes = ⟨c.objects.nextUid,body.annotations.operationId,none,1,true⟩ :: c.writes ∧
    v = render (c.objects.fresh (body.ns,body.name) (manifestMeta body {}) body.spec) := by
  simp only [serve,createObject,bind_eq_ok,demand_eq_ok,pure_eq_ok,Prod.mk.injEq] at ran
  obtain ⟨_,absent,rfl,rfl⟩ := ran
  exact ⟨absent,rfl,rfl,rfl⟩

theorem serve_replace {ns : Namespace} {name : ResourceName} {body v : CacheObject}
    (ran : serve c (.replaceInstance ns name body) = .ok (c',v)) :
    ∃ e, c.at (ns,name) = some e ∧ body.uid = some e.uid ∧ body.resourceVersion = some e.version ∧
      c'.objects = c.objects.write (replacement body e) ∧
      c'.writes = ⟨e.uid,body.annotations.operationId,some ⟨some e.uid,some e.generation⟩,
        (replacement body e).generation,decide (body.spec ≠ e.spec)⟩ :: c.writes ∧
      v = render { replacement body e with version := c.objects.nextVersion } := by
  simp only [serve,replaceObject,bind_eq_ok,found_eq_ok,demand_eq_ok,pure_eq_ok,Prod.mk.injEq] at ran
  obtain ⟨e,present,_,⟨uid,version⟩,rfl,rfl⟩ := ran
  exact ⟨e,present,uid,version,rfl,rfl,rfl⟩

theorem serve_delete {ns : Namespace} {name : ResourceName} {uid : KubeUid} {v : Unit}
    (ran : serve c (.deleteInstance ns name uid) = .ok (c',v)) :
    ∃ e, c.at (ns,name) = some e ∧ e.uid = uid ∧ c' = { c with objects := c.objects.delete e } := by
  simp only [serve,deleteObject,bind_eq_ok,found_eq_ok,demand_eq_ok,pure_eq_ok,Prod.mk.injEq] at ran
  obtain ⟨_,⟨e,present,_,same,rfl⟩,rfl,_⟩ := ran
  exact ⟨e,present,same,rfl⟩

/-- The requests that change objects. -/
def writesObjects : KubeCall → Bool
  | .createInstance _ | .replaceInstance _ _ _ | .deleteInstance _ _ _ => true
  | _ => false

theorem serve_other {call : KubeCall} {v : call.Value} (other : writesObjects call = false)
    (ran : serve c call = .ok (c',v)) : c'.objects = c.objects ∧ c'.writes = c.writes := by
  cases call with
  | createInstance _ | replaceInstance _ _ _ | deleteInstance _ _ _ => cases other
  | createNamespace _ _ | createPolicy _ _ _ =>
    simp only [serve,bind_eq_ok,demand_eq_ok,pure_eq_ok,Prod.mk.injEq] at ran
    obtain ⟨_,_,rfl,_⟩ := ran
    exact ⟨rfl,rfl⟩
  | readNamespace _ | readPolicy _ _ | readSecret _ _ | readInstance _ _ | readClaim _ _ =>
    simp only [serve,bind_eq_ok,found_eq_ok,pure_eq_ok,Prod.mk.injEq] at ran
    obtain ⟨_,_,rfl,_⟩ := ran
    exact ⟨rfl,rfl⟩
  | createSecret _ _ _ _ _ =>
    simp only [serve,createSecret,bind_eq_ok,demand_eq_ok,pure_eq_ok,Prod.mk.injEq] at ran
    obtain ⟨_,⟨_,_,rfl⟩,rfl,_⟩ := ran
    exact ⟨rfl,rfl⟩
  | deleteSecret _ _ _ =>
    simp only [serve,deleteSecret,bind_eq_ok,found_eq_ok,demand_eq_ok,pure_eq_ok,Prod.mk.injEq] at ran
    obtain ⟨_,⟨_,_,_,_,rfl⟩,rfl,_⟩ := ran
    exact ⟨rfl,rfl⟩
  | deleteClaim _ _ _ _ =>
    simp only [serve,deleteClaim,bind_eq_ok,found_eq_ok,demand_eq_ok,pure_eq_ok,Prod.mk.injEq] at ran
    obtain ⟨_,⟨_,_,_,_,rfl⟩,rfl,_⟩ := ran
    exact ⟨rfl,rfl⟩
  | listMounts _ =>
    simp only [serve,pure_eq_ok,Prod.mk.injEq] at ran
    obtain ⟨rfl,_⟩ := ran
    exact ⟨rfl,rfl⟩

theorem step_delete {k : Key} {e : Object} (wf : Wf c.objects) (present : c.at k = some e) :
    Step c.objects (c.objects.delete e) := wf.step_delete present

theorem step_finalize {k : Key} {e : Object} (wf : Wf c.objects) (present : c.at k = some e) (on : Bool) :
    Step c.objects (c.objects.finalize e on) := by
  unfold Store.finalize
  split
  · split
    · exact .idle
    · rw [wf.key present]
      exact .removed present
  · exact .rewritten _ present ⟨rfl,rfl,.inl ⟨rfl,rfl,rfl⟩,fun deleting => deleting⟩

theorem serve_step {call : KubeCall} {v : call.Value} (wf : Wf c.objects) (ran : serve c call = .ok (c',v)) :
    Step c.objects c'.objects := by
  cases call with
  | createInstance body =>
    obtain ⟨absent,objects,_⟩ := serve_create ran
    rw [objects]
    exact .created _ _ _ absent
  | replaceInstance ns name body =>
    obtain ⟨e,present,_,_,objects,_⟩ := serve_replace ran
    rw [objects]
    exact .rewritten _ present (rewrites_changed _ _ _)
  | deleteInstance ns name uid =>
    obtain ⟨e,present,_,rfl⟩ := serve_delete ran
    exact step_delete wf present
  | _ =>
    rw [(serve_other rfl ran).1]
    exact .idle

theorem act_step {a : Act} (wf : Wf c.objects) (acts : act c a = some c') : Step c.objects c'.objects := by
  cases a with
  | finalizers k on =>
    simp only [act,Option.bind_eq_bind,Option.bind_eq_some_iff,Option.pure_def,Option.some.injEq] at acts
    obtain ⟨e,present,rfl⟩ := acts
    exact step_finalize wf present on
  | status k status =>
    simp only [act,Option.bind_eq_bind,Option.bind_eq_some_iff,Option.pure_def,Option.some.injEq] at acts
    obtain ⟨e,present,rfl⟩ := acts
    exact .rewritten _ present (rewrites_changed _ _ _)
  | claim k claim => cases acts; exact .idle
  | mounts mounts => cases acts; exact .idle
  | create body =>
    simp only [act] at acts
    split at acts
    · rename_i absent
      cases acts
      exact .created _ _ _ absent
    · cases acts
  | edit k newLabels annotations spec =>
    simp only [act,Option.bind_eq_bind,Option.bind_eq_some_iff,Option.pure_def,Option.some.injEq] at acts
    obtain ⟨e,present,rfl⟩ := acts
    exact .rewritten _ present (rewrites_changed _ _ _)
  | delete k =>
    simp only [act,Option.bind_eq_bind,Option.bind_eq_some_iff,Option.pure_def,Option.some.injEq] at acts
    obtain ⟨e,present,rfl⟩ := acts
    exact step_delete wf present

theorem nextUid_serve {call : KubeCall} {v : call.Value} (ran : serve c call = .ok (c',v))
    (other : ∀ body, call ≠ .createInstance body) : c'.objects.nextUid = c.objects.nextUid := by
  cases call with
  | createInstance body => exact absurd rfl (other body)
  | replaceInstance ns name body =>
    obtain ⟨e,_,_,_,objects,_⟩ := serve_replace ran
    rw [objects]
    rfl
  | deleteInstance ns name uid =>
    obtain ⟨e,_,_,rfl⟩ := serve_delete ran
    simp only [Store.delete]
    split
    · split <;> rfl
    · rfl
  | _ => rw [(serve_other rfl ran).1]

theorem nextUid_act {a : Act} (own : a.own = true) (acts : act c a = some c') :
    c'.objects.nextUid = c.objects.nextUid := by
  cases a with
  | finalizers k on =>
    simp only [act,Option.bind_eq_bind,Option.bind_eq_some_iff,Option.pure_def,Option.some.injEq] at acts
    obtain ⟨e,_,rfl⟩ := acts
    simp only [Store.finalize]
    split
    · split <;> rfl
    · rfl
  | status k status =>
    simp only [act,Option.bind_eq_bind,Option.bind_eq_some_iff,Option.pure_def,Option.some.injEq] at acts
    obtain ⟨e,_,rfl⟩ := acts
    rfl
  | claim k claim => cases acts; rfl
  | mounts mounts => cases acts; rfl
  | create _ | edit _ _ _ _ | delete _ => cases own

end
end Expbuild.ApiServer
