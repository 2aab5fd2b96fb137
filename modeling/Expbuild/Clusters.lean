import Expbuild.Objects
import Expbuild.Programs
import Expbuild.Runs

/-!
An API server with objects of several kinds, and the controllers that work on it. A
`Scheme` says what kinds there are and what their objects consist of; a cluster has a
versioned store for each kind. Clients read and list, create, write under an optimistic
lock, merge a patch without one, and delete under preconditions, and any request may be
refused or lose its answer.

`Served` lists what a request that takes effect can do, and `Outcome` what a client may
be told about it.
-/
namespace Expbuild.Clusters
open Expbuild.Tables Expbuild.Objects Expbuild.Programs

structure Scheme where
  Kind : Type
  Name : Kind → Type
  Meta : Kind → Type
  Spec : Kind → Type
  /-- A patch of the metadata that is merged into whatever is there. -/
  Patch : Kind → Type
  Selector : Kind → Type
  /-- Requests that do not go to the API server. -/
  Outside : Type
  kinds : DecidableEq Kind
  names : ∀ k, DecidableEq (Name k)
  specs : ∀ k, DecidableEq (Spec k)
  /-- Whether the metadata hold an object that is being deleted. -/
  held : ∀ k, Meta k → Bool
  merge : ∀ k, Patch k → Meta k → Meta k
  /-- Whether a patch may be merged into an object that is being deleted. -/
  admits : ∀ k, Patch k → Meta k → Bool
  selects : ∀ k, Selector k → Name k → Meta k → Bool

attribute [instance] Scheme.kinds Scheme.names Scheme.specs

variable {S : Scheme}

abbrev Item (S : Scheme) (k : S.Kind) := Entry (S.Name k) (S.Meta k) (S.Spec k)
abbrev Objects (S : Scheme) (k : S.Kind) := Store (S.Name k) (S.Meta k) (S.Spec k)
def Cluster (S : Scheme) := ∀ k, Objects S k

/-! ### Requests -/

inductive Request (S : Scheme) where
  | get (k : S.Kind) (n : S.Name k)
  | list (k : S.Kind) (select : S.Selector k)
  | create (k : S.Kind) (n : S.Name k) (metadata : S.Meta k) (spec : S.Spec k)
  /-- A write that expects the version. -/
  | patch (k : S.Kind) (n : S.Name k) (version : Nat) (metadata : S.Meta k) (spec : S.Spec k)
  | merge (k : S.Kind) (n : S.Name k) (p : S.Patch k)
  /-- A deletion that expects the identity, and the version if there is one. -/
  | delete (k : S.Kind) (n : S.Name k) (uid : Nat) (version : Option Nat)
  | outside (what : S.Outside)

abbrev Request.Value : Request S → Type
  | .get k _ => Item S k
  | .list k _ => List (Item S k)
  | .create _ _ _ _ | .patch _ _ _ _ _ | .merge _ _ _ | .delete _ _ _ _ | .outside _ => Unit

/-- How a request fails. -/
inductive Failure where
  | notFound
  | conflict
  | alreadyExists
  /-- Anything else. -/
  | refused
  deriving DecidableEq,Repr

abbrev Request.Answer (r : Request S) : Type := Except Failure r.Value

section
variable {k : S.Kind}

/-- Whether a deletion of the object has to wait. -/
def stays (e : Item S k) : Bool := e.finalizers || S.held k e.metadata

/-- Stores an object, unless nothing holds it any more. -/
def put (s : Objects S k) (e : Item S k) : Objects S k :=
  if e.deleting && !stays e then { s with live := s.live.erase e.key } else s.write e

def remove (s : Objects S k) (e : Item S k) : Objects S k :=
  if stays e then
    if e.deleting then s else s.write { e with deleting := true, generation := e.generation + 1 }
  else { s with live := s.live.erase e.key }

end

namespace Cluster

def at_ (c : Cluster S) (k : S.Kind) (n : S.Name k) : Option (Item S k) := (c k).live.lookup n

def with_ (c : Cluster S) (k : S.Kind) (s : Objects S k) : Cluster S := Function.update c k s

def find (c : Cluster S) (k : S.Kind) (n : S.Name k) : Except Failure (Item S k) :=
  match c.at_ k n with
  | some e => .ok e
  | none => .error .notFound

def list (c : Cluster S) (k : S.Kind) (select : S.Selector k) : List (Item S k) :=
  ((c k).live.entries.map (fun row => row.2)).filter (fun e => S.selects k select e.key e.metadata)

def create (c : Cluster S) (k : S.Kind) (n : S.Name k) (metadata : S.Meta k) (spec : S.Spec k) : Except Failure (Cluster S) :=
  match c.at_ k n with
  | some _ => .error .alreadyExists
  | none => .ok (c.with_ k ((c k).create n metadata spec))

def patch (c : Cluster S) (k : S.Kind) (n : S.Name k) (version : Nat) (metadata : S.Meta k) (spec : S.Spec k) :
    Except Failure (Cluster S) := do
  let e ← c.find k n
  if e.version = version then return c.with_ k (put (c k) (Store.changed e metadata spec)) else throw .conflict

def merge (c : Cluster S) (k : S.Kind) (n : S.Name k) (p : S.Patch k) : Except Failure (Cluster S) := do
  let e ← c.find k n
  if e.deleting && !S.admits k p e.metadata then throw .refused
  else return c.with_ k (put (c k) { e with metadata := S.merge k p e.metadata })

def delete (c : Cluster S) (k : S.Kind) (n : S.Name k) (uid : Nat) (version : Option Nat) : Except Failure (Cluster S) := do
  let e ← c.find k n
  if e.uid = uid ∧ version.all (fun v => v = e.version) = true then return c.with_ k (remove (c k) e) else throw .conflict

/-- Answers a request. A request that throws changes nothing. -/
def serve (c : Cluster S) : (r : Request S) → Except Failure (Cluster S × r.Value)
  | .get k n => (c.find k n).map (fun e => (c,e))
  | .list k select => .ok (c,c.list k select)
  | .create k n metadata spec => (c.create k n metadata spec).map (fun c => (c,()))
  | .patch k n version metadata spec => (c.patch k n version metadata spec).map (fun c => (c,()))
  | .merge k n p => (c.merge k n p).map (fun c => (c,()))
  | .delete k n uid version => (c.delete k n uid version).map (fun c => (c,()))
  | .outside _ => .ok (c,())

end Cluster

/-- How a request goes: as it should, refused without an effect, or with its answer lost
    after it took effect. -/
inductive Fault where
  | delivered
  | refused (conflict : Bool)
  | lost
  deriving DecidableEq,Repr

def Fault.error : Fault → Failure
  | .refused true => .conflict
  | _ => .refused

def perform (fault : Fault) (r : Request S) (c : Cluster S) : Cluster S × r.Answer :=
  match fault,c.serve r with
  | .refused conflict,_ => (c,.error (Fault.refused conflict).error)
  | .delivered,.ok (after,v) => (after,.ok v)
  | .lost,.ok (after,_) => (after,.error .refused)
  | _,.error e => (c,.error e)

/-- Whether a request took effect. -/
def effective (fault : Fault) (r : Request S) (c : Cluster S) : Bool :=
  match fault with
  | .refused _ => false
  | .delivered | .lost => (c.serve r).isOk

/-! ### What a request can do -/

section
variable {c c' : Cluster S} {k : S.Kind}

theorem find_ok {n : S.Name k} {e : Item S k} : c.find k n = .ok e ↔ c.at_ k n = some e := by
  unfold Cluster.find
  cases c.at_ k n with
  | none => simp
  | some e' => simp

@[simp] theorem with_same (c : Cluster S) (k : S.Kind) (s : Objects S k) : c.with_ k s k = s := Function.update_self k s c

theorem with_other {j : S.Kind} (other : j ≠ k) (c : Cluster S) (s : Objects S k) : c.with_ k s j = c j :=
  Function.update_of_ne other s c

/-- A request that takes effect, by what it does to the cluster. -/
inductive Served (c : Cluster S) : (r : Request S) → Cluster S → r.Value → Prop where
  | got {k : S.Kind} {n : S.Name k} {e : Item S k} (present : c.at_ k n = some e) : Served c (.get k n) c e
  | listed (k : S.Kind) (select : S.Selector k) : Served c (.list k select) c (c.list k select)
  | created {k : S.Kind} {n : S.Name k} (metadata : S.Meta k) (spec : S.Spec k) (absent : c.at_ k n = none) :
      Served c (.create k n metadata spec) (c.with_ k ((c k).create n metadata spec)) ()
  | patched {k : S.Kind} {n : S.Name k} {e : Item S k} (metadata : S.Meta k) (spec : S.Spec k) (present : c.at_ k n = some e) :
      Served c (.patch k n e.version metadata spec) (c.with_ k (put (c k) (Store.changed e metadata spec))) ()
  | merged {k : S.Kind} {n : S.Name k} {e : Item S k} (p : S.Patch k) (present : c.at_ k n = some e)
      (admitted : e.deleting = true → S.admits k p e.metadata = true) :
      Served c (.merge k n p) (c.with_ k (put (c k) { e with metadata := S.merge k p e.metadata })) ()
  | deleted {k : S.Kind} {n : S.Name k} {e : Item S k} (version : Option Nat) (present : c.at_ k n = some e)
      (current : ∀ v, version = some v → v = e.version) : Served c (.delete k n e.uid version) (c.with_ k (remove (c k) e)) ()
  | passed (what : S.Outside) : Served c (.outside what) c ()

theorem served_of_ok {r : Request S} {v : r.Value} (ran : c.serve r = .ok (c',v)) : Served c r c' v := by
  cases r with
  | get k n =>
    cases found : c.find k n with
    | error e => simp [Cluster.serve,found,Except.map] at ran
    | ok e =>
      simp only [Cluster.serve,found,Except.map,Except.ok.injEq,Prod.mk.injEq] at ran
      obtain ⟨rfl,rfl⟩ := ran
      exact .got (find_ok.mp found)
  | list k select =>
    cases ran
    exact .listed k select
  | create k n metadata spec =>
    cases absent : c.at_ k n with
    | some e => simp [Cluster.serve,Cluster.create,absent,Except.map] at ran
    | none =>
      simp only [Cluster.serve,Cluster.create,absent,Except.map,Except.ok.injEq,Prod.mk.injEq] at ran
      obtain ⟨rfl,_⟩ := ran
      exact .created metadata spec absent
  | patch k n version metadata spec =>
    cases found : c.find k n with
    | error e => simp [Cluster.serve,Cluster.patch,found,Except.map,bind,Except.bind] at ran
    | ok e =>
      simp only [Cluster.serve,Cluster.patch,found,bind,Except.bind] at ran
      by_cases current : e.version = version
      · subst current
        simp only [if_true,pure,Except.pure,Except.map,Except.ok.injEq,Prod.mk.injEq] at ran
        obtain ⟨rfl,_⟩ := ran
        exact .patched metadata spec (find_ok.mp found)
      · simp [current,throw,throwThe,MonadExceptOf.throw,Except.map] at ran
  | merge k n p =>
    cases found : c.find k n with
    | error e => simp [Cluster.serve,Cluster.merge,found,Except.map,bind,Except.bind] at ran
    | ok e =>
      simp only [Cluster.serve,Cluster.merge,found,bind,Except.bind] at ran
      split at ran
      · simp [throw,throwThe,MonadExceptOf.throw,Except.map] at ran
      · rename_i admitted
        simp only [pure,Except.pure,Except.map,Except.ok.injEq,Prod.mk.injEq] at ran
        obtain ⟨rfl,_⟩ := ran
        exact .merged p (find_ok.mp found) (by simpa using admitted)
  | delete k n uid version =>
    cases found : c.find k n with
    | error e => simp [Cluster.serve,Cluster.delete,found,Except.map,bind,Except.bind] at ran
    | ok e =>
      simp only [Cluster.serve,Cluster.delete,found,bind,Except.bind] at ran
      split at ran
      · rename_i same
        obtain ⟨rfl,current⟩ := same
        simp only [pure,Except.pure,Except.map,Except.ok.injEq,Prod.mk.injEq] at ran
        obtain ⟨rfl,_⟩ := ran
        refine .deleted version (find_ok.mp found) (fun v same => ?_)
        subst same
        simpa using current
      · simp [throw,throwThe,MonadExceptOf.throw,Except.map] at ran
  | outside what =>
    cases ran
    exact .passed what

end

section
variable {k : S.Kind} {s : Objects S k} {e old : Item S k}

/-- Content is written to an object that is there. -/
theorem step_put {n : S.Name k} (wf : Wf s) (present : s.live.lookup n = some old) (rewrites : Rewrites old e) : Step s (put s e) := by
  unfold put
  have keyed : e.key = n := rewrites.key.trans (wf.key present)
  split
  · rw [keyed]
    exact .removed present
  · exact .rewritten e present rewrites

theorem step_remove {n : S.Name k} (wf : Wf s) (present : s.live.lookup n = some e) : Step s (remove s e) := by
  unfold remove
  split
  · split
    · exact .idle
    · exact .rewritten _ present ⟨rfl,rfl,.inr rfl,fun _ => rfl⟩
  · rw [wf.key present]
    exact .removed present

/-- Every store of a well-formed cluster changes by at most one step. -/
theorem Served.steps {c c' : Cluster S} {r : Request S} {v : r.Value} (wf : ∀ k, Wf (c k)) (served : Served c r c' v) (j : S.Kind) :
    Step (c j) (c' j) := by
  have one : ∀ {k : S.Kind} {s : Objects S k}, Step (c k) s → Step (c j) (c.with_ k s j) := by
    intro k s step
    by_cases same : j = k
    · subst same
      rw [with_same]
      exact step
    · rw [with_other same]
      exact .idle
  cases served with
  | got _ | listed _ _ | passed _ => exact .idle
  | created metadata spec absent => exact one (.created _ metadata spec absent)
  | patched metadata spec present => exact one (step_put (wf _) present (rewrites_changed _ _ _))
  | merged p present => exact one (step_put (wf _) present ⟨rfl,rfl,.inl ⟨rfl,rfl,rfl⟩,fun deleting => deleting⟩)
  | deleted version present => exact one (step_remove (wf _) present)

/-- What is listed is there and was selected. -/
theorem mem_list {c : Cluster S} {select : S.Selector k} {e : Item S k} (listed : e ∈ c.list k select) :
    (∃ n, c.at_ k n = some e) ∧ S.selects k select e.key e.metadata = true := by
  obtain ⟨inside,selected⟩ := List.mem_filter.mp listed
  obtain ⟨⟨n,e'⟩,member,rfl⟩ := List.mem_map.mp inside
  exact ⟨⟨n,AList.mem_lookup_iff.mpr member⟩,selected⟩

end

/-- How a request that was performed went: it failed without an effect, it was
    answered, or its answer was lost. -/
inductive Outcome (c : Cluster S) (r : Request S) : Cluster S → r.Answer → Bool → Prop where
  | failed {e : Failure} (absent : ∀ k n, r = .get k n → e = .notFound → c.at_ k n = none) : Outcome c r c (.error e) false
  | answered {c' : Cluster S} {v : r.Value} (served : Served c r c' v) : Outcome c r c' (.ok v) true
  | lost {c' : Cluster S} {v : r.Value} (served : Served c r c' v) : Outcome c r c' (.error .refused) true

theorem perform_outcome {fault : Fault} {r : Request S} {c c' : Cluster S} {x : r.Answer}
    (performed : perform fault r c = (c',x)) : Outcome c r c' x (effective fault r c) := by
  have missing : ∀ e : Failure, c.serve r = .error e → ∀ k n, r = .get k n → e = .notFound → c.at_ k n = none := by
    intro e ran k n same notFound
    subst same
    cases found : c.at_ k n with
    | none => rfl
    | some item => simp [Cluster.serve,Cluster.find,found,Except.map] at ran
  unfold perform at performed
  unfold effective
  cases fault with
  | refused conflict =>
    cases performed
    refine .failed (fun k n _ wrong => ?_)
    cases conflict with
    | true => cases wrong
    | false => cases wrong
  | delivered =>
    cases ran : c.serve r with
    | error e =>
      rw [ran] at performed
      cases performed
      exact .failed (missing e ran)
    | ok done =>
      rw [ran] at performed
      cases performed
      exact .answered (served_of_ok ran)
  | lost =>
    cases ran : c.serve r with
    | error e =>
      rw [ran] at performed
      cases performed
      exact .failed (missing e ran)
    | ok done =>
      rw [ran] at performed
      cases performed
      exact .lost (served_of_ok ran)

section
variable {c c' : Cluster S} {r : Request S} {x : r.Answer} {took : Bool}

theorem Outcome.steps (wf : ∀ k, Wf (c k)) (outcome : Outcome c r c' x took) (k : S.Kind) : Step (c k) (c' k) := by
  cases outcome with
  | failed _ => exact .idle
  | answered served => exact served.steps wf k
  | lost served => exact served.steps wf k

theorem Outcome.served (outcome : Outcome c r c' x took) (effect : took = true) : ∃ v, Served c r c' v := by
  cases outcome with
  | failed _ => cases effect
  | answered served => exact ⟨_,served⟩
  | lost served => exact ⟨_,served⟩

theorem Outcome.value {v : r.Value} (outcome : Outcome c r c' (.ok v : r.Answer) took) : Served c r c' v := by
  cases outcome with
  | answered served => exact served

end
end Expbuild.Clusters
