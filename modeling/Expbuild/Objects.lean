import Expbuild.Tables

/-!
A store of versioned objects with optimistic concurrency. An object lives under a
key, has an identity (`uid`) that is never used again, a generation that counts
the changes of its specification, and a version that every write renews. The
store keeps all versions that ever existed (`past`), so that what a reader saw
earlier can be related to what is there now:

* a version names one state of one object (`version_unique`),
* identity and generation together name one specification (`generation_spec`) and
  tell whether the object is being deleted (`generation_deleting`),
* under one key identities only grow (`uid_le`), and so do generations under one
  identity (`generation_le`).
-/
namespace Expbuild.Objects
open Expbuild.Tables

/-- One version of an object with metadata in `M` and a specification in `S`. -/
structure Entry (K M S : Type) where
  key : K
  uid : Nat
  generation : Nat
  version : Nat
  deleting : Bool
  /-- Whether something still has to happen before a deletion completes. -/
  finalizers : Bool
  metadata : M
  spec : S
  deriving DecidableEq

structure Store (K M S : Type) where
  live : Table K (Entry K M S) := ∅
  /-- Every version so far, the newest first. -/
  past : List (Entry K M S) := []
  nextUid : Nat := 0
  nextVersion : Nat := 0

section
variable {K M S : Type} [DecidableEq K]

namespace Store

/-- Stores a version under its key. -/
def write (s : Store K M S) (e : Entry K M S) : Store K M S :=
  { s with live := s.live.insert e.key { e with version := s.nextVersion }
           past := { e with version := s.nextVersion } :: s.past
           nextVersion := s.nextVersion + 1 }

/-- The first version of a new object. -/
def fresh (s : Store K M S) (k : K) (metadata : M) (spec : S) : Entry K M S :=
  ⟨k,s.nextUid,1,s.nextVersion,false,false,metadata,spec⟩

def create (s : Store K M S) (k : K) (metadata : M) (spec : S) : Store K M S :=
  { s.write (s.fresh k metadata spec) with nextUid := s.nextUid + 1 }

/-- The object with new content: the generation counts changed specifications. -/
def changed [DecidableEq S] (e : Entry K M S) (metadata : M) (spec : S) : Entry K M S :=
  { e with metadata := metadata, spec := spec,
           generation := if spec = e.spec then e.generation else e.generation + 1 }

/-- Deletes an object at once, or marks it where a finalizer holds it. -/
def delete (s : Store K M S) (e : Entry K M S) : Store K M S :=
  if e.finalizers then
    if e.deleting then s else s.write { e with deleting := true, generation := e.generation + 1 }
  else { s with live := s.live.erase e.key }

/-- Adds a finalizer to an object that is not being deleted, or removes the last
    one, which completes a deletion. -/
def finalize (s : Store K M S) (e : Entry K M S) (on : Bool) : Store K M S :=
  if e.deleting then if on then s else { s with live := s.live.erase e.key }
  else s.write { e with finalizers := on }

end Store

/-! ### What a change of the store can do -/

/-- A new version of an object: its identity stays, and its specification only
    changes together with its generation. -/
structure Rewrites (old new : Entry K M S) : Prop where
  key : new.key = old.key
  uid : new.uid = old.uid
  generation : (new.generation = old.generation ∧ new.spec = old.spec ∧ new.deleting = old.deleting) ∨
    new.generation = old.generation + 1
  deleting : old.deleting = true → new.deleting = true

inductive Step (s : Store K M S) : Store K M S → Prop where
  | idle : Step s s
  | created (k : K) (metadata : M) (spec : S) (absent : s.live.lookup k = none) : Step s (s.create k metadata spec)
  | rewritten {k : K} {old : Entry K M S} (new : Entry K M S) (present : s.live.lookup k = some old)
      (rewrites : Rewrites old new) : Step s (s.write new)
  | removed {k : K} {old : Entry K M S} (present : s.live.lookup k = some old) :
      Step s { s with live := s.live.erase k }

omit [DecidableEq K] in
theorem rewrites_changed [DecidableEq S] (e : Entry K M S) (metadata : M) (spec : S) :
    Rewrites e (Store.changed e metadata spec) := by
  refine ⟨rfl,rfl,?_,fun deleting => deleting⟩
  by_cases same : spec = e.spec
  · exact .inl ⟨by simp [Store.changed,same],same,rfl⟩
  · exact .inr (by simp [Store.changed,same])

/-- The invariant of a store. -/
structure Wf (s : Store K M S) : Prop where
  key : ∀ {k e}, s.live.lookup k = some e → e.key = k
  past : ∀ {k e}, s.live.lookup k = some e → e ∈ s.past
  uid_lt : ∀ {e}, e ∈ s.past → e.uid < s.nextUid
  version_lt : ∀ {e}, e ∈ s.past → e.version < s.nextVersion
  generation_pos : ∀ {e}, e ∈ s.past → 0 < e.generation
  version_unique : ∀ {e e'}, e ∈ s.past → e' ∈ s.past → e.version = e'.version → e = e'
  uid_key : ∀ {e e'}, e ∈ s.past → e' ∈ s.past → e.uid = e'.uid → e.key = e'.key
  generation_spec : ∀ {e e'}, e ∈ s.past → e' ∈ s.past → e.uid = e'.uid → e.generation = e'.generation → e.spec = e'.spec
  generation_deleting : ∀ {e e'}, e ∈ s.past → e' ∈ s.past → e.uid = e'.uid → e.generation = e'.generation →
    e.deleting = e'.deleting
  uid_le : ∀ {e e'}, e ∈ s.past → s.live.lookup e.key = some e' → e.uid ≤ e'.uid
  generation_le : ∀ {e e'}, e ∈ s.past → s.live.lookup e.key = some e' → e.uid = e'.uid → e.generation ≤ e'.generation

theorem Wf.empty : Wf ({} : Store K M S) where
  key found := by simp at found
  past found := by simp at found
  uid_lt member := by simp at member
  version_lt member := by simp at member
  generation_pos member := by simp at member
  version_unique member := by simp at member
  uid_key member := by simp at member
  generation_spec member := by simp at member
  generation_deleting member := by simp at member
  uid_le member := by simp at member
  generation_le member := by simp at member

section
variable {s s' : Store K M S}

theorem Step.past_subset (step : Step s s') {e : Entry K M S} (member : e ∈ s.past) : e ∈ s'.past := by
  cases step with
  | idle => exact member
  | created k metadata spec absent => exact List.mem_cons_of_mem _ member
  | rewritten new present rewrites => exact List.mem_cons_of_mem _ member
  | removed present => exact member

theorem Step.nextUid_le (step : Step s s') : s.nextUid ≤ s'.nextUid := by
  cases step with
  | idle => exact le_rfl
  | created k metadata spec absent => exact Nat.le_succ _
  | rewritten new present rewrites => exact le_rfl
  | removed present => exact le_rfl

/-- Removing an object only forgets that it is live. -/
theorem Wf.remove (wf : Wf s) (k : K) : Wf { s with live := s.live.erase k } := by
  have still : ∀ {j : K} {e : Entry K M S}, (s.live.erase k).lookup j = some e → s.live.lookup j = some e := by
    intro j e found
    by_cases same : j = k
    · subst same; simp at found
    · rwa [AList.lookup_erase_ne same] at found
  exact
    { key := fun found => wf.key (still found)
      past := fun found => wf.past (still found)
      uid_lt := wf.uid_lt
      version_lt := wf.version_lt
      generation_pos := wf.generation_pos
      version_unique := wf.version_unique
      uid_key := wf.uid_key
      generation_spec := wf.generation_spec
      generation_deleting := wf.generation_deleting
      uid_le := fun member found => wf.uid_le member (still found)
      generation_le := fun member found => wf.generation_le member (still found) }

theorem Wf.rewrite (wf : Wf s) {k : K} {old new : Entry K M S} (present : s.live.lookup k = some old)
    (rewrites : Rewrites old new) : Wf (s.write new) := by
  have keyed : new.key = k := rewrites.key.trans (wf.key present)
  have older := wf.past present
  have bound : new.uid < s.nextUid := rewrites.uid ▸ wf.uid_lt older
  have same_key : ∀ {e}, e ∈ s.past → e.uid = new.uid → e.key = new.key := fun member same =>
    (wf.uid_key member older (same.trans rewrites.uid)).trans rewrites.key.symm
  -- no older version has reached the generation of a changed specification
  have behind : ∀ {e}, e ∈ s.past → e.uid = new.uid → e.generation ≤ old.generation := by
    intro e member same
    have at_key : s.live.lookup e.key = some old := by rw [same_key member same,keyed]; exact present
    exact wf.generation_le member at_key (same.trans rewrites.uid)
  have rises : old.generation ≤ new.generation := by
    rcases rewrites.generation with ⟨same,_⟩ | more
    · omega
    · omega
  have specified : ∀ {e}, e ∈ s.past → e.uid = new.uid → e.generation = new.generation →
      e.spec = new.spec ∧ e.deleting = new.deleting := by
    intro e member same level
    rcases rewrites.generation with ⟨kept,spec,deleting⟩ | more
    · rw [spec,deleting]
      exact ⟨wf.generation_spec member older (same.trans rewrites.uid) (level.trans kept),
        wf.generation_deleting member older (same.trans rewrites.uid) (level.trans kept)⟩
    · have := behind member same; omega
  refine
    { key := ?_, past := ?_, uid_lt := ?_, version_lt := ?_, generation_pos := ?_, version_unique := ?_, uid_key := ?_,
      generation_spec := ?_, generation_deleting := ?_, uid_le := ?_, generation_le := ?_ }
  · intro j e found
    rcases lookup_insert_some found with ⟨rfl,rfl⟩ | ⟨_,was⟩
    · rfl
    · exact wf.key was
  · intro j e found
    rcases lookup_insert_some found with ⟨_,rfl⟩ | ⟨_,was⟩
    · exact List.mem_cons_self
    · exact List.mem_cons_of_mem _ (wf.past was)
  · intro e member
    rcases List.mem_cons.mp member with rfl | member
    · exact bound
    · exact wf.uid_lt member
  · intro e member
    rcases List.mem_cons.mp member with rfl | member
    · exact Nat.lt_succ_self _
    · exact Nat.lt_succ_of_lt (wf.version_lt member)
  · intro e member
    rcases List.mem_cons.mp member with rfl | member
    · exact Nat.lt_of_lt_of_le (wf.generation_pos older) rises
    · exact wf.generation_pos member
  · intro e e' member member' same
    rcases List.mem_cons.mp member with rfl | member <;> rcases List.mem_cons.mp member' with rfl | member'
    · rfl
    · have := wf.version_lt member'; simp at same; omega
    · have := wf.version_lt member; simp at same; omega
    · exact wf.version_unique member member' same
  · intro e e' member member' same
    rcases List.mem_cons.mp member with rfl | member <;> rcases List.mem_cons.mp member' with rfl | member'
    · rfl
    · exact (same_key member' same.symm).symm
    · exact same_key member same
    · exact wf.uid_key member member' same
  · intro e e' member member' same level
    rcases List.mem_cons.mp member with rfl | member <;> rcases List.mem_cons.mp member' with rfl | member'
    · rfl
    · exact (specified member' same.symm level.symm).1.symm
    · exact (specified member same level).1
    · exact wf.generation_spec member member' same level
  · intro e e' member member' same level
    rcases List.mem_cons.mp member with rfl | member <;> rcases List.mem_cons.mp member' with rfl | member'
    · rfl
    · exact (specified member' same.symm level.symm).2.symm
    · exact (specified member same level).2
    · exact wf.generation_deleting member member' same level
  · intro e e' member found
    rcases List.mem_cons.mp member with rfl | member <;> rcases lookup_insert_some found with ⟨at_key,rfl⟩ | ⟨_,was⟩
    · exact Nat.le_refl _
    · exact absurd rfl ‹_ ≠ _›
    · rw [show ({ new with version := s.nextVersion } : Entry K M S).uid = old.uid from rewrites.uid]
      exact wf.uid_le member (by rw [at_key,keyed]; exact present)
    · exact wf.uid_le member was
  · intro e e' member found same
    rcases List.mem_cons.mp member with rfl | member <;> rcases lookup_insert_some found with ⟨at_key,rfl⟩ | ⟨_,was⟩
    · exact Nat.le_refl _
    · exact absurd rfl ‹_ ≠ _›
    · exact Nat.le_trans (behind member same) rises
    · exact wf.generation_le member was same

theorem Wf.create (wf : Wf s) {k : K} (metadata : M) (spec : S) (absent : s.live.lookup k = none) :
    Wf (s.create k metadata spec) := by
  have other : ∀ {e}, e ∈ s.past → e.uid ≠ s.nextUid := fun member => Nat.ne_of_lt (wf.uid_lt member)
  refine
    { key := ?_, past := ?_, uid_lt := ?_, version_lt := ?_, generation_pos := ?_, version_unique := ?_, uid_key := ?_,
      generation_spec := ?_, generation_deleting := ?_, uid_le := ?_, generation_le := ?_ }
  · intro j e found
    rcases lookup_insert_some found with ⟨rfl,rfl⟩ | ⟨_,was⟩
    · rfl
    · exact wf.key was
  · intro j e found
    rcases lookup_insert_some found with ⟨_,rfl⟩ | ⟨_,was⟩
    · exact List.mem_cons_self
    · exact List.mem_cons_of_mem _ (wf.past was)
  · intro e member
    rcases List.mem_cons.mp member with rfl | member
    · exact Nat.lt_succ_self _
    · exact Nat.lt_succ_of_lt (wf.uid_lt member)
  · intro e member
    rcases List.mem_cons.mp member with rfl | member
    · exact Nat.lt_succ_self _
    · exact Nat.lt_succ_of_lt (wf.version_lt member)
  · intro e member
    rcases List.mem_cons.mp member with rfl | member
    · exact Nat.one_pos
    · exact wf.generation_pos member
  · intro e e' member member' same
    rcases List.mem_cons.mp member with rfl | member <;> rcases List.mem_cons.mp member' with rfl | member'
    · rfl
    · have := wf.version_lt member'; simp at same; omega
    · have := wf.version_lt member; simp at same; omega
    · exact wf.version_unique member member' same
  · intro e e' member member' same
    rcases List.mem_cons.mp member with rfl | member <;> rcases List.mem_cons.mp member' with rfl | member'
    · rfl
    · exact absurd same.symm (other member')
    · exact absurd same (other member)
    · exact wf.uid_key member member' same
  · intro e e' member member' same level
    rcases List.mem_cons.mp member with rfl | member <;> rcases List.mem_cons.mp member' with rfl | member'
    · rfl
    · exact absurd same.symm (other member')
    · exact absurd same (other member)
    · exact wf.generation_spec member member' same level
  · intro e e' member member' same level
    rcases List.mem_cons.mp member with rfl | member <;> rcases List.mem_cons.mp member' with rfl | member'
    · rfl
    · exact absurd same.symm (other member')
    · exact absurd same (other member)
    · exact wf.generation_deleting member member' same level
  · intro e e' member found
    rcases List.mem_cons.mp member with rfl | member <;> rcases lookup_insert_some found with ⟨at_key,rfl⟩ | ⟨_,was⟩
    · exact Nat.le_refl _
    · exact absurd rfl ‹_ ≠ _›
    · exact Nat.le_of_lt (wf.uid_lt member)
    · exact wf.uid_le member was
  · intro e e' member found same
    rcases List.mem_cons.mp member with rfl | member <;> rcases lookup_insert_some found with ⟨at_key,rfl⟩ | ⟨_,was⟩
    · exact Nat.le_refl _
    · exact absurd rfl ‹_ ≠ _›
    · exact absurd same (other member)
    · exact wf.generation_le member was same

theorem Wf.step (wf : Wf s) (step : Step s s') : Wf s' := by
  cases step with
  | idle => exact wf
  | created k metadata spec absent => exact wf.create metadata spec absent
  | rewritten new present rewrites => exact wf.rewrite present rewrites
  | removed present => exact wf.remove _

/-- A deletion marks an object, or removes it. -/
theorem Wf.step_delete (wf : Wf s) {k : K} {e : Entry K M S} (present : s.live.lookup k = some e) : Step s (s.delete e) := by
  unfold Store.delete
  split
  · split
    · exact .idle
    · exact .rewritten _ present ⟨rfl,rfl,.inr rfl,fun _ => rfl⟩
  · rw [wf.key present]
    exact .removed present

/-- Only a creation puts an object where there was none. -/
theorem Step.appears (wf : Wf s) (step : Step s s') {k : K} {e : Entry K M S} (absent : s.live.lookup k = none)
    (present : s'.live.lookup k = some e) : ∃ metadata spec, s' = s.create k metadata spec := by
  cases step with
  | idle => rw [absent] at present; cases present
  | created k' metadata spec free =>
    rcases lookup_insert_some present with ⟨rfl,_⟩ | ⟨_,found⟩
    · exact ⟨metadata,spec,rfl⟩
    · rw [absent] at found; cases found
  | rewritten new found rewrites =>
    rcases lookup_insert_some present with ⟨same,_⟩ | ⟨_,found'⟩
    · rw [same,show new.key = _ from rewrites.key.trans (wf.key found),found] at absent; cases absent
    · rw [absent] at found'; cases found'
  | removed found =>
    rename_i k' old
    by_cases same : k = k'
    · subst same; simp at present
    · rw [AList.lookup_erase_ne same,absent] at present; cases present

/-- A live object whose version a reader saw is as the reader saw it. -/
theorem Wf.live_of_version (wf : Wf s) {k : K} {e l : Entry K M S} (seen : e ∈ s.past)
    (found : s.live.lookup k = some l) (same : l.version = e.version) : l = e :=
  wf.version_unique (wf.past found) seen same

end
end
end Expbuild.Objects
