import Expbuild.Guarantees

/-!
Versions of one object over the time. `Follows R s` says that what there is follows from
every earlier version of it by `R`; where every change keeps to `R`, it holds throughout a
run (`follows_rules`). So a field that is written once stays as it is, and a version that a
pass has read says something about what it writes to.
-/
namespace Expbuild.Successions
open Expbuild.Tables Expbuild.Objects Expbuild.Programs Expbuild.Runs Expbuild.Clusters Expbuild.Controllers Expbuild.Guarantees

variable {S : Scheme} {k : S.Kind}

section
variable {s s' : Objects S k} {n : S.Name k} {e old new : Item S k}

/-- What there is follows from every earlier version of it. -/
def Follows (R : Item S k → Item S k → Prop) (s : Objects S k) : Prop :=
  ∀ e ∈ s.past, ∀ e', s.live.lookup e.key = some e' → e'.uid = e.uid → R e e'

/-- A version that was not there before is the one that there is now. -/
theorem step_seen (step : Step s s') (member : e ∈ s'.past) : e ∈ s.past ∨ s'.live.lookup e.key = some e := by
  cases step with
  | idle => exact .inl member
  | created n metadata spec absent =>
    rcases List.mem_cons.mp member with rfl | member
    · exact .inr (AList.lookup_insert _)
    · exact .inl member
  | rewritten new present rewrites =>
    rcases List.mem_cons.mp member with rfl | member
    · exact .inr (AList.lookup_insert _)
    · exact .inl member
  | removed present => exact .inl member

/-- An object that was there is still the same one. -/
theorem step_uid (wf : Wf s) (step : Step s s') (was : s.live.lookup n = some old) (now : s'.live.lookup n = some new) :
    new.uid = old.uid := by
  cases step with
  | idle =>
    rw [was] at now
    cases now
    rfl
  | created m metadata spec absent =>
    rcases lookup_insert_some now with ⟨rfl,_⟩ | ⟨_,before⟩
    · rw [absent] at was
      cases was
    · rw [was] at before
      cases before
      rfl
  | rewritten new' present rewrites =>
    rcases lookup_insert_some now with ⟨same,rfl⟩ | ⟨_,before⟩
    · have keyed := rewrites.key.trans (wf.key present)
      rw [same,keyed,present] at was
      cases was
      exact rewrites.uid
    · rw [was] at before
      cases before
      rfl
  | removed present =>
    rw [lookup_erase] at now
    split at now
    · cases now
    · rw [was] at now
      cases now
      rfl

theorem follows_past {R : Item S k → Item S k → Prop} (wf : Wf s) (related : ∀ e ∈ s.past, ∀ e' ∈ s.past, R e e') : Follows R s :=
  fun e member e' present _ => related e member e' (wf.past present)

theorem Follows.step {R : Item S k → Item S k → Prop} (refl : ∀ e, R e e) (trans : ∀ {e f g}, R e f → R f g → R e g) (wf : Wf s)
    (follows : Follows R s) (step : Step s s')
    (changes : ∀ n old new, s.live.lookup n = some old → s'.live.lookup n = some new → R old new) : Follows R s' := by
  intro e member e' present same
  rcases step_seen step member with before | live
  · cases was : s.live.lookup e.key with
    | none =>
      obtain ⟨metadata,spec,rfl⟩ := step.appears wf was present
      have fresh := Option.some.inj ((AList.lookup_insert _).symm.trans present)
      have lower := wf.uid_lt before
      rw [← same,← fresh] at lower
      exact absurd lower (Nat.lt_irrefl _)
    | some old =>
      have kept := step_uid wf step was present
      exact trans (follows e before old was (kept.symm.trans same)) (changes e.key old e' was present)
  · rw [live] at present
    cases present
    exact refl e

end

/-! ### What a request makes of an object -/

/-- How an object comes to be another version of itself by a request. -/
inductive Alters (k : S.Kind) (n : S.Name k) (r : Request S) (old new : Item S k) : Prop where
  | same (same : new = old)
  | patched {metadata : S.Meta k} {spec : S.Spec k} (request : r = .patch k n old.version metadata spec) (put : new.metadata = metadata)
      (specified : new.spec = spec)
  | merged {p : S.Patch k} (request : r = .merge k n p) (put : new.metadata = S.merge k p old.metadata) (specified : new.spec = old.spec)
  | deleted {uid : Nat} {version : Option Nat} (request : r = .delete k n uid version) (put : new.metadata = old.metadata)
      (specified : new.spec = old.spec)

theorem served_alters {n : S.Name k} {c c' : Cluster S} {r : Request S} {v : r.Value} {old new : Item S k} (wf : ∀ k, Wf (c k))
    (served : Served c r c' v) (was : c.at_ k n = some old) (now : c'.at_ k n = some new) : Alters k n r old new := by
  by_cases touches : Touches k n r
  · cases touches with
    | create metadata spec =>
      cases served with
      | created _ _ absent =>
        rw [was] at absent
        cases absent
    | patch version metadata spec =>
      cases served with
      | patched _ _ present =>
        rw [was] at present
        cases present
        simp only [Cluster.at_,with_same] at now
        rw [← (wf k).key was] at now
        have made := put_self (e := Store.changed old metadata spec) now
        rw [made]
        exact .patched rfl rfl rfl
    | merge p =>
      cases served with
      | merged _ present admitted =>
        rw [was] at present
        cases present
        simp only [Cluster.at_,with_same] at now
        rw [← (wf k).key was] at now
        have made := put_self (e := { old with metadata := S.merge k p old.metadata }) now
        rw [made]
        exact .merged rfl rfl rfl
    | delete uid version =>
      cases served with
      | deleted _ present current =>
        rw [was] at present
        cases present
        simp only [Cluster.at_,with_same] at now
        unfold remove at now
        split at now
        · split at now
          · have unchanged : (c k).live.lookup n = some new := now
            rw [show (c k).live.lookup n = some old from was] at unchanged
            cases unchanged
            exact .same rfl
          · rw [← (wf k).key was] at now
            have made := Option.some.inj ((AList.lookup_insert _).symm.trans now)
            rw [← made]
            exact .deleted rfl rfl rfl
        · rw [← (wf k).key was] at now
          simp at now
  · rw [served_other wf served touches,was] at now
    exact .same (Option.some.inj now).symm

/-- How a version comes to be there by a request. -/
inductive Appears (c : Cluster S) (k : S.Kind) (r : Request S) (e : Item S k) : Prop where
  | before (was : e ∈ (c k).past)
  | created (request : r = .create k e.key e.metadata e.spec)
  | altered {old : Item S k} (was : c.at_ k e.key = some old) (uid : e.uid = old.uid) (alters : Alters k e.key r old e)

theorem served_appears {c c' : Cluster S} {r : Request S} {v : r.Value} {e : Item S k} (wf : ∀ k, Wf (c k)) (served : Served c r c' v)
    (member : e ∈ (c' k).past) : Appears c k r e := by
  rcases step_seen (served.steps wf k) member with was | now
  · exact .before was
  · cases was : c.at_ k e.key with
    | some old => exact .altered was (step_uid (wf k) (served.steps wf k) was now) (served_alters wf served was now)
    | none =>
      by_cases touches : Touches k e.key r
      · generalize name : e.key = n at touches was now
        cases touches with
        | create metadata spec =>
          cases served with
          | created _ _ _ =>
            simp only [with_same] at now
            have made := Option.some.inj ((AList.lookup_insert _).symm.trans now)
            rw [← made]
            exact .created rfl
        | patch version metadata spec =>
          cases served with
          | patched _ _ present =>
            rw [was] at present
            cases present
        | merge p =>
          cases served with
          | merged _ present admitted =>
            rw [was] at present
            cases present
        | delete uid version =>
          cases served with
          | deleted _ present current =>
            rw [was] at present
            cases present
      · have same := served_other wf served touches
        rw [was] at same
        rw [show (c' k).live.lookup e.key = none from same] at now
        cases now

section
variable {K C E : Type} [DecidableEq K] {program : K × C → Pass S E Unit} {rely : Cluster S → Cluster S → Prop}
  {licence : K → C → Past S → Request S → Prop}

omit [DecidableEq K] in
/-- Versions follow each other, if every change keeps to the relation. -/
theorem follows_rules {R : Item S k → Item S k → Prop} (refl : ∀ e, R e e) (trans : ∀ {e f g}, R e f → R f g → R e g)
    (licensed : ∀ key config, Licensed (licence key config) (fun _ _ => True) [] (program (key,config)))
    (own : ∀ {key config past c r n old new}, (∀ k, Wf (c k)) → Real past c → licence key config past r → c.at_ k n = some old →
      Alters k n r old new → R old new)
    (kept : ∀ {c c' n old new}, rely c c' → c.at_ k n = some old → c'.at_ k n = some new → R old new) :
    Rules program rely licence (fun c _ => Follows R (c k)) (fun _ _ _ _ _ => True) where
  licensed := licensed
  start _ _ _ _ _ := trivial
  own := by
    intro key config past c deeds r c' x took wf real follows _ may outcome
    refine ⟨?_,trivial⟩
    have changes : ∀ v, Served c r c' v → Follows R (c' k) := fun v served =>
      follows.step refl trans (wf k) (served.steps wf k)
        (fun n old new was now => own wf real may was (served_alters wf served was now))
    cases outcome with
    | failed _ => exact follows
    | answered served => exact changes _ served
    | lost served => exact changes _ served
  elsewhere _ _ _ _ _ _ _ _ _ := trivial
  others := by
    intro c c' deeds wf follows steps keeps
    exact ⟨follows.step refl trans (wf k) (steps k) (fun n old new was now => kept keeps was now),fun _ _ _ _ _ => trivial⟩

end
end Expbuild.Successions
