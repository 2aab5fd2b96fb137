import Expbuild.Clusters

/-!
Controllers over a cluster. A pass works on one key with the configuration that it was
started with; there is at most one pass for a key at a time, while passes for other keys
and everybody else go on between any two of its requests. A pass may be stopped anywhere.

The requests that take effect are recorded (`Deed`), each with what its pass had seen by
then and the cluster it met. `deeds_sound` says what is known of every deed of a run.
-/
namespace Expbuild.Controllers
open Expbuild.Tables Expbuild.Objects Expbuild.Programs Expbuild.Runs Expbuild.Clusters

variable {S : Scheme} {K C E : Type} [DecidableEq K]

abbrev Past (S : Scheme) := History (Request.Answer (S := S))
/-- A program of a controller, with errors in `E`. -/
abbrev Pass (S : Scheme) (E α : Type) := Prog (Request S) Request.Answer E α

/-- A request of a pass that took effect. -/
structure Deed (S : Scheme) (K C : Type) where
  key : K
  config : C
  past : Past S
  request : Request S
  before : Cluster S

/-- The record after a request. -/
def recorded (took : Bool) (d : Deed S K C) (deeds : List (Deed S K C)) : List (Deed S K C) := if took then d :: deeds else deeds

structure System (program : K × C → Pass S E Unit) where
  cluster : Cluster S
  passes : Table K (Thread program) := ∅
  /-- The clusters there were before, for the record. -/
  earlier : List (Cluster S) := []
  deeds : List (Deed S K C) := []

inductive Label (S : Scheme) (K C : Type) where
  | start (key : K) (config : C)
  | run (key : K) (fault : Fault)
  /-- A pass is over, or its process ends. -/
  | stop (key : K)
  /-- Anybody changes anything else. -/
  | others (after : Cluster S)

section
variable (program : K × C → Pass S E Unit)

/-- Answers a request of a pass, and records it if it took effect. -/
def answer (t : Thread program) (fault : Fault) (r : Request S) (state : Cluster S × List (Deed S K C)) :
    (Cluster S × List (Deed S K C)) × r.Answer :=
  let (after,x) := perform fault r state.1
  ((after,recorded (effective fault r state.1) ⟨t.tag.1,t.tag.2,t.history,r,state.1⟩ state.2),x)

def step : Label S K C → System program → Option (System program)
  | .start key config,s =>
    match s.passes.lookup key with
    | some _ => none
    | none => some { s with passes := s.passes.insert key (Thread.spawn (key,config)) }
  | .run key fault,s => do
    let t ← s.passes.lookup key
    let ((cluster,deeds),t') ← t.advance (fun r state => some (answer program t fault r state)) (s.cluster,s.deeds)
    return ⟨cluster,s.passes.insert key t',s.cluster :: s.earlier,deeds⟩
  | .stop key,s => some { s with passes := s.passes.erase key }
  | .others after,s => some { s with cluster := after, earlier := s.cluster :: s.earlier }

/-- Everybody else keeps to the rules of the stores, and to a rule of the setting. -/
def Orderly (rely : Cluster S → Cluster S → Prop) (s : System program) : Label S K C → Prop
  | .others after => (∀ k, Step (s.cluster k) (after k)) ∧ rely s.cluster after
  | _ => True

/-- A system where nothing runs yet. -/
structure Start (s : System program) : Prop where
  stores : ∀ k, Wf (s.cluster k)
  passes : s.passes = ∅
  earlier : s.earlier = []
  deeds : s.deeds = []

/-- What is known when a request took effect: the pass had come to it, and what the pass
    had read before were objects that there were. -/
structure Sound (d : Deed S K C) : Prop where
  ran : ∃ next, Ran (program (d.key,d.config)) d.past (.request d.request next)
  stores : ∀ k, Wf (d.before k)
  served : ∃ after v, Served d.before d.request after v
  answered : ∀ r v, (⟨r,.ok v⟩ : Event Request.Answer) ∈ d.past →
    ∃ c after, Served c r after v ∧ ∀ k, Wf (c k) ∧ ∀ e ∈ (c k).past, e ∈ (d.before k).past

structure Known (s : System program) : Prop where
  stores : ∀ k, Wf (s.cluster k)
  earlier : ∀ c ∈ s.earlier, ∀ k, Wf (c k) ∧ ∀ e ∈ (c k).past, e ∈ (s.cluster k).past
  tags : ∀ key t, s.passes.lookup key = some t → t.tag.1 = key
  answered : ∀ key t, s.passes.lookup key = some t → ∀ r v, (⟨r,.ok v⟩ : Event Request.Answer) ∈ t.history →
    ∃ c ∈ s.earlier, ∃ after, Served c r after v
  deeds : ∀ d ∈ s.deeds, Sound program d

end

section
variable {program : K × C → Pass S E Unit} {s s' : System program} {l : Label S K C} {key : K} {fault : Fault}

/-- A pass makes a request. -/
structure Moves (s s' : System program) (key : K) (fault : Fault) (t t' : Thread program) (r : Request S) (x : r.Answer) : Prop where
  found : s.passes.lookup key = some t
  ran : ∃ next, t.rest = .request r next ∧ t'.rest = next x
  performed : perform fault r s.cluster = (s'.cluster,x)
  tag : t'.tag = t.tag
  history : t'.history = ⟨r,x⟩ :: t.history
  passes : s'.passes = s.passes.insert key t'
  earlier : s'.earlier = s.cluster :: s.earlier
  deeds : s'.deeds = recorded (effective fault r s.cluster) ⟨t.tag.1,t.tag.2,t.history,r,s.cluster⟩ s.deeds

theorem run_cases (moved : step program (.run key fault) s = some s') : ∃ t t' r x, Moves s s' key fault t t' r x := by
  simp only [step,Option.bind_eq_bind,Option.bind_eq_some_iff,Option.pure_def,Option.some.injEq] at moved
  obtain ⟨t,found,⟨⟨cluster,deeds⟩,t'⟩,advanced,rfl⟩ := moved
  obtain ⟨r,next,x,left,answered,tag,history,rest⟩ := Thread.advance_some advanced
  have both := Option.some.inj answered
  simp only [answer,Prod.mk.injEq] at both
  obtain ⟨⟨rfl,rfl⟩,rfl⟩ := both
  exact ⟨t,t',r,_,found,⟨next,left,rest⟩,rfl,tag,history,rfl,rfl,rfl⟩

/-- Every step changes a store by at most one step. -/
theorem step_steps {rely : Cluster S → Cluster S → Prop} (wf : ∀ k, Wf (s.cluster k)) (may : Orderly program rely s l)
    (moved : step program l s = some s') (k : S.Kind) : Step (s.cluster k) (s'.cluster k) := by
  cases l with
  | start key config =>
    simp only [step] at moved
    split at moved
    · cases moved
    · cases moved
      exact .idle
  | run key fault =>
    obtain ⟨t,t',r,x,moves⟩ := run_cases moved
    exact (perform_outcome moves.performed).steps wf k
  | stop key =>
    cases moved
    exact .idle
  | others after =>
    cases moved
    exact may.1 k

/-- The pass of a step comes to be a deed. -/
theorem Moves.sound {t t' : Thread program} {r : Request S} {x : r.Answer} (known : Known program s)
    (moves : Moves s s' key fault t t' r x) (took : effective fault r s.cluster = true) :
    Sound program ⟨t.tag.1,t.tag.2,t.history,r,s.cluster⟩ := by
  obtain ⟨next,left,_⟩ := moves.ran
  obtain ⟨v,served⟩ := (perform_outcome moves.performed).served took
  refine ⟨⟨next,?_⟩,known.stores,⟨_,v,served⟩,fun r' v' happened => ?_⟩
  · have ran := t.ran
    rw [left] at ran
    exact ran
  · obtain ⟨c,before,after,served'⟩ := known.answered key t moves.found r' v' happened
    exact ⟨c,after,served',known.earlier c before⟩

theorem Known.step {rely : Cluster S → Cluster S → Prop} (known : Known program s) (may : Orderly program rely s l)
    (moved : step program l s = some s') : Known program s' := by
  have steps := step_steps known.stores may moved
  have stores : ∀ k, Wf (s'.cluster k) := fun k => (known.stores k).step (steps k)
  have grown : ∀ c ∈ s.cluster :: s.earlier, ∀ k, Wf (c k) ∧ ∀ e ∈ (c k).past, e ∈ (s'.cluster k).past := by
    intro c member k
    rcases List.mem_cons.mp member with rfl | member
    · exact ⟨known.stores k,fun e seen => (steps k).past_subset seen⟩
    · obtain ⟨wf,inside⟩ := known.earlier c member k
      exact ⟨wf,fun e seen => (steps k).past_subset (inside e seen)⟩
  cases l with
  | start key config =>
    simp only [Controllers.step] at moved
    split at moved
    · cases moved
    · cases moved
      refine ⟨known.stores,known.earlier,fun key' t found => ?_,fun key' t found => ?_,known.deeds⟩
      · rcases lookup_insert_some found with ⟨rfl,rfl⟩ | ⟨_,before⟩
        · rfl
        · exact known.tags key' t before
      · rcases lookup_insert_some found with ⟨rfl,rfl⟩ | ⟨_,before⟩
        · intro r v wrong
          cases wrong
        · exact known.answered key' t before
  | run key fault =>
    obtain ⟨t,t',r,x,moves⟩ := run_cases moved
    have answered : ∀ r' v, (⟨r',.ok v⟩ : Event Request.Answer) ∈ t'.history →
        ∃ c ∈ s.cluster :: s.earlier, ∃ after, Served c r' after v := by
      intro r' v happened
      rw [moves.history] at happened
      rcases List.mem_cons.mp happened with same | happened
      · cases same
        exact ⟨s.cluster,List.mem_cons_self,_,(perform_outcome moves.performed).value⟩
      · obtain ⟨c,before,after,served⟩ := known.answered key t moves.found r' v happened
        exact ⟨c,List.mem_cons_of_mem _ before,after,served⟩
    refine ⟨stores,?_,fun key' u found => ?_,fun key' u found => ?_,fun d member => ?_⟩
    · rw [moves.earlier]
      exact grown
    · rw [moves.passes] at found
      rcases lookup_insert_some found with ⟨rfl,rfl⟩ | ⟨_,before⟩
      · rw [moves.tag]
        exact known.tags _ t moves.found
      · exact known.tags key' u before
    · rw [moves.passes] at found
      rw [moves.earlier]
      rcases lookup_insert_some found with ⟨rfl,rfl⟩ | ⟨_,before⟩
      · exact answered
      · intro r' v happened
        obtain ⟨c,before',after,served⟩ := known.answered key' u before r' v happened
        exact ⟨c,List.mem_cons_of_mem _ before',after,served⟩
    · rw [moves.deeds,recorded] at member
      split at member
      · rename_i took
        rcases List.mem_cons.mp member with rfl | member
        · exact moves.sound known took
        · exact known.deeds d member
      · exact known.deeds d member
  | stop key =>
    cases moved
    refine ⟨known.stores,known.earlier,fun key' t found => ?_,fun key' t found => ?_,known.deeds⟩
    · rw [lookup_erase] at found
      split at found
      · cases found
      · exact known.tags key' t found
    · rw [lookup_erase] at found
      split at found
      · cases found
      · exact known.answered key' t found
  | others after =>
    cases moved
    refine ⟨stores,grown,known.tags,fun key' t found r v happened => ?_,known.deeds⟩
    obtain ⟨c,before,after',served⟩ := known.answered key' t found r v happened
    exact ⟨c,List.mem_cons_of_mem _ before,after',served⟩

theorem Start.known (start : Start program s) : Known program s := by
  have idle : ∀ key, s.passes.lookup key = none := by
    intro key
    rw [start.passes]
    rfl
  refine ⟨start.stores,fun c wrong => ?_,fun key t found => ?_,fun key t found => ?_,fun d wrong => ?_⟩
  · rw [start.earlier] at wrong
    cases wrong
  · rw [idle key] at found
    cases found
  · rw [idle key] at found
    cases found
  · rw [start.deeds] at wrong
    cases wrong

variable {a : System program} {rely : Cluster S → Cluster S → Prop}

theorem known_reached (start : Start program a) (reached : Reaches (step program) (Orderly program rely) a s) : Known program s :=
  reached.invariant start.known (fun known may moved => known.step may moved)

/-- What is known of every request that took effect in a run. -/
theorem deeds_sound (start : Start program a) (reached : Reaches (step program) (Orderly program rely) a s) :
    ∀ d ∈ s.deeds, Sound program d := (known_reached start reached).deeds

/-- What a past has read were objects that there are or were. -/
structure Real (past : Past S) (c : Cluster S) : Prop where
  got : ∀ k n e, (⟨.get k n,.ok e⟩ : Event Request.Answer) ∈ past → e ∈ (c k).past ∧ e.key = n
  listed : ∀ k select es, (⟨.list k select,.ok es⟩ : Event Request.Answer) ∈ past →
    ∀ e ∈ es, e ∈ (c k).past ∧ S.selects k select e.key e.metadata = true

omit [DecidableEq K] in
theorem real_of_answered {past : Past S} {now : Cluster S} (answered : ∀ r v, (⟨r,.ok v⟩ : Event Request.Answer) ∈ past →
    ∃ c after, Served c r after v ∧ ∀ k, Wf (c k) ∧ ∀ e ∈ (c k).past, e ∈ (now k).past) : Real past now := by
  constructor
  · intro k n e happened
    obtain ⟨c,after,served,inside⟩ := answered _ _ happened
    cases served with
    | got present => exact ⟨(inside k).2 e ((inside k).1.past present),(inside k).1.key present⟩
  · intro k select es happened e member
    obtain ⟨c,after,served,inside⟩ := answered _ _ happened
    cases served with
    | listed _ _ =>
      obtain ⟨⟨n,present⟩,selected⟩ := mem_list member
      exact ⟨(inside k).2 e ((inside k).1.past present),selected⟩

/-- An object with the version that was read is the one that was read. -/
theorem Real.current {past : Past S} {c : Cluster S} {k : S.Kind} {n m : S.Name k} {e e' : Item S k} (real : Real past c)
    (wf : ∀ k, Wf (c k)) (read : (⟨.get k n,.ok e⟩ : Event Request.Answer) ∈ past) (present : c.at_ k m = some e')
    (version : e'.version = e.version) : e' = e :=
  (wf k).live_of_version (real.got k n e read).1 present version

theorem Known.real {t : Thread program} (known : Known program s) (found : s.passes.lookup key = some t) :
    Real t.history s.cluster := by
  refine real_of_answered (fun r v happened => ?_)
  obtain ⟨c,before,after,served⟩ := known.answered key t found r v happened
  exact ⟨c,after,served,known.earlier c before⟩

/-! ### What a deed shows -/

variable {d : Deed S K C} {k : S.Kind}

omit [DecidableEq K] in
/-- A rule for the passes holds of every deed. -/
theorem Sound.licensed {licence : Past S → Request S → Prop} {post : Past S → Except E Unit → Prop}
    (sound : Sound program d) (keeps : Licensed licence post [] (program (d.key,d.config))) : licence d.past d.request := by
  obtain ⟨next,ran⟩ := sound.ran
  exact ran.licensed keeps

omit [DecidableEq K] in
/-- What the pass read was there. -/
theorem Sound.real (sound : Sound program d) : Real d.past d.before := real_of_answered sound.answered

end
end Expbuild.Controllers
