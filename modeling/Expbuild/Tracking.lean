import Expbuild.Bindings

/-!
Access to an instance, from outside and for metrics, is tracked for the cleanup. Nobody
else takes a finalizer of the operator away; then a route, policy or monitor that the
operator made is there only as long as the instance that it was made for, with the
finalizer that stands for it (`access_tracked`). The finalizers go after a pass has seen
that the objects are gone.
-/
namespace Expbuild.Tracking
open Expbuild.Contract Expbuild.Objects Expbuild.Programs Expbuild.Runs Expbuild.Clusters Expbuild.Controllers Expbuild.Guarantees
  Expbuild.Successions
  Expbuild.Kinds Expbuild.Adapters Expbuild.Reconciler Expbuild.Permits Expbuild.Permissions Expbuild.Operating Expbuild.Bindings
open Expbuild.Calls (Key)

/-- The ways to an instance that have a finalizer each. -/
inductive Access where
  | gateway | monitoring
  deriving DecidableEq

namespace Access

def children : Access → List ChildName
  | .gateway => gatewayChildren
  | .monitoring => monitoringChildren

def tracked : Access → Finalizers → Bool
  | .gateway,f => f.gateway
  | .monitoring,f => f.monitoring

/-- Whether a pass with these settings makes the objects. -/
def Asked (settings : Settings) : Access → Instance → Prop
  | .gateway,c => exposed c = true ∧ running c = true
  | .monitoring,c => ∃ m, monitored settings c = some m

end Access

theorem children_apart {x y : Access} {name : ChildName} (one : name ∈ x.children) (other : name ∈ y.children) : x = y := by
  revert one other
  cases x <;> cases y <;> cases name <;> decide

theorem gateway_children {name : ChildName} (of : Exposures.ofGateway name = true) : name ∈ Access.gateway.children := by
  revert of
  cases name <;> decide

theorem monitoring_children {name : ChildName} (of : Exposures.ofMonitoring name = true) : name ∈ Access.monitoring.children := by
  revert of
  cases name <;> decide

theorem services_untracked (x : Access) : ChildName.headless ∉ x.children ∧ ChildName.service ∉ x.children := by
  cases x <;> decide

/-- The operator has created the object, for the instance with this UID. -/
def Made (deeds : List OperatorDeed) (e : Child) (uid : KubeUid) : Prop := ∃ d ∈ deeds, ∃ (m : ChildMeta) (spec : ChildSpec),
  d.request = Request.create Kind.child e.key m spec ∧ e.uid = (d.before Kind.child).nextUid ∧ m.labels.instanceUid = some uid

/-- Nothing under the name was created by the operator. -/
def Unmade (c : Cluster scheme) (deeds : List OperatorDeed) (n : Key × ChildName) : Prop :=
  ∀ (e : Child) uid, c.at_ Kind.child n = some e → ¬Made deeds e uid

/-- What the operator has created is tracked. -/
structure Accounted (c : Cluster scheme) (deeds : List OperatorDeed) : Prop where
  tracked : ∀ (x : Access) (n : Key) (e : Child) (uid : KubeUid), ∀ name ∈ x.children, c.at_ Kind.child (n,name) = some e →
    Made deeds e uid → ∃ i : Instance, c.at_ Kind.cacheInstance n = some i ∧ i.uid = uid ∧ x.tracked i.metadata.finalizers = true
  fresh : ∀ d ∈ deeds, ∀ (n : Key × ChildName) (m : ChildMeta) (spec : ChildSpec), d.request = Request.create Kind.child n m spec →
    (d.before Kind.child).nextUid < (c Kind.child).nextUid

/-- The pass has read the instance first. -/
def First (past : Past) (key : Key) (i : Instance) : Prop := [(⟨Request.get Kind.cacheInstance key,.ok i⟩ : Happened)] <:+ past

/-- What a pass may rely on. -/
structure Aware (settings : Settings) (key : Key) (past : Past) (c : Cluster scheme) (deeds : List OperatorDeed) : Prop where
  kept : ∀ (x : Access) (i : Instance), First past key i → i.deleting = false → x.Asked settings i →
    x.tracked i.metadata.finalizers = true →
      ∃ e : Instance, c.at_ Kind.cacheInstance key = some e ∧ e.uid = i.uid ∧ x.tracked e.metadata.finalizers = true
  free : ∀ (x : Access) (i : Instance), First past key i → x.tracked i.metadata.finalizers = false →
    ∀ name ∈ x.children, Unmade c deeds (key,name)
  gone : Unexposed past → ∀ name, Absent past .child (key,name) → Unmade c deeds (key,name)
  quiet : ∀ i, First past key i → i.deleting = true → Unexposed past

/-- Others take no finalizer for access away. -/
def Spares (c c' : Cluster scheme) : Prop := ∀ (x : Access) (n : Key) (e : Instance), c.at_ Kind.cacheInstance n = some e →
  x.tracked e.metadata.finalizers = true → ∃ e' : Instance, c'.at_ Kind.cacheInstance n = some e' ∧ x.tracked e'.metadata.finalizers = true

/-- The request leaves the instance without a finalizer that it had. -/
def Takes (d : OperatorDeed) (n : Key) (held : Finalizers → Bool) : Prop := ∃ e : Instance,
  d.before.at_ Kind.cacheInstance n = some e ∧ held e.metadata.finalizers = true ∧
    ∀ after v, Served d.before d.request after v → ∀ e' : Instance, after.at_ Kind.cacheInstance n = some e' →
      held e'.metadata.finalizers = false

/-- A pass lets a deleted instance go, with all the finalizers of the operator. -/
structure LetsGo (d : OperatorDeed) (n : Key) (i : Instance) : Prop where
  works : Works d.past d.key i
  own : n = d.key
  met : d.before.at_ Kind.cacheInstance n = some i
  deleting : i.deleting = true
  /-- What the instance is held for was seen to be gone. -/
  gone : ∀ x : Access, x.tracked i.metadata.finalizers = true → ∀ name ∈ x.children, Absent d.past .child (n,name)
  pods : Listed d.past .pod (n.1,some i.uid) []

/-! ### Objects that are made -/

section
variable {t : Toolkit} {codec : Codec} {settings : Settings} {key : Key} {past : Past} {c c' : Cluster scheme} {deeds : List OperatorDeed}
  {i : Instance} {x : Access} {name : ChildName} {e : Child} {uid : KubeUid}

/-- What the operator had made is there from before. -/
theorem made_before {n : Key × ChildName} (wf : ∀ k, Wf (c k)) (steps : ∀ k, Step (c k) (c' k)) (accounted : Accounted c deeds)
    (present : c'.at_ Kind.child n = some e) (made : Made deeds e uid) : ∃ old : Child, c.at_ Kind.child n = some old ∧ Made deeds old uid := by
  obtain ⟨d,member,m,spec,request,born,label⟩ := made
  cases was : c.at_ Kind.child n with
  | none =>
    obtain ⟨m',spec',same⟩ := (steps Kind.child).appears (wf Kind.child) was present
    have there : (c' Kind.child).live.lookup n = some e := present
    rw [same] at there
    have new := Option.some.inj ((AList.lookup_insert _).symm.trans there)
    have before := accounted.fresh d member _ m spec request
    rw [← born,← new] at before
    exact absurd before (Nat.lt_irrefl _)
  | some old =>
    have wf' := (wf Kind.child).step (steps Kind.child)
    have uid := step_uid (wf Kind.child) (steps Kind.child) was present
    have key : old.key = e.key := ((wf Kind.child).key was).trans (wf'.key present).symm
    exact ⟨old,rfl,d,member,m,spec,key ▸ request,uid ▸ born,label⟩

/-- A child that is wanted for access is asked for, under its finalizer. -/
theorem wanted_access {n : Key × ChildName} {m : ChildMeta} {spec : ChildSpec} (wanted : Wanted t settings past i (.child n m spec)) :
    n.1 = i.key ∧ i.deleting = false ∧ m.labels.instanceUid = some i.uid ∧
      ∀ x : Access, n.2 ∈ x.children → x.Asked settings i ∧ x.tracked i.metadata.finalizers = true := by
  have named : n.1 = i.key ∧ m.labels.instanceUid = some i.uid := by
    cases wanted_named wanted with
    | child name s marked => exact ⟨rfl,marked⟩
  have child : ∀ {among : ChildName → Bool} {objects : List Desired}, Exposures.Belong i among objects →
      Desired.child n m spec ∈ objects.map (control i) → among n.2 = true := by
    intro among objects belong member
    obtain ⟨d,inside,same⟩ := List.mem_map.mp member
    obtain ⟨name,s,rfl,of⟩ := belong d inside
    cases same
    exact of
  cases wanted with
  | @cache a secret objects provided member =>
    refine ⟨named.1,provided.alive,named.2,fun x inside => ?_⟩
    obtain ⟨d,rendered,same⟩ := List.mem_map.mp member
    cases (provided_whole provided).all d rendered with
    | volume => cases same
    | config name spec => cases same
    | workload runs marked => cases same
    | child spec own =>
      cases same
      rcases own with rfl | rfl
      · exact absurd inside (services_untracked x).1
      · exact absurd inside (services_untracked x).2
  | gateway set alive asked held rendered member bound =>
    have of := child (Exposures.gateway_belong rendered) member
    refine ⟨named.1,alive,named.2,fun x inside => ?_⟩
    obtain rfl := children_apart inside (gateway_children of)
    exact ⟨asked,held.2⟩
  | monitoring alive asked held rendered member bound =>
    have of := child (Exposures.monitoring_belong rendered) member
    refine ⟨named.1,alive,named.2,fun x inside => ?_⟩
    obtain rfl := children_apart inside (monitoring_children of)
    exact ⟨⟨_,asked⟩,held.2⟩

/-! ### Finalizers that are kept -/

/-- Why a pass may give a finalizer up: the instance did not have it when it was read, or
    the objects are gone, and nobody asks for them or the instance is let go. -/
inductive Lets (settings : Settings) (past : Past) (i : Instance) (x : Access) : Prop where
  | untracked (free : x.tracked i.metadata.finalizers = false)
  | ended (unexposed : Unexposed past) (ended : ¬x.Asked settings i) (gone : ∀ name ∈ x.children, Absent past .child (i.key,name))
  | released (deleting : i.deleting = true) (gone : ∀ name ∈ x.children, Absent past .child (i.key,name))

theorem released_lets (released : Released past i) : Lets settings past i x := by
  cases tracked : x.tracked i.metadata.finalizers with
  | false => exact .untracked tracked
  | true =>
    cases x with
    | gateway => exact .released released.deleting (released.gateway tracked)
    | monitoring => exact .released released.deleting (released.monitoring tracked)

theorem marks_keeps {p : Finalizers} (marks : Marks settings past i p) (unexposed : Unexposed past) :
    x.tracked p = true ∨ Lets settings past i x := by
  cases tracked : x.tracked i.metadata.finalizers with
  | false => exact .inr (.untracked tracked)
  | true =>
    cases marks with
    | first new => cases x <;> exact .inl tracked
    | monitor held =>
      cases x with
      | gateway => exact .inl tracked
      | monitoring => exact .inl rfl
    | expose held =>
      cases x with
      | gateway => exact .inl rfl
      | monitoring => exact .inl tracked
    | unmonitor held ended gone =>
      cases x with
      | gateway => exact .inl tracked
      | monitoring => exact .inr (.ended unexposed (fun ⟨m,asked⟩ => by rw [ended] at asked; cases asked) gone)
    | withdraw held ended gone =>
      cases x with
      | monitoring => exact .inl tracked
      | gateway =>
        refine .inr (.ended unexposed (fun ⟨exposed',running'⟩ => ?_) gone)
        rcases ended with hidden | stopped
        · rw [exposed'] at hidden
          cases hidden
        · rw [suspended,of_decide_eq_true running'] at stopped
          cases stopped

theorem tracked_none (x : Access) : x.tracked {} = false := by
  cases x <;> rfl

theorem held_of_finalizer {m : InstanceMeta} {held : Finalizers → Bool} (none_ : held {} = false) (has : held m.finalizers = true) :
    scheme.held Kind.cacheInstance m = true := by
  refine decide_eq_true (fun same => ?_)
  rw [same,none_] at has
  cases has

/-- A pass writes the instance that it works on only. -/
theorem touches_own {r : Request scheme} {n : Key} (real : Controllers.Real past c) (may : permit t codec key settings past r)
    (touches : Touches (S := scheme) Kind.cacheInstance n r) : n = key := by
  have named : ∀ {i : Instance}, Works past key i → i.key = key := fun works => (real.got Kind.cacheInstance key _ (works_read works)).2
  cases touches with
  | create m spec =>
    obtain ⟨i,works,creates⟩ := may
    cases creates
  | patch version m spec =>
    obtain ⟨i,works,write⟩ := may
    cases write with
    | bound alive unbound origin vetted rendered => exact named works
    | reported alive read same ready stopped => exact named works
    | released released => exact named works
  | merge p =>
    obtain ⟨i,works,_,same,_⟩ := may
    exact same.trans (named works)
  | delete uid version =>
    obtain ⟨i,works,deletes⟩ := may
    cases deletes

/-- An instance keeps its finalizers, unless a pass gives them up without a lock or lets the
    instance go. -/
theorem served_finalizers {r : Request scheme} {v : r.Value} {n : Key} {e : Instance} {held : Finalizers → Bool} {gives : Instance → Prop}
    (wf : ∀ k, Wf (c k)) (real : Controllers.Real past c) (may : permit t codec key settings past r) (served : Served c r c' v)
    (none_ : held {} = false) (marks : ∀ {i p}, Marks settings past i p → Unexposed past → held p = true ∨ gives i)
    (released : ∀ {i}, Released past i → c.at_ Kind.cacheInstance n = some i → gives i)
    (present : c.at_ Kind.cacheInstance n = some e) (has : held e.metadata.finalizers = true) :
    (∃ e' : Instance, c'.at_ Kind.cacheInstance n = some e' ∧ held e'.metadata.finalizers = true) ∨
      ∃ i, Works past key i ∧ n = key ∧ gives i := by
  by_cases touches : Touches (S := scheme) Kind.cacheInstance n r
  · have own := touches_own real may touches
    cases touches with
    | create m spec =>
      obtain ⟨i,works,creates⟩ := may
      cases creates
    | delete uid version =>
      obtain ⟨i,works,deletes⟩ := may
      cases deletes
    | merge p =>
      obtain ⟨i,works,alive,_,marked,unexposed⟩ := may
      rcases marks marked unexposed with kept | given
      · obtain ⟨e',m,there,made⟩ := merged_held wf served (fun _ => held_of_finalizer none_ kept)
        refine .inl ⟨e',there,?_⟩
        rw [made]
        exact kept
      · exact .inr ⟨i,works,own,given⟩
    | patch version m spec =>
      have write : held (InstanceMeta.finalizers m) = true ∨ ∃ i, Works past key i ∧ gives i := by
        obtain ⟨i,works,write⟩ := may
        have meets : ∀ {e' : Instance}, e'.version = version → Read past .cacheInstance n e' → c.at_ Kind.cacheInstance n = some e' := by
          rintro e' rfl read
          exact served_meets (d := ⟨key,settings,past,_,c⟩) wf real ⟨c',v,served⟩ rfl read
        cases write with
        | bound alive unbound origin vetted rendered =>
          have met := meets rfl (own.symm ▸ works_read works)
          rw [present] at met
          cases met
          exact .inl has
        | reported alive read same ready stopped =>
          have met := meets rfl read
          rw [present] at met
          cases met
          exact .inl has
        | released gone => exact .inr ⟨i,works,released gone (meets rfl (own.symm ▸ works_read works))⟩
      rcases write with kept | ⟨i,works,given⟩
      · obtain ⟨e',there,made⟩ := patched_held wf served (held_of_finalizer none_ kept)
        refine .inl ⟨e',there,?_⟩
        rw [made]
        exact kept
      · exact .inr ⟨i,works,own,given⟩
  · exact .inl ⟨e,(served_other wf served touches).trans present,has⟩

theorem served_tracked {r : Request scheme} {v : r.Value} {n : Key} {e : Instance} (wf : ∀ k, Wf (c k)) (real : Controllers.Real past c)
    (may : permit t codec key settings past r) (served : Served c r c' v) (present : c.at_ Kind.cacheInstance n = some e)
    (tracked : x.tracked e.metadata.finalizers = true) :
    (∃ e' : Instance, c'.at_ Kind.cacheInstance n = some e' ∧ x.tracked e'.metadata.finalizers = true) ∨
      ∃ i, Works past key i ∧ n = key ∧ Lets settings past i x :=
  served_finalizers wf real may served (tracked_none x) marks_keeps (fun released _ => released_lets released) present tracked

/-! ### A pass among others -/

theorem first_unique {i j : Instance} (one : First past key i) (other : First past key j) : i = j := by
  obtain ⟨before,same⟩ := one
  obtain ⟨before',same'⟩ := other
  have last := (List.append_inj' (same.trans same'.symm) rfl).2
  cases last
  rfl

/-- What an instance was read as first, it was read as unless nothing was read yet. -/
theorem first_cons {r : Request scheme} {answer : r.Answer} (first : First (⟨r,answer⟩ :: past) key i) :
    First past key i ∨ past = [] ∧ (⟨r,answer⟩ : Happened) = ⟨Request.get Kind.cacheInstance key,.ok i⟩ := by
  rcases List.suffix_cons_iff.mp first with same | before
  · obtain ⟨event,none_⟩ := List.cons.inj same
    exact .inr ⟨none_.symm,event.symm⟩
  · exact .inl before

/-- A child that is new was created by the pass. -/
theorem made_recorded {r : Request scheme} {took : Bool} {n : Key × ChildName}
    (made : Made (recorded took ⟨key,settings,past,r,c⟩ deeds) e uid) (present : c'.at_ Kind.child n = some e)
    (wf : ∀ k, Wf (c k)) (steps : ∀ k, Step (c k) (c' k)) (accounted : Accounted c deeds) :
    (∃ old : Child, c.at_ Kind.child n = some old ∧ Made deeds old uid) ∨
      ∃ (m : ChildMeta) (spec : ChildSpec), r = Request.create Kind.child n m spec ∧ m.labels.instanceUid = some uid := by
  obtain ⟨d,member,m,spec,request,born,label⟩ := made
  have keyed : e.key = n := ((wf Kind.child).step (steps Kind.child)).key present
  unfold recorded at member
  split at member
  · rcases List.mem_cons.mp member with rfl | member
    · exact .inr ⟨m,spec,keyed ▸ request,label⟩
    · exact .inl (made_before wf steps accounted present ⟨d,member,m,spec,request,born,label⟩)
  · exact .inl (made_before wf steps accounted present ⟨d,member,m,spec,request,born,label⟩)

/-- A pass creates children of its own instance, while that is not being deleted. -/
theorem creates_access {m : ChildMeta} {spec : ChildSpec} {n : Key × ChildName} (real : Controllers.Real past c)
    (may : permit t codec key settings past (Request.create Kind.child n m spec)) : ∃ i, Works past key i ∧ n.1 = key ∧
      i.deleting = false ∧ m.labels.instanceUid = some i.uid ∧
        ∀ x : Access, n.2 ∈ x.children → x.Asked settings i ∧ x.tracked i.metadata.finalizers = true := by
  obtain ⟨i,works,creates⟩ := may
  have named : i.key = key := (real.got Kind.cacheInstance key _ (works_read works)).2
  cases creates with
  | child wanted =>
    obtain ⟨_,alive,label,asked⟩ := wanted_access wanted
    exact ⟨i,works,named,alive,label,asked⟩

/-- A pass that gives a finalizer up has not left anything behind. -/
theorem lets_unmade (aware : Aware settings key past c deeds) (real : Controllers.Real past c) (works : Works past key i)
    (lets : Lets settings past i x) : ∀ name ∈ x.children, Unmade c deeds (key,name) := by
  have named : i.key = key := (real.got Kind.cacheInstance key _ (works_read works)).2
  intro name inside
  cases lets with
  | untracked free => exact aware.free x i works.first free name inside
  | ended unexposed ended gone => exact aware.gone unexposed name (named ▸ gone name inside)
  | released deleting gone => exact aware.gone (aware.quiet i works.first deleting) name (named ▸ gone name inside)

theorem unmade_step {r : Request scheme} {took : Bool} {n : Key × ChildName} (unmade : Unmade c deeds n) (wf : ∀ k, Wf (c k))
    (steps : ∀ k, Step (c k) (c' k)) (accounted : Accounted c deeds)
    (other : ∀ (m : ChildMeta) (spec : ChildSpec), r ≠ Request.create Kind.child n m spec) :
    Unmade c' (recorded took ⟨key,settings,past,r,c⟩ deeds) n := by
  intro e uid present made
  rcases made_recorded made present wf steps accounted with ⟨old,was,made⟩ | ⟨m,spec,request,_⟩
  · exact unmade old uid was made
  · exact other m spec request

/-- The instance that a pass relies on stays tracked. -/
theorem outcome_tracked {r : Request scheme} {answer : r.Answer} {took : Bool} {n : Key} {e : Instance} (wf : ∀ k, Wf (c k))
    (real : Controllers.Real past c) (may : permit t codec key settings past r) (outcome : Outcome c r c' answer took)
    (present : c.at_ Kind.cacheInstance n = some e) (tracked : x.tracked e.metadata.finalizers = true) :
    (∃ e' : Instance, c'.at_ Kind.cacheInstance n = some e' ∧ e'.uid = e.uid ∧ x.tracked e'.metadata.finalizers = true) ∨
      ∃ i, Works past key i ∧ n = key ∧ Lets settings past i x := by
  have by_ : ∀ {v : r.Value}, Served c r c' v → _ := fun served => served_tracked (x := x) wf real may served present tracked
  have same : ∀ {e' : Instance}, c'.at_ Kind.cacheInstance n = some e' → e'.uid = e.uid := fun there =>
    step_uid (wf Kind.cacheInstance) (outcome.steps wf Kind.cacheInstance) present there
  cases outcome with
  | failed _ => exact .inl ⟨e,present,rfl,tracked⟩
  | answered served => exact (by_ served).imp_left (fun ⟨e',there,tracked⟩ => ⟨e',there,same there,tracked⟩)
  | lost served => exact (by_ served).imp_left (fun ⟨e',there,tracked⟩ => ⟨e',there,same there,tracked⟩)

theorem accounted_outcome {r : Request scheme} {answer : r.Answer} {took : Bool} (wf : ∀ k, Wf (c k)) (real : Controllers.Real past c)
    (accounted : Accounted c deeds) (aware : Aware settings key past c deeds) (may : permit t codec key settings past r)
    (outcome : Outcome c r c' answer took) : Accounted c' (recorded took ⟨key,settings,past,r,c⟩ deeds) := by
  have steps := outcome.steps wf
  constructor
  · intro x n e uid name inside present made
    rcases made_recorded made present wf steps accounted with ⟨old,was,before⟩ | ⟨m,spec,rfl,label⟩
    · obtain ⟨i,there,same,tracked⟩ := accounted.tracked x n old uid name inside was before
      rcases outcome_tracked wf real may outcome there tracked with ⟨e',there',uid',tracked'⟩ | ⟨i',works,rfl,lets⟩
      · exact ⟨e',there',uid'.trans same,tracked'⟩
      · exact absurd before (lets_unmade aware real works lets name inside old uid was)
    · obtain ⟨i,works,rfl,alive,label',asked⟩ := creates_access real may
      obtain ⟨asked,tracked⟩ := asked x inside
      obtain ⟨e',there,uid',tracked'⟩ := aware.kept x i works.first alive asked tracked
      have untouched : c'.at_ Kind.cacheInstance n = c.at_ Kind.cacheInstance n :=
        outcome_other wf outcome (fun touches => by cases touches)
      rw [label] at label'
      exact ⟨e',untouched.trans there,uid'.trans (Option.some.inj label').symm,tracked'⟩
  · intro d member n m spec request
    have grows := (steps Kind.child).nextUid_le
    unfold recorded at member
    split at member
    · rename_i effect
      rcases List.mem_cons.mp member with rfl | member
      · obtain ⟨v,served⟩ := outcome.served effect
        change r = _ at request
        subst request
        exact created_nextUid served
      · exact (accounted.fresh d member n m spec request).trans_le grows
    · exact (accounted.fresh d member n m spec request).trans_le grows

theorem aware_outcome {r : Request scheme} {answer : r.Answer} {took : Bool} (wf : ∀ k, Wf (c k)) (real : Controllers.Real past c)
    (accounted : Accounted c deeds) (aware : Aware settings key past c deeds) (may : permit t codec key settings past r)
    (outcome : Outcome c r c' answer took) :
    Aware settings key (⟨r,answer⟩ :: past) c' (recorded took ⟨key,settings,past,r,c⟩ deeds) := by
  have steps := outcome.steps wf
  -- what was read first is what is there
  have got : ∀ {i : Instance}, (⟨r,answer⟩ : Happened) = ⟨Request.get Kind.cacheInstance key,.ok i⟩ →
      c.at_ Kind.cacheInstance key = some i ∧ c' = c := by
    intro i same
    cases same
    cases outcome.value with
    | got present => exact ⟨present,rfl⟩
  constructor
  · intro x i first alive asked tracked
    rcases first_cons first with before | ⟨_,same⟩
    · obtain ⟨e,there,uid,tracked'⟩ := aware.kept x i before alive asked tracked
      rcases outcome_tracked wf real may outcome there tracked' with ⟨e',there',uid',tracked''⟩ | ⟨i',works,_,lets⟩
      · exact ⟨e',there',uid'.trans uid,tracked''⟩
      · cases first_unique works.first before
        cases lets with
        | untracked free => rw [tracked] at free; cases free
        | ended unexposed ended gone => exact absurd asked ended
        | released deleting gone => rw [alive] at deleting; cases deleting
    · obtain ⟨present,rfl⟩ := got same
      exact ⟨i,present,rfl,tracked⟩
  · intro x i first free name inside e uid present made
    rcases made_recorded made present wf steps accounted with ⟨old,was,made⟩ | ⟨m,spec,rfl,_⟩
    · rcases first_cons first with before | ⟨_,same⟩
      · exact aware.free x i before free name inside old uid was made
      · obtain ⟨i',there,_,tracked⟩ := accounted.tracked x key old uid name inside was made
        rw [(got same).1] at there
        cases there
        rw [tracked] at free
        cases free
    · obtain ⟨i',works,_,_,_,asked⟩ := creates_access real may
      rcases first_cons first with before | ⟨_,wrong⟩
      · cases first_unique works.first before
        rw [(asked x inside).2] at free
        cases free
      · cases wrong
  · intro unexposed name absent e uid present made
    have before : Unexposed past := fun n m s y member => unexposed n m s y (List.mem_cons_of_mem _ member)
    rcases made_recorded made present wf steps accounted with ⟨old,was,made⟩ | ⟨m,spec,rfl,_⟩
    · rcases List.mem_cons.mp absent with same | absent
      · cases same
        cases outcome with
        | failed missing =>
          rw [missing _ _ rfl rfl] at was
          cases was
      · exact aware.gone before name absent old uid was made
    · exact unexposed _ _ _ _ List.mem_cons_self
  · intro i first deleting n m s y member
    rcases List.mem_cons.mp member with same | member
    · cases same
      obtain ⟨i',works,_,alive,_⟩ := creates_access real may
      rcases first_cons first with before | ⟨_,wrong⟩
      · cases first_unique works.first before
        rw [alive] at deleting
        cases deleting
      · cases wrong
    · rcases first_cons first with before | ⟨rfl,_⟩
      · exact aware.quiet i before deleting n m s y member
      · cases member

theorem aware_elsewhere {r : Request scheme} {answer : r.Answer} {took : Bool} {key' : Key} {settings' : Settings} {past' : Past}
    (other : key' ≠ key) (wf : ∀ k, Wf (c k)) (real : Controllers.Real past c) (accounted : Accounted c deeds)
    (aware : Aware settings' key' past' c deeds) (may : permit t codec key settings past r) (outcome : Outcome c r c' answer took) :
    Aware settings' key' past' c' (recorded took ⟨key,settings,past,r,c⟩ deeds) := by
  have untouched : c'.at_ Kind.cacheInstance key' = c.at_ Kind.cacheInstance key' :=
    outcome_other wf outcome (fun touches => other (touches_own real may touches))
  have unmade : ∀ {name : ChildName}, Unmade c deeds (key',name) → Unmade c' (recorded took ⟨key,settings,past,r,c⟩ deeds) (key',name) := by
    intro name unmade
    refine unmade_step unmade wf (outcome.steps wf) accounted (fun m spec same => ?_)
    subst same
    obtain ⟨_,_,named,_⟩ := creates_access real may
    exact other named
  refine ⟨fun x i first alive asked tracked => ?_,fun x i first free name inside => unmade (aware.free x i first free name inside),
    fun unexposed name absent => unmade (aware.gone unexposed name absent),aware.quiet⟩
  rw [untouched]
  exact aware.kept x i first alive asked tracked

theorem tracking_rules : Rules (operator t codec) Spares (permit t codec) Accounted
    (fun key settings past c deeds => Aware settings key past c deeds) where
  licensed key settings := reconcile_permitted t codec settings key
  start key settings c deeds _ := by
    have nothing : ∀ {i : Instance}, ¬First [] key i := fun first => by cases List.suffix_nil.mp first
    refine ⟨fun x i first => absurd first nothing,fun x i first => absurd first nothing,fun _ name absent => ?_,
      fun i first => absurd first nothing⟩
    cases absent
  own wf real accounted aware may outcome :=
    ⟨accounted_outcome wf real accounted aware may outcome,aware_outcome wf real accounted aware may outcome⟩
  elsewhere other wf real _ accounted _ aware may outcome := aware_elsewhere other wf real accounted aware may outcome
  others := by
    intro c c' deeds wf accounted steps spares
    have still : ∀ {x : Access} {n : Key} {i : Instance}, c.at_ Kind.cacheInstance n = some i → x.tracked i.metadata.finalizers = true →
        ∃ e : Instance, c'.at_ Kind.cacheInstance n = some e ∧ e.uid = i.uid ∧ x.tracked e.metadata.finalizers = true := by
      intro x n i there tracked
      obtain ⟨e,there',tracked'⟩ := spares x n i there tracked
      exact ⟨e,there',step_uid (wf Kind.cacheInstance) (steps Kind.cacheInstance) there there',tracked'⟩
    have unmade : ∀ {n : Key × ChildName}, Unmade c deeds n → Unmade c' deeds n := by
      intro n unmade e uid present made
      obtain ⟨old,was,made⟩ := made_before wf steps accounted present made
      exact unmade old uid was made
    refine ⟨⟨fun x n e uid name inside present made => ?_,fun d member n m spec request =>
      (accounted.fresh d member n m spec request).trans_le ((steps Kind.child).nextUid_le)⟩,fun key settings past real aware => ?_⟩
    · obtain ⟨old,was,made⟩ := made_before wf steps accounted present made
      obtain ⟨i,there,same,tracked⟩ := accounted.tracked x n old uid name inside was made
      obtain ⟨e',there',uid',tracked'⟩ := still there tracked
      exact ⟨e',there',uid'.trans same,tracked'⟩
    · refine ⟨fun x i first alive asked tracked => ?_,fun x i first free name inside => unmade (aware.free x i first free name inside),
        fun unexposed name absent => unmade (aware.gone unexposed name absent),aware.quiet⟩
      obtain ⟨e,there,uid,tracked'⟩ := aware.kept x i first alive asked tracked
      obtain ⟨e',there',uid',tracked''⟩ := still there tracked'
      exact ⟨e',there',uid'.trans uid,tracked''⟩

/-! ### What is tracked, and until when -/

variable {rely : Cluster scheme → Cluster scheme → Prop} {a s : Operators t codec} {d : OperatorDeed} {n : Key}

theorem takes_access (sound : Sound (operator t codec) d) (takes : Takes d n x.tracked) :
    ∃ i, Works d.past d.key i ∧ n = d.key ∧ Lets d.config d.past i x := by
  obtain ⟨e,present,tracked,taken⟩ := takes
  obtain ⟨after,v,served⟩ := sound.served
  rcases served_tracked sound.stores sound.real (deed_permitted sound) served present tracked with ⟨e',there,still⟩ | lets
  · rw [taken after v served e' there] at still
    cases still
  · exact lets

theorem marks_cleanup {p : Finalizers} (marks : Marks settings past i p) : p.cleanup = true := by
  cases marks with
  | first new => rfl
  | monitor held => exact held
  | expose held => exact held
  | unmonitor held ended gone => exact held
  | withdraw held ended gone => exact held

/-- The finalizer for the cleanup only goes with the instance. -/
theorem takes_cleanup (sound : Sound (operator t codec) d) (takes : Takes d n Finalizers.cleanup) : ∃ i, LetsGo d n i := by
  obtain ⟨e,present,cleanup,taken⟩ := takes
  obtain ⟨after,v,served⟩ := sound.served
  have kept : (∃ e' : Instance, after.at_ Kind.cacheInstance n = some e' ∧ e'.metadata.finalizers.cleanup = true) ∨
      ∃ i, Works d.past d.key i ∧ n = d.key ∧ Released d.past i ∧ d.before.at_ Kind.cacheInstance n = some i :=
    served_finalizers sound.stores sound.real (deed_permitted sound) served rfl (fun marks _ => .inl (marks_cleanup marks))
      (fun released met => ⟨released,met⟩) present cleanup
  rcases kept with ⟨e',there,still⟩ | ⟨i,works,own,released,met⟩
  · rw [taken after v served e' there] at still
    cases still
  · have same : n = i.key := own.trans (works_on sound works).1.symm
    subst same
    refine ⟨i,works,own,met,released.deleting,fun x tracked => ?_,released.pods⟩
    cases x with
    | gateway => exact released.gateway tracked
    | monitoring => exact released.monitoring tracked

/-- Whatever the operator made for access is there under the finalizer of its instance. The
    finalizer goes when none of it is left, and a deleted instance goes after the pass has
    seen that, for all that the instance is held for, and that no Pod is left. -/
theorem access_tracked (runs : Operates t codec Spares a s) :
    (∀ (x : Access) (n : Key) (e : Child) (uid : KubeUid), ∀ name ∈ x.children, s.cluster.at_ Kind.child (n,name) = some e →
      Made s.deeds e uid → ∃ i : Instance, s.cluster.at_ Kind.cacheInstance n = some i ∧ i.uid = uid ∧
        x.tracked i.metadata.finalizers = true) ∧
    ∀ before d after, s.deeds = after ++ d :: before → ∀ n : Key,
      (∀ x : Access, Takes d n x.tracked → ∀ name ∈ x.children, Unmade d.before before (n,name)) ∧
      (Takes d n Finalizers.cleanup → (∃ i, LetsGo d n i) ∧ ∀ (x : Access), ∀ name ∈ x.children, Unmade d.before before (n,name)) := by
  have held := tracking_rules.held runs.1 ?_ runs.2
  · refine ⟨held.common.tracked,fun before d after split n => ?_⟩
    have sound := deed_sound runs (split ▸ List.mem_append_right _ List.mem_cons_self)
    have met := held.deeds before d after split
    have access : ∀ x : Access, Takes d n x.tracked → ∀ name ∈ x.children, Unmade d.before before (n,name) := by
      intro x takes
      obtain ⟨i,works,rfl,lets⟩ := takes_access sound takes
      exact lets_unmade met.knows sound.real works lets
    refine ⟨access,fun takes => ?_⟩
    obtain ⟨i,letsGo⟩ := takes_cleanup sound takes
    refine ⟨⟨i,letsGo⟩,fun x name inside => ?_⟩
    cases tracked : x.tracked i.metadata.finalizers with
    | false =>
      obtain rfl := letsGo.own
      exact met.knows.free x i letsGo.works.first tracked name inside
    | true =>
      obtain rfl := letsGo.own
      exact met.knows.gone (met.knows.quiet i letsGo.works.first letsGo.deleting) name (letsGo.gone x tracked name inside)
  · refine ⟨fun x n e uid name inside present ⟨d,member,_⟩ => ?_,fun d member => ?_⟩
    · cases member
    · cases member

end

/-! ### A monitor that is made, and an instance that goes without one -/

def visible : Toolkit := { toolkit with
  library := { toolkit.library with isDNS1123Label := fun name => name = "monitoring" || toolkit.library.isDNS1123Label name } }

def watched : Instance := { working with
  metadata := { working.metadata with status := { imageBinding := some ⟨"v1",0,⟨.gradleHttp,.v010⟩,Finmap.singleton "cache" image⟩ } }
  spec := { working.spec with templateName := .gradleHttp } }

def watching : Operators visible records where
  cluster := populated [
    .create Kind.project (⟨1⟩ : Namespace) (labels 1 : Labels) (),
    .create Kind.cacheInstance workingKey watched.metadata watched.spec,
    .create Kind.secret workingSecret.key workingSecret.metadata workingSecret.spec]

/-- The first pass takes the finalizer, the second one makes the objects. -/
def watches : List (Label scheme Key Settings) :=
  let settings : Settings := ⟨{},none,some ⟨"monitoring",""⟩,true⟩
  .start workingKey settings :: List.replicate 3 (.run workingKey .delivered) ++
    .stop workingKey :: .start workingKey settings :: List.replicate 9 (.run workingKey .delivered)

def makesMonitor (e : Child) (d : OperatorDeed) : Bool :=
  match d.request with
  | .create .child n (m : ChildMeta) _ => decide (n = e.key) && decide (e.uid = (d.before Kind.child).nextUid) &&
      decide (m.labels.instanceUid = some 0)
  | _ => false

theorem makesMonitor_made {e : Child} {deeds : List OperatorDeed} (makes : deeds.any (makesMonitor e) = true) : Made deeds e 0 := by
  obtain ⟨d,member,makes⟩ := List.any_eq_true.mp makes
  unfold makesMonitor at makes
  split at makes
  · rename_i n m spec request
    obtain ⟨both,label⟩ := Bool.and_eq_true_iff.mp makes
    obtain ⟨named,born⟩ := Bool.and_eq_true_iff.mp both
    exact ⟨d,member,m,spec,of_decide_eq_true named ▸ request,of_decide_eq_true born,of_decide_eq_true label⟩
  · cases makes

theorem access_tracked_watching : ∃ s, Operates visible records Spares watching s ∧ ∃ (e : Child) (i : Instance),
    s.cluster.at_ Kind.child (workingKey,.serviceMonitor) = some e ∧ Made s.deeds e 0 ∧
      s.cluster.at_ Kind.cacheInstance workingKey = some i ∧ i.uid = 0 ∧ i.metadata.finalizers.monitoring = true := by
  have ends : (run (step (operator visible records)) undisturbed watches watching).any (fun s =>
      (s.cluster.at_ Kind.child (workingKey,.serviceMonitor)).any (fun e => s.deeds.any (makesMonitor e))) = true := by decide +kernel
  obtain ⟨s,reached,there⟩ := reaches_of_run (fun _ _ alone => orderly_undisturbed alone) ends
  obtain ⟨e,present,makes⟩ := (Option.any_eq_true _ _).mp there
  have made := makesMonitor_made makes
  have runs : Operates visible records Spares watching s := ⟨⟨populated_wf _,rfl,rfl,rfl⟩,reached⟩
  obtain ⟨i,live,uid,tracked⟩ := (access_tracked runs).1 .monitoring workingKey e 0 .serviceMonitor (by decide) present made
  exact ⟨s,runs,e,i,present,made,live,uid,tracked⟩

/-- A third pass, which finds nothing left. -/
def finishes : List (Label scheme Key Settings) :=
  discards ++ .stop discardedKey :: .start discardedKey ⟨{},none,none,false⟩ :: List.replicate 8 (.run discardedKey .delivered)

/-- The pass takes all finalizers of a deleted instance, and has not looked at any object
    for access. -/
def goesBlindly (d : OperatorDeed) : Bool :=
  match d.request with
  | .patch .cacheInstance (n : Key) _ (m : InstanceMeta) _ => decide (n = discardedKey) && decide (m.finalizers = {}) &&
      (d.before.at_ Kind.cacheInstance discardedKey).any (fun (e : Instance) => e.deleting && e.metadata.finalizers.cleanup) &&
      d.past.all (fun event => match event.1 with
        | .get .child (n : Key × ChildName) => decide (n.2 ∉ gatewayChildren ∧ n.2 ∉ monitoringChildren)
        | _ => true)
  | _ => false

/-- An instance that nobody reached from outside goes without a look at its routes. -/
theorem access_unobserved : ∃ s, Operates toolkit records Spares discarding s ∧ ∃ d ∈ s.deeds, Takes d discardedKey Finalizers.cleanup ∧
    (∃ e : Instance, d.before.at_ Kind.cacheInstance discardedKey = some e ∧ e.deleting = true) ∧
      ∀ x : Access, ∀ name ∈ x.children, ¬Absent d.past .child (discardedKey,name) := by
  have ends : (run (step (operator toolkit records)) undisturbed finishes discarding).any (fun s => s.deeds.any goesBlindly) = true := by
    decide +kernel
  obtain ⟨s,reached,went⟩ := reaches_of_run (fun _ _ alone => orderly_undisturbed alone) ends
  obtain ⟨d,member,blindly⟩ := List.any_eq_true.mp went
  unfold goesBlindly at blindly
  split at blindly
  · rename_i n version m spec request
    obtain ⟨rest,blind⟩ := Bool.and_eq_true_iff.mp blindly
    obtain ⟨rest,there⟩ := Bool.and_eq_true_iff.mp rest
    obtain ⟨named,empty⟩ := Bool.and_eq_true_iff.mp rest
    obtain ⟨e,present,holds⟩ := (Option.any_eq_true _ _).mp there
    obtain ⟨deleting,cleanup⟩ := Bool.and_eq_true_iff.mp holds
    have runs : Operates toolkit records Spares discarding s := ⟨discarding_start,reached⟩
    refine ⟨s,runs,d,member,⟨e,present,cleanup,?_⟩,⟨e,present,deleting⟩,?_⟩
    · intro after v served e' now
      have named : n = discardedKey := of_decide_eq_true named
      subst named
      rw [patched_metadata request (deed_sound runs member).stores served now,of_decide_eq_true empty]
    · intro x name inside absent
      have seen := List.all_eq_true.mp blind _ absent
      cases x with
      | gateway => exact (of_decide_eq_true seen).1 inside
      | monitoring => exact (of_decide_eq_true seen).2 inside
  · cases blindly

end Expbuild.Tracking
