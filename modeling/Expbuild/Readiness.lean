import Expbuild.Bindings

/-!
When an instance is ready. Nobody but the operator creates workloads or changes their
specifications; then an instance only turns ready after a pass found its workload rolled
out with exactly the specification that follows from the instance, its images and its
Secret (`ready_earned`). And whatever says that it is ready at its own generation was
verified with the specification that it has (`ready_current`).
-/
namespace Expbuild.Readiness
open Expbuild.Contract Expbuild.Objects Expbuild.Programs Expbuild.Runs Expbuild.Clusters Expbuild.Controllers Expbuild.Guarantees
  Expbuild.Successions
  Expbuild.Kinds Expbuild.Adapters Expbuild.Reconciler Expbuild.Permits Expbuild.Permissions Expbuild.Operating Expbuild.Bindings
open Expbuild.Calls (Key)

/-- Workloads are the operator's: others neither create them nor change a specification. -/
def Alone (c c' : Cluster scheme) : Prop := ∀ (n : Key) (e' : Workload), c'.at_ Kind.workload n = some e' →
  ∃ e : Workload, c.at_ Kind.workload n = some e ∧ e.spec = e'.spec

def isReady (conditions : List Condition) : Prop := ∃ r ∈ conditions, r.type = "Ready" ∧ r.status = "True"

instance : DecidablePred isReady := fun conditions => inferInstanceAs (Decidable (∃ r ∈ conditions, r.type = "Ready" ∧ r.status = "True"))

/-! ### Conditions -/

theorem mem_setCondition {conditions : List Condition} {new r : Condition} (member : r ∈ setCondition conditions new) :
    r = new ∨ r.type ≠ new.type ∧ r ∈ conditions := by
  unfold setCondition at member
  split at member
  · obtain ⟨old,inside,rfl⟩ := List.mem_map.mp member
    by_cases same : old.type = new.type
    · exact .inl (if_pos same)
    · rw [if_neg same]
      exact .inr ⟨same,inside⟩
  · rename_i absent
    rcases List.mem_append.mp member with inside | inside
    · refine .inr ⟨fun same => absent ?_,inside⟩
      exact List.any_eq_true.mpr ⟨r,inside,decide_eq_true same⟩
    · exact .inl (List.mem_singleton.mp inside)

/-- A condition of another type was there before. -/
theorem mem_setCondition_other {conditions : List Condition} {new r : Condition} (member : r ∈ setCondition conditions new)
    (other : r.type ≠ new.type) : r ∈ conditions := by
  rcases mem_setCondition member with rfl | ⟨_,inside⟩
  · exact absurd rfl other
  · exact inside

theorem policyCondition_type (c : Instance) (ready : Bool) : (policyCondition c ready).type = "PolicyApplied" := by
  unfold policyCondition
  split
  · rfl
  · split <;> rfl
  · rfl

/-- What a report says of the readiness is the word of the pass. -/
theorem reported_ready {w : Working} {current : InstanceStatus} {applied : Option Applied} {reason : String} {r : Condition}
    (member : r ∈ (reported w current applied reason).conditions) (type : r.type = "Ready") :
    r = ⟨"Ready",if applied.isSome then "True" else "False",reason,some w.read.generation⟩ := by
  have other : ∀ {t : String}, t ≠ "Ready" → r.type ≠ t := fun different same => different (same.symm.trans type)
  have inside : r ∈ setCondition (setCondition w.conditions ⟨"Ready",if applied.isSome then "True" else "False",reason,
      some w.read.generation⟩) (policyCondition w.read applied.isSome) := by
    simp only [reported] at member
    split at member
    · exact mem_setCondition_other (mem_setCondition_other member (other (by simp))) (other (by simp))
    · exact List.mem_of_mem_filter (List.mem_of_mem_filter member)
  have inside := mem_setCondition_other inside (by rw [policyCondition_type]; exact other (by decide))
  rcases mem_setCondition inside with same | ⟨different,_⟩
  · exact same
  · exact absurd type different

/-- Without anything applied an instance is reported as not ready. -/
theorem reported_unready {w : Working} {current : InstanceStatus} {reason : String} :
    ¬isReady (reported w current none reason).conditions := by
  rintro ⟨r,member,type,status⟩
  rw [reported_ready member type] at status
  exact absurd status (by simp)

/-! ### The workload -/

section
variable {t : Toolkit} {codec : Codec} {a s : Operators t codec} {d : OperatorDeed} {past : Past} {c : Instance}

theorem alone_rules : Rules (operator t codec) Alone (permit t codec) (fun _ _ => True)
    (fun key _ past c _ => Exact (S := scheme) Kind.workload key past c) := by
  refine exact_rules (fun key config => reconcile_permitted t codec config key) ?_ (fun _ _ same => same) ?_
  rotate_left
  · intro c c' n e' alone present
    exact alone n e' present
  intro key config past c r n real may touches
  have named : ∀ {i : Instance}, Works past key i → i.key = key := fun works => (real.got Kind.cacheInstance key _ (works_read works)).2
  cases touches with
  | create m spec =>
    obtain ⟨i,works,creates⟩ := may
    cases creates with
    | workload wanted => exact named works
  | patch version m spec =>
    obtain ⟨i,works,write⟩ := may
    cases write with
    | stopped why read owned => exact named works
    | applied wanted read own updated => exact named works
  | merge p => exact may.elim
  | delete uid version =>
    obtain ⟨i,works,deletes⟩ := may
    cases deletes

/-- The workload is among what is applied. -/
theorem prepared_workload {adapter : Adapter} {secret : Secret} {objects : List Desired} (provided : Provided t past c adapter secret objects) :
    ∃ m s, Desired.workload c.key m s ∈ prepared c secret objects ∧ podImages s.template.spec = some adapter.images := by
  have whole := provided_whole provided
  obtain ⟨before,m,s,split,_⟩ := whole.workload
  have inside : Desired.workload c.key m s ∈ objects := split ▸ List.mem_append_right before (List.mem_singleton_self _)
  cases whole.all _ inside with
  | workload runs marked => exact ⟨_,_,List.mem_map.mpr ⟨_,inside,rfl⟩,runs⟩

/-- What a pass has verified when it makes an instance ready. -/
structure Earned (t : Toolkit) (d : OperatorDeed) (c : Instance) (adapter : Adapter) (secret : Secret) (objects : List Desired)
    (sts : Workload) (x : Applied) : Prop where
  works : Works d.past d.key c
  met : ∃ current, d.before.at_ Kind.cacheInstance d.key = some current ∧ current.uid = c.uid ∧ current.generation = c.generation
  verified : Verified t d.config d.past c adapter secret objects sts x
  was : sts ∈ (d.before Kind.workload).past ∧ sts.key = d.key
  /-- What was rolled out was what had been rendered. -/
  same : ∃ m, Desired.workload d.key m sts.spec ∈ prepared c secret objects
  images : podImages sts.spec.template.spec = some adapter.images

/-- What was observed is what had been applied. -/
theorem verified_earned {adapter : Adapter} {secret : Secret} {objects : List Desired} {sts : Workload} {x : Applied} {current : Instance}
    (real : Controllers.Real d.past d.before) (exact_ : Exact (S := scheme) Kind.workload d.key d.past d.before)
    (works : Works d.past d.key c) (met : d.before.at_ Kind.cacheInstance d.key = some current)
    (same : current.generation = c.generation ∧ current.uid = c.uid)
    (verified : Verified t d.config d.past c adapter secret objects sts x) : Earned t d c adapter secret objects sts x := by
  have key : c.key = d.key := (real.got Kind.cacheInstance d.key c (works_read works)).2
  obtain ⟨m',s',inside,images⟩ := prepared_workload verified.provided
  obtain ⟨earlier,observed,applied⟩ := verified.observed
  have was := real.got Kind.workload c.key sts (observed.subset List.mem_cons_self)
  rw [key] at was inside observed
  have found := exact_.seen sts earlier observed s' (key ▸ applied _ _ _ (key.symm ▸ inside))
  exact ⟨works,⟨current,met,same.2,same.1⟩,verified,was,⟨m',found ▸ inside⟩,found ▸ images⟩

/-- A write that makes an instance ready comes after all that. -/
theorem turned_earned {n : Key} {version : Nat} {m : InstanceMeta} {spec : Spec} (wf : ∀ k, Wf (d.before k))
    (real : Controllers.Real d.past d.before) (served : ∃ after v, Served d.before d.request after v)
    (permitted : permit t codec d.key d.config d.past d.request) (exact_ : Exact (S := scheme) Kind.workload d.key d.past d.before)
    (request : d.request = Request.patch Kind.cacheInstance n version m spec) (ready : isReady m.status.conditions) :
    (∃ e : Instance, d.before.at_ Kind.cacheInstance n = some e ∧ e.metadata.status.conditions = m.status.conditions ∧
        e.metadata.status.observedGeneration = m.status.observedGeneration) ∨
      ∃ c adapter secret objects sts x, Earned t d c adapter secret objects sts x ∧ n = d.key ∧
        m.status.observedGeneration = some c.generation := by
  rw [request] at permitted
  obtain ⟨c,works,write⟩ := permitted
  have key : c.key = d.key := (real.got Kind.cacheInstance d.key c (works_read works)).2
  cases write with
  | bound alive unbound origin vetted rendered =>
    exact .inl ⟨c,served_meets wf real served request (key ▸ works_read works),rfl,rfl⟩
  | released released => exact .inl ⟨c,served_meets wf real served request (key ▸ works_read works),rfl,rfl⟩
  | @reported conditions current applied reason alive read same verified stopped =>
    have met := served_meets wf real served request read
    cases applied with
    | none => exact absurd ready reported_unready
    | some x =>
      obtain ⟨adapter,secret,objects,sts,verified⟩ := verified x rfl
      rw [key] at met
      exact .inr ⟨c,adapter,secret,objects,sts,x,verified_earned real exact_ works met same verified,key,rfl⟩

/-- An instance that turns ready was found at work as it should be. -/
theorem ready_earned (runs : Operates t codec Alone a s) : ∀ d ∈ s.deeds, ∀ (n : Key) (version : Nat) (m : InstanceMeta) (spec : Spec),
    d.request = Request.patch Kind.cacheInstance n version m spec → isReady m.status.conditions →
      (∃ e : Instance, d.before.at_ Kind.cacheInstance n = some e ∧ e.metadata.status.conditions = m.status.conditions) ∨
        ∃ c adapter secret objects sts x, Earned t d c adapter secret objects sts x := by
  intro d member n version m spec request ready
  have sound := deed_sound runs member
  have held := alone_rules.held runs.1 trivial runs.2
  obtain ⟨after,before,split⟩ := List.append_of_mem member
  have knows := (held.deeds before d after split).knows
  rcases turned_earned sound.stores sound.real sound.served (deed_permitted sound) knows request ready with
    ⟨e,present,same,_⟩ | ⟨c,adapter,secret,objects,sts,x,earned,_⟩
  · exact .inl ⟨e,present,same⟩
  · exact .inr ⟨c,adapter,secret,objects,sts,x,earned⟩

/-! ### What the status says -/

/-- Others leave what a status says as it is, and make no instance that is ready. -/
def Sole (c c' : Cluster scheme) : Prop := Alone c c' ∧ ∀ e ∈ (c' Kind.cacheInstance).past, isReady e.metadata.status.conditions →
  ∃ old ∈ (c Kind.cacheInstance).past, old.uid = e.uid ∧ old.metadata.status = e.metadata.status

/-- A deed has verified the instance with this identity at the generation that it was
    observed at. -/
def Vouched (t : Toolkit) (c : Cluster scheme) (deeds : List OperatorDeed) (uid : Nat) (observed : Option Nat) : Prop :=
  ∃ d ∈ deeds, ∃ i adapter secret objects sts x, Earned t d i adapter secret objects sts x ∧ i ∈ (c Kind.cacheInstance).past ∧
    i.uid = uid ∧ observed = some i.generation

/-- Whatever says that it is ready is vouched for. -/
def Reported (t : Toolkit) (c : Cluster scheme) (deeds : List OperatorDeed) : Prop := ∀ e ∈ (c Kind.cacheInstance).past,
  isReady e.metadata.status.conditions → Vouched t c deeds e.uid e.metadata.status.observedGeneration

theorem Vouched.mono {c c' : Cluster scheme} {deeds deeds' : List OperatorDeed} {uid : Nat} {observed : Option Nat}
    (step : Step (c Kind.cacheInstance) (c' Kind.cacheInstance)) (more : ∀ d ∈ deeds, d ∈ deeds')
    (vouched : Vouched t c deeds uid observed) : Vouched t c' deeds' uid observed := by
  obtain ⟨d,member,i,adapter,secret,objects,sts,x,earned,seen,same⟩ := vouched
  exact ⟨d,more d member,i,adapter,secret,objects,sts,x,earned,step.past_subset seen,same⟩

theorem served_reported {key : Key} {settings : Settings} {c c' : Cluster scheme} {deeds : List OperatorDeed} {r : Request scheme}
    {v : r.Value} (wf : ∀ k, Wf (c k)) (real : Controllers.Real past c) (exact_ : Exact (S := scheme) Kind.workload key past c)
    (known : Reported t c deeds) (may : permit t codec key settings past r) (served : Served c r c' v) :
    Reported t c' (⟨key,settings,past,r,c⟩ :: deeds) := by
  intro e member ready
  have step := served.steps wf Kind.cacheInstance
  have more : ∀ d ∈ deeds, d ∈ (⟨key,settings,past,r,c⟩ :: deeds : List OperatorDeed) := fun _ => List.mem_cons_of_mem _
  cases served_appears wf served member with
  | before was => exact (known e was ready).mono step more
  | created request =>
    rw [request] at may
    obtain ⟨i,works,creates⟩ := may
    cases creates
  | @altered old was uid alters =>
    -- where the status is the one that there was, it is vouched for already
    have carried : isReady old.metadata.status.conditions →
        old.metadata.status.observedGeneration = e.metadata.status.observedGeneration →
          Vouched t c' (⟨key,settings,past,r,c⟩ :: deeds) e.uid e.metadata.status.observedGeneration := by
      intro ready observed
      rw [uid,← observed]
      exact (known old ((wf Kind.cacheInstance).past was) ready).mono step more
    cases alters with
    | same same =>
      rw [same] at ready
      exact carried ready (by rw [same])
    | patched request put specified =>
      rw [put] at ready
      rcases turned_earned (d := ⟨key,settings,past,r,c⟩) wf real ⟨c',v,served⟩ may exact_ request ready with
        ⟨met,present,conditions,observed⟩ | ⟨i,adapter,secret,objects,sts,x,earned,named,observed⟩
      · rw [was] at present
        cases present
        rw [← conditions] at ready
        exact carried ready (by rw [put,observed])
      · obtain ⟨current,present,same,_⟩ := earned.met
        rw [← named,was] at present
        cases present
        have seen := (real.got Kind.cacheInstance key i (works_read earned.works)).1
        exact ⟨_,List.mem_cons_self,i,adapter,secret,objects,sts,x,earned,step.past_subset seen,same.symm.trans uid.symm,
          by rw [put,observed]⟩
    | merged request put specified =>
      rw [put] at ready
      exact carried ready (by rw [put]; rfl)
    | deleted request put specified =>
      rw [put] at ready
      exact carried ready (by rw [put])

theorem reporting_rules : Rules (operator t codec) Sole (permit t codec) (Reported t)
    (fun key _ past c _ => Exact (S := scheme) Kind.workload key past c) := by
  refine alone_rules.with_shared (fun keeps => keeps.1) ?_ ?_
  · intro key config past c deeds r c' x took wf real known exact_ may outcome
    cases outcome with
    | failed _ => exact known
    | answered served => exact served_reported wf real exact_ known may served
    | lost served => exact served_reported wf real exact_ known may served
  · intro c c' deeds wf known steps keeps e member ready
    obtain ⟨old,was,uid,status⟩ := keeps.2 e member ready
    rw [← uid,← status]
    rw [← status] at ready
    exact (known old was ready).mono (steps Kind.cacheInstance) (fun _ member => member)

/-- An instance that says that it is ready at its own generation was verified with the
    very specification that it has. -/
theorem ready_current (runs : Operates t codec Sole a s)
    (begins : ∀ e ∈ (a.cluster Kind.cacheInstance).past, ¬isReady e.metadata.status.conditions) :
    ∀ (n : Key) (e : Instance), s.cluster.at_ Kind.cacheInstance n = some e → isReady e.metadata.status.conditions →
      e.metadata.status.observedGeneration = some e.generation →
        ∃ d ∈ s.deeds, ∃ c adapter secret objects sts x, Earned t d c adapter secret objects sts x ∧ c.uid = e.uid ∧ c.spec = e.spec := by
  intro n e present ready observed
  have held := reporting_rules.held runs.1 (fun e inside ready => absurd ready (begins e inside)) runs.2
  have wf := held.sound.stores Kind.cacheInstance
  have live := wf.past present
  obtain ⟨d,member,c,adapter,secret,objects,sts,x,earned,seen,uid,generation⟩ := held.common e live ready
  rw [observed] at generation
  exact ⟨d,member,c,adapter,secret,objects,sts,x,earned,uid,
    wf.generation_spec seen live uid (Option.some.inj generation).symm⟩

end

/-! ### An instance that turns ready -/

def workingObjects : List Desired :=
  match (bind_ ⟨.nxHttp,.v010⟩ (Finmap.singleton "cache" image)).bind (fun a => a.render toolkit working .lru) with
  | .ok objects => prepared working workingSecret objects
  | .error _ => []

/-- An object as it is when it has been applied and is at work. -/
def settled : Desired → Request scheme
  | .volume n m s => .create Kind.volume n { m with phase := "Bound" } s
  | .config n m s => .create Kind.config n m s
  | .child n m s => .create Kind.child n m s
  | .workload n m s => .create Kind.workload n { m with status := ⟨1,1,1,"first","first"⟩ } s

def atWork : Operators toolkit records where
  cluster := populated ([
    .create Kind.project (⟨1⟩ : Namespace) (labels 1 : Labels) (),
    .create Kind.cacheInstance workingKey working.metadata working.spec,
    .create Kind.secret workingSecret.key workingSecret.metadata workingSecret.spec] ++ workingObjects.map settled)

/-- One pass, which finds everything in its place. -/
def observes : List (Label scheme Key Settings) :=
  .start workingKey ⟨{},none,none,true⟩ :: List.replicate 15 (.run workingKey .delivered)

theorem atWork_start : Start (operator toolkit records) atWork := ⟨populated_wf _,rfl,rfl,rfl⟩

def turnsReady (d : OperatorDeed) : Bool :=
  match d.request with
  | .patch .cacheInstance n _ (m : InstanceMeta) _ => decide (isReady m.status.conditions) &&
      (d.before.at_ Kind.cacheInstance n).all (fun (e : Instance) => decide (e.metadata.status.conditions ≠ m.status.conditions))
  | _ => false

theorem ready_earned_atWork : ∃ s, Operates toolkit records Alone atWork s ∧ ∃ d ∈ s.deeds, ∃ c adapter secret objects sts x,
    Earned toolkit d c adapter secret objects sts x := by
  have ends : (run (step (operator toolkit records)) undisturbed observes atWork).any (fun s => s.deeds.any turnsReady) = true := by
    decide +kernel
  obtain ⟨s,reached,turned⟩ := reaches_of_run (fun _ _ alone => orderly_undisturbed alone) ends
  obtain ⟨d,member,turned⟩ := List.any_eq_true.mp turned
  unfold turnsReady at turned
  split at turned
  · rename_i n version m spec request
    obtain ⟨ready,new⟩ := Bool.and_eq_true_iff.mp turned
    rcases ready_earned ⟨atWork_start,reached⟩ d member n version m spec request (of_decide_eq_true ready) with ⟨e,present,same⟩ | earned
    · rw [present] at new
      exact absurd same (of_decide_eq_true new)
    · exact ⟨s,⟨atWork_start,reached⟩,d,member,earned⟩
  · cases turned

theorem ready_current_atWork : ∃ s, Operates toolkit records Sole atWork s ∧ ∃ (e : Instance), ∃ d ∈ s.deeds, ∃ c adapter secret objects sts x,
    s.cluster.at_ Kind.cacheInstance workingKey = some e ∧ Earned toolkit d c adapter secret objects sts x ∧ c.spec = e.spec := by
  have ends : (run (step (operator toolkit records)) undisturbed observes atWork).any (fun s =>
      (s.cluster.at_ Kind.cacheInstance workingKey).any (fun (e : Instance) => decide (isReady e.metadata.status.conditions) &&
        decide (e.metadata.status.observedGeneration = some e.generation))) = true := by decide +kernel
  obtain ⟨s,reached,holds⟩ := reaches_of_run (fun _ _ alone => orderly_undisturbed alone) ends
  obtain ⟨e,present,holds⟩ := (Option.any_eq_true _ _).mp holds
  obtain ⟨ready,observed⟩ := Bool.and_eq_true_iff.mp holds
  have begins : (atWork.cluster Kind.cacheInstance).past.all (fun e => !decide (isReady e.metadata.status.conditions)) = true := by
    decide +kernel
  obtain ⟨d,member,c,adapter,secret,objects,sts,x,earned,_,same⟩ := ready_current ⟨atWork_start,reached⟩
    (fun e inside => of_decide_eq_false (by simpa using List.all_eq_true.mp begins e inside)) workingKey e present
    (of_decide_eq_true ready) (of_decide_eq_true observed)
  exact ⟨s,⟨atWork_start,reached⟩,e,d,member,c,adapter,secret,objects,sts,x,present,earned,same⟩

end Expbuild.Readiness
