import Expbuild.Licensing
import Expbuild.Readiness

/-!
What an instance reports is never stale. Nobody but the operator creates workloads or
changes their specifications; then every report on an instance comes with its grounds,
for the generation that it names (`Grounds`). So the worker finds an instance ready only
if that very configuration runs, or is stopped (`reports_fresh`).
-/
namespace Expbuild.Reports
open Expbuild.Contract Expbuild.Objects Expbuild.Programs Expbuild.Runs Expbuild.Clusters Expbuild.Controllers Expbuild.Guarantees
  Expbuild.Successions
  Expbuild.Kinds Expbuild.Adapters Expbuild.Reconciler Expbuild.Permits Expbuild.Permissions Expbuild.Operating Expbuild.Bindings
  Expbuild.Readiness
open Expbuild.Calls (Key)

/-- What a pass had found when it wrote the condition `Ready`. -/
structure Grounds (t : Toolkit) (d : OperatorDeed) (c : Instance) (r : Condition) : Prop where
  works : Works d.past d.key c
  /-- The instance is still what the pass started from. -/
  met : ∃ current, d.before.at_ Kind.cacheInstance d.key = some current ∧ current.uid = c.uid ∧ current.generation = c.generation
  generation : r.observedGeneration = some c.generation
  running : r.status = "True" → ∃ adapter secret objects sts x, Earned t d c adapter secret objects sts x ∧
    sts.spec.template.credentialRevision = some secret.version
  stopped : r.reason = "Suspended" → Stopped d.past c

/-- A status that is written says of the instance what it said, or has its grounds. -/
def Honest (t : Toolkit) (d : OperatorDeed) : Prop := ∀ (n : Key) (version : Nat) (m : InstanceMeta) (spec : Spec),
  d.request = Request.patch Kind.cacheInstance n version m spec →
    (∃ e : Instance, d.before.at_ Kind.cacheInstance n = some e ∧ m.status.toStatus = e.metadata.status.toStatus) ∨
      ∃ c, n = d.key ∧ m.status.observedGeneration = some c.generation ∧ ∀ r ∈ m.status.conditions, r.type = "Ready" → Grounds t d c r

/-- A condition that says that an instance runs, or that it is stopped. -/
def Tells (r : Condition) : Prop := r.type = "Ready" ∧ (r.status = "True" ∨ r.reason = "Suspended")

instance : DecidablePred Tells := fun r => inferInstanceAs (Decidable (r.type = "Ready" ∧ (r.status = "True" ∨ r.reason = "Suspended")))

/-- Others leave the workloads to the operator, and the word on what runs. -/
def Silent (c c' : Cluster scheme) : Prop := Alone c c' ∧ ∀ e ∈ (c' Kind.cacheInstance).past, ∀ r ∈ e.metadata.status.conditions,
  Tells r → ∃ old ∈ (c Kind.cacheInstance).past, old.uid = e.uid ∧ r ∈ old.metadata.status.conditions

/-- A deed has the grounds for what is said of the instance with this identity. -/
def Founded (t : Toolkit) (c : Cluster scheme) (deeds : List OperatorDeed) (uid : Nat) (r : Condition) : Prop :=
  ∃ d ∈ deeds, ∃ i, Grounds t d i r ∧ i ∈ (c Kind.cacheInstance).past ∧ i.uid = uid

/-- Whatever was said of an instance has its grounds. -/
def Told (t : Toolkit) (c : Cluster scheme) (deeds : List OperatorDeed) : Prop := ∀ e ∈ (c Kind.cacheInstance).past,
  ∀ r ∈ e.metadata.status.conditions, Tells r → Founded t c deeds e.uid r

/-- The very configuration that the instance has runs, or is stopped where it asks for that. -/
def Attained (t : Toolkit) (deeds : List OperatorDeed) (e : Instance) : Prop := ∃ d ∈ deeds, ∃ i, Works d.past d.key i ∧ i.uid = e.uid ∧
  i.spec = e.spec ∧ (suspended e = true ∧ Stopped d.past i ∨ suspended e = false ∧
    ∃ adapter secret objects sts x, Earned t d i adapter secret objects sts x ∧ sts.spec.template.credentialRevision = some secret.version)

section
variable {t : Toolkit} {codec : Codec} {a s : Operators t codec} {d : OperatorDeed} {past : Past} {c : Instance}

/-- The template of an applied workload names the version of the credentials. -/
theorem prepared_revision {secret : Secret} {objects : List Desired} {n : Key} {m : WorkloadMeta} {spec : WorkloadSpec}
    (member : Desired.workload n m spec ∈ prepared c secret objects) : spec.template.credentialRevision = some secret.version := by
  obtain ⟨d,_,same⟩ := List.mem_map.mp member
  cases d with
  | workload n' m' s' =>
    cases same
    rfl
  | volume n' m' s' => cases same
  | config n' m' s' => cases same
  | child n' m' s' => cases same

theorem deed_honest (wf : ∀ k, Wf (d.before k)) (real : Controllers.Real d.past d.before)
    (served : ∃ after v, Served d.before d.request after v) (permitted : permit t codec d.key d.config d.past d.request)
    (exact_ : Exact (S := scheme) Kind.workload d.key d.past d.before) : Honest t d := by
  intro n version m spec request
  rw [request] at permitted
  obtain ⟨c,works,write⟩ := permitted
  have key : c.key = d.key := (real.got Kind.cacheInstance d.key c (works_read works)).2
  cases write with
  | bound alive unbound origin vetted rendered =>
    exact .inl ⟨c,served_meets wf real served request (key ▸ works_read works),rfl⟩
  | released released => exact .inl ⟨c,served_meets wf real served request (key ▸ works_read works),rfl⟩
  | @reported conditions current applied reason alive read same verified stopped =>
    have met := served_meets wf real served request read
    rw [key] at met
    refine .inr ⟨c,key,rfl,fun r member type => ?_⟩
    have said := reported_ready member type
    subst said
    refine ⟨works,⟨current,met,same.2,same.1⟩,rfl,fun status => ?_,stopped⟩
    cases applied with
    | none => exact absurd status (by simp)
    | some x =>
      obtain ⟨adapter,secret,objects,sts,verified⟩ := verified x rfl
      have earned := verified_earned real exact_ works met same verified
      obtain ⟨_,inside⟩ := earned.same
      exact ⟨adapter,secret,objects,sts,x,earned,prepared_revision inside⟩

theorem Founded.mono {c c' : Cluster scheme} {deeds deeds' : List OperatorDeed} {uid : Nat} {r : Condition}
    (step : Step (c Kind.cacheInstance) (c' Kind.cacheInstance)) (more : ∀ d ∈ deeds, d ∈ deeds') (founded : Founded t c deeds uid r) :
    Founded t c' deeds' uid r := by
  obtain ⟨d,member,i,grounds,seen,same⟩ := founded
  exact ⟨d,more d member,i,grounds,step.past_subset seen,same⟩

theorem served_told {key : Key} {settings : Settings} {c c' : Cluster scheme} {deeds : List OperatorDeed} {r : Request scheme}
    {v : r.Value} (wf : ∀ k, Wf (c k)) (real : Controllers.Real past c) (exact_ : Exact (S := scheme) Kind.workload key past c)
    (known : Told t c deeds) (may : permit t codec key settings past r) (served : Served c r c' v) :
    Told t c' (⟨key,settings,past,r,c⟩ :: deeds) := by
  intro e member condition inside tells
  have step := served.steps wf Kind.cacheInstance
  have more : ∀ d ∈ deeds, d ∈ (⟨key,settings,past,r,c⟩ :: deeds : List OperatorDeed) := fun _ => List.mem_cons_of_mem _
  cases served_appears wf served member with
  | before was => exact (known e was condition inside tells).mono step more
  | created request =>
    rw [request] at may
    obtain ⟨i,works,creates⟩ := may
    cases creates
  | @altered old was uid alters =>
    -- what was said before keeps its grounds
    have carried : condition ∈ old.metadata.status.conditions → Founded t c' (⟨key,settings,past,r,c⟩ :: deeds) e.uid condition := by
      intro inside
      rw [uid]
      exact (known old ((wf Kind.cacheInstance).past was) condition inside tells).mono step more
    cases alters with
    | same same => exact carried (same ▸ inside)
    | patched request put specified =>
      rw [put] at inside
      rcases deed_honest (d := ⟨key,settings,past,r,c⟩) wf real ⟨c',v,served⟩ may exact_ _ _ _ _ request with
        ⟨met,present,kept⟩ | ⟨i,named,_,grounds⟩
      · rw [was] at present
        cases present
        exact carried (congrArg Status.conditions kept ▸ inside)
      · have grounds := grounds condition inside tells.1
        obtain ⟨current,present,same,_⟩ := grounds.met
        rw [← named,was] at present
        cases present
        have seen := (real.got Kind.cacheInstance key i (works_read grounds.works)).1
        exact ⟨_,List.mem_cons_self,i,grounds,step.past_subset seen,same.symm.trans uid.symm⟩
    | merged request put specified =>
      rw [put] at inside
      exact carried inside
    | deleted request put specified =>
      rw [put] at inside
      exact carried inside

theorem telling_rules : Rules (operator t codec) Silent (permit t codec) (Told t)
    (fun key _ past c _ => Exact (S := scheme) Kind.workload key past c) := by
  refine alone_rules.with_shared (fun keeps => keeps.1) ?_ ?_
  · intro key config past c deeds r c' x took wf real known exact_ may outcome
    cases outcome with
    | failed _ => exact known
    | answered served => exact served_told wf real exact_ known may served
    | lost served => exact served_told wf real exact_ known may served
  · intro c c' deeds wf known steps keeps e member r inside tells
    obtain ⟨old,was,uid,before⟩ := keeps.2 e member r inside tells
    rw [← uid]
    exact (known old was r before tells).mono (steps Kind.cacheInstance) (fun _ member => member)

/-- What the worker takes for done is done. -/
theorem told_works {e : Instance} (wf : Wf (s.cluster Kind.cacheInstance)) (told : Told t s.cluster s.deeds)
    (member : e ∈ (s.cluster Kind.cacheInstance).past) (ready : Worker.ready (ApiServer.render (seenInstance e)) = true) :
    Attained t s.deeds e := by
  unfold Worker.ready at ready
  obtain ⟨_,ready⟩ := Bool.and_eq_true_iff.mp ready
  -- the condition of the current generation
  have found : ∀ {holds : Condition → Bool}, (Worker.readyCondition (ApiServer.render (seenInstance e))).any holds = true →
      ∃ r ∈ e.metadata.status.conditions, r.type = "Ready" ∧ r.observedGeneration = some e.generation ∧ holds r = true := by
    intro holds any
    unfold Worker.readyCondition at any
    obtain ⟨r,first,holds⟩ := (Option.any_eq_true _ _).mp any
    have both : r.type = "Ready" ∧ r.observedGeneration = (ApiServer.render (seenInstance e)).generation := by
      simpa using List.find?_some first
    exact ⟨r,List.mem_of_find?_eq_some first,both.1,both.2,holds⟩
  have grounded : ∀ {r : Condition}, r ∈ e.metadata.status.conditions → Tells r → r.observedGeneration = some e.generation →
      ∃ d ∈ s.deeds, ∃ i, Grounds t d i r ∧ i.uid = e.uid ∧ i.spec = e.spec := by
    intro r inside tells current
    obtain ⟨d,inside,i,grounds,seen,uid⟩ := told e member r inside tells
    have level := grounds.generation
    rw [current] at level
    exact ⟨d,inside,i,grounds,uid,wf.generation_spec seen member uid (Option.some.inj level).symm⟩
  split at ready
  · rename_i asked
    obtain ⟨r,inside,type,current,holds⟩ := found ready
    have reason := of_decide_eq_true holds
    obtain ⟨d,member,i,grounds,uid,spec⟩ := grounded inside ⟨type,.inr reason⟩ current
    exact ⟨d,member,i,grounds.works,uid,spec,.inl ⟨decide_eq_true asked,grounds.stopped reason⟩⟩
  · rename_i asked
    obtain ⟨r,inside,type,current,holds⟩ := found ready
    have status := of_decide_eq_true holds
    obtain ⟨d,member,i,grounds,uid,spec⟩ := grounded inside ⟨type,.inl status⟩ current
    exact ⟨d,member,i,grounds.works,uid,spec,.inr ⟨decide_eq_false asked,grounds.running status⟩⟩

/-- An operation on an instance succeeds only on an object of its own that is ready. -/
theorem success_ready {gated : Bool} {claim : Schema.ClaimId} {past : Calls.Past} {o : Schema.Operation} {code : Option String}
    {change : Calls.Change} {next : Calls.Call.Answer (.db (.finish o .succeeded code change)) → Calls.Io (Option Routes.Reply)}
    (ran : Ran (Platform.program (.tick gated claim)) past (.request (.db (.finish o .succeeded code change)) next))
    (applies : o.kind.applies = true) : ∃ desired object target, Licences.Compared past o desired object target ∧
      object.generation = some (target.getD 0) ∧ object.annotations.operationId = some o.id ∧ Worker.ready object = true := by
  obtain ⟨_,finishes⟩ := ran.licensed (Licensing.licensed (.tick gated claim))
  cases finishes with
  | project kind =>
    rw [kind] at applies
    cases applies
  | volume kind =>
    rw [kind] at applies
    cases applies
  | released kind space named absent unrecorded =>
    rw [kind] at applies
    cases applies
  | activated _ compared generation own ready => exact ⟨_,_,_,compared,generation,own,ready⟩

/-- Every report has its grounds. Where nobody else says what runs, the worker finds an
    instance ready only if its own configuration runs or is stopped, and an operation
    succeeds only on an instance that it finds ready so. -/
theorem reports_fresh (runs : Operates t codec Alone a s) :
    (∀ d ∈ s.deeds, Honest t d) ∧
    (Operates t codec Silent a s → (∀ e ∈ (a.cluster Kind.cacheInstance).past, ∀ r ∈ e.metadata.status.conditions, ¬Tells r) →
      (∀ e ∈ (s.cluster Kind.cacheInstance).past, Worker.ready (ApiServer.render (seenInstance e)) = true → Attained t s.deeds e) ∧
      ∀ (gated : Bool) (claim : Schema.ClaimId) (past : Calls.Past) (o : Schema.Operation) (code : Option String) (change : Calls.Change)
        (next : Calls.Call.Answer (.db (.finish o .succeeded code change)) → Calls.Io (Option Routes.Reply)),
        Ran (Platform.program (.tick gated claim)) past (.request (.db (.finish o .succeeded code change)) next) →
          o.kind.applies = true → ∃ desired object target, Licences.Compared past o desired object target ∧
            object.generation = some (target.getD 0) ∧ object.annotations.operationId = some o.id ∧
              ∀ e ∈ (s.cluster Kind.cacheInstance).past, ApiServer.render (seenInstance e) = object → Attained t s.deeds e) := by
  refine ⟨fun d member => ?_,fun silent begins => ?_⟩
  · have sound := deed_sound runs member
    obtain ⟨after,before,split⟩ := List.append_of_mem member
    have knows := ((alone_rules.held runs.1 trivial runs.2).deeds before d after split).knows
    exact deed_honest sound.stores sound.real sound.served (deed_permitted sound) knows
  · have held := telling_rules.held silent.1 (fun e inside r among tells => absurd tells (begins e inside r among)) silent.2
    have works : ∀ e ∈ (s.cluster Kind.cacheInstance).past, Worker.ready (ApiServer.render (seenInstance e)) = true → Attained t s.deeds e :=
      fun e member ready => told_works (held.sound.stores Kind.cacheInstance) held.common member ready
    refine ⟨works,fun gated claim past o code change next ran applies => ?_⟩
    obtain ⟨desired,object,target,compared,generation,own,ready⟩ := success_ready ran applies
    exact ⟨desired,object,target,compared,generation,own,fun e member same => works e member (same.symm ▸ ready)⟩

end

/-! ### An instance that is done -/

theorem reports_fresh_atWork : ∃ s, Operates toolkit records Alone atWork s ∧ (∃ d ∈ s.deeds, turnsReady d = true ∧ Honest toolkit d) ∧
    ∃ e : Instance, s.cluster.at_ Kind.cacheInstance workingKey = some e ∧
      Worker.ready (ApiServer.render (seenInstance e)) = true ∧ Attained toolkit s.deeds e := by
  have ends : (run (step (operator toolkit records)) undisturbed observes atWork).any (fun s => s.deeds.any turnsReady &&
      (s.cluster.at_ Kind.cacheInstance workingKey).any (fun e => Worker.ready (ApiServer.render (seenInstance e)))) = true := by
    decide +kernel
  obtain ⟨s,reached,holds⟩ : ∃ s, Reaches (step (operator toolkit records)) (Orderly (operator toolkit records) Silent) atWork s ∧ _ :=
    reaches_of_run (fun _ _ alone => orderly_undisturbed alone) ends
  obtain ⟨turned,there⟩ := Bool.and_eq_true_iff.mp holds
  obtain ⟨d,member,turned⟩ := List.any_eq_true.mp turned
  obtain ⟨e,present,ready⟩ := (Option.any_eq_true _ _).mp there
  have begins : (atWork.cluster Kind.cacheInstance).past.all (fun e => e.metadata.status.conditions.all (fun r => !decide (Tells r))) = true := by
    decide +kernel
  have silent : Operates toolkit records Silent atWork s := ⟨atWork_start,reached⟩
  have alone : Operates toolkit records Alone atWork s := ⟨atWork_start,reached.mono (fun s l may => by
    cases l with
    | others after => exact ⟨may.1,may.2.1⟩
    | start key config => trivial
    | run key fault => trivial
    | stop key => trivial)⟩
  obtain ⟨honest,fresh⟩ := reports_fresh alone
  obtain ⟨works,_⟩ := fresh silent (fun e inside r among => of_decide_eq_false (by
    simpa using List.all_eq_true.mp (List.all_eq_true.mp begins e inside) r among))
  have live := ((known_reached silent.1 silent.2).stores Kind.cacheInstance).past present
  exact ⟨s,alone,⟨d,member,turned,honest d member⟩,e,present,ready,works e live ready⟩

end Expbuild.Reports
