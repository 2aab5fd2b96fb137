import Expbuild.Versions

/-!
Every operation writes its configuration at most once to an object, an update only
over the revision that it expects, and an operation succeeds only after the bound
object was observed as its own write left it.

A second write of an operation would need a revision that its first write has moved
past. That the target generation belongs to the bound object rests on the identity of
an instance: while an operation is the newest of its instance, only its own workers
bind, and what they bind is an object that it wrote.
-/
namespace Expbuild.Writes
open Expbuild.Contract Expbuild.Schema Expbuild.Tables Expbuild.Objects Expbuild.Programs Expbuild.Runs
open Expbuild.Calls Expbuild.Kubernetes Expbuild.Transactions Expbuild.Effects Expbuild.Platform Expbuild.ApiServer
open Expbuild.Licences Expbuild.Licensing Expbuild.Rows Expbuild.Reservations Expbuild.Origins Expbuild.Versions

/-! ### The record of writes -/

/-- A write of a configuration by an operation to an object. -/
def configures (uid : KubeUid) (id : OperationId) (w : Write) : Bool :=
  w.uid = uid && w.operationId = some id && w.specChanged

/-- What is on record of an operation. -/
structure Recorded (s : System) (w : Write) (o : Operation) : Prop where
  row : s.db.operations.lookup o.id = some o
  named : w.operationId = some o.id
  uid : w.uid < s.kube.objects.nextUid
  /-- A reclaim writes to an object that is newer than the one it replaces. -/
  newer : ∀ {previous}, o.kind = .reclaim → o.request.previousInstanceUID = some previous → previous < w.uid
  /-- An update replaces the revision it expects, and moves past it. -/
  expected : o.kind.creates = false → w.replaced = o.request.expectedRevision
  advanced : ∀ {uid generation}, o.kind.creates = false → w.specChanged = true →
    o.request.expectedRevision = some ⟨uid,some generation⟩ →
    ∃ e ∈ s.kube.objects.past, e.uid = w.uid ∧ generation < e.generation

/-- The record as a whole. -/
structure Once (s : System) : Prop where
  recorded : ∀ w ∈ s.kube.writes, ∃ o, Recorded s w o
  once : ∀ uid id, (s.kube.writes.filter (configures uid id)).length ≤ 1

section
variable {s s' : System} {l : Label}

theorem Recorded.mono (evolves : Evolves s.db s'.db) (objects : Step s.kube.objects s'.kube.objects) {w : Write}
    {o : Operation} (recorded : Recorded s w o) : ∃ o', Recorded s' w o' := by
  obtain ⟨o',row,same⟩ := evolves.operations recorded.row
  have id := asked_id same
  have kind := asked_kind same
  have more : s.kube.objects.nextUid ≤ s'.kube.objects.nextUid := by
    generalize s'.kube.objects = after at objects
    cases objects with
    | created k metadata spec absent => exact Nat.le_succ _
    | idle | rewritten _ _ _ | removed _ => exact Nat.le_refl _
  refine ⟨o',by rw [id]; exact row,by rw [id]; exact recorded.named,Nat.lt_of_lt_of_le recorded.uid more,?_,?_,?_⟩
  · intro previous reclaim asks
    exact recorded.newer (kind.symm.trans reclaim) ((asked_previous same).symm.trans asks)
  · intro updates
    rw [asked_expected same]
    exact recorded.expected (by rwa [kind] at updates)
  · intro uid generation updates changed asks
    obtain ⟨e,member,rest⟩ := recorded.advanced (by rwa [kind] at updates) changed
      ((asked_expected same).symm.trans asks)
    exact ⟨e,objects.past_subset member,rest⟩

/-- A write names one operation. -/
theorem Recorded.eq {w : Write} {o p : Operation} (recorded : Recorded s w p)
    (row : s.db.operations.lookup o.id = some o) (named : w.operationId = some o.id) : p = o := by
  have id : o.id = p.id := Option.some.inj (named.symm.trans recorded.named)
  have found := recorded.row
  rw [← id,row] at found
  exact (Option.some.inj found).symm

/-- Nothing is added where the record has no configuration of this kind yet. -/
theorem once_cons {writes : List Write} {w : Write}
    (once : ∀ uid id, (writes.filter (configures uid id)).length ≤ 1)
    (first : ∀ uid id, configures uid id w = true → ∀ w' ∈ writes, configures uid id w' = false) :
    ∀ uid id, ((w :: writes).filter (configures uid id)).length ≤ 1 := by
  intro uid id
  cases configured : configures uid id w with
  | false =>
    rw [List.filter_cons_of_neg (by rw [configured]; simp)]
    exact once uid id
  | true =>
    have none' : writes.filter (configures uid id) = [] := by
      rw [List.filter_eq_nil_iff]
      intro w' member
      rw [first uid id configured w' member]
      simp
    rw [List.filter_cons_of_pos configured,none']
    simp

theorem configures_iff {uid : KubeUid} {id : OperationId} {w : Write} :
    configures uid id w = true ↔ w.uid = uid ∧ w.operationId = some id ∧ w.specChanged = true := by
  simp [configures,and_assoc]

/-- The identity that a reclaim replaces is older than any object to come. -/
theorem previous_lt (grounded : Grounded s) {o : Operation} {previous : KubeUid}
    (row : s.db.operations.lookup o.id = some o) (kind : o.kind = .reclaim)
    (asks : o.request.previousInstanceUID = some previous) : previous < s.kube.objects.nextUid := by
  cases grounded.origins row with
  | reclaim _ own located member identity project set desired =>
    rw [asks] at set
    cases set
    rw [← identity]
    exact grounded.wf.uid_lt member
  | project kind' | create kind' _ _ _ | update kind' _ _ _ _ _ _ _ | rotate kind' _ _ _ _ _ _
  | delete kind' _ _ _ _ _ | volumeDelete kind' _ _ _ _ => rw [kind] at kind'; cases kind'

/-- The write of a creation. -/
theorem recorded_created {o : Operation} {i : InstanceId} {ns : Namespace} {desired : Manifest}
    (grounded : Grounded s) (creation : Creation s l o i ns desired) (db : s'.db.operations.lookup o.id = some o)
    (objects : s'.kube.objects = s.kube.objects.create (ns,⟨i⟩) (manifestMeta desired {}) desired.spec) :
    Recorded s' ⟨s.kube.objects.nextUid,some o.id,none,1,true⟩ o where
  row := db
  named := rfl
  uid := by rw [objects]; exact Nat.lt_succ_self _
  newer kind asks := previous_lt grounded creation.author.row kind asks
  expected updates := by rw [creation.creates] at updates; cases updates
  advanced updates := by rw [creation.creates] at updates; cases updates

/-- The write of an update. -/
theorem recorded_updated {o : Operation} {i : InstanceId} {ns : Namespace} {desired : Manifest} {e : Object}
    (grounded : Grounded s) (update : Update s l o i ns desired e) (db : s'.db.operations.lookup o.id = some o)
    (objects : s'.kube.objects = s.kube.objects.write (rewritten e desired)) :
    Recorded s' ⟨e.uid,some o.id,o.request.expectedRevision,(rewritten e desired).generation,
      decide ((rewritten e desired).spec ≠ e.spec)⟩ o where
  row := db
  named := rfl
  uid := by rw [objects]; exact grounded.wf.uid_lt (grounded.wf.past update.present)
  newer kind _ := by
    have updates := update.updates
    rw [kind] at updates
    cases updates
  expected _ := rfl
  advanced _ changed asks := by
    rw [update.expected] at asks
    cases asks
    refine ⟨{ rewritten e desired with version := s.kube.objects.nextVersion },
      by rw [objects]; exact List.mem_cons_self,rfl,?_⟩
    have other : (rewritten e desired).spec ≠ e.spec := of_decide_eq_true changed
    change e.generation < (rewritten e desired).generation
    rw [rewritten_generation,if_neg other]
    exact Nat.lt_succ_self _

/-- An update that changes the configuration is the first one of its operation. -/
theorem update_first {o : Operation} {i : InstanceId} {ns : Namespace} {desired : Manifest} {e : Object} (holds : Once s)
    (wf : Wf s.kube.objects) (update : Update s l o i ns desired e) {w : Write} (member : w ∈ s.kube.writes) :
    configures e.uid o.id w = false := by
  by_contra configured
  obtain ⟨uid,named,changed⟩ := configures_iff.mp (by simpa using configured)
  obtain ⟨p,recorded⟩ := holds.recorded w member
  obtain rfl := recorded.eq update.author.row named
  obtain ⟨e₀,seen,same,more⟩ := recorded.advanced update.updates changed update.expected
  have live : s.kube.objects.live.lookup e₀.key = some e := by
    rw [wf.uid_key seen (wf.past update.present) (same.trans uid),wf.key update.present]
    exact update.present
  have := wf.generation_le seen live (same.trans uid)
  omega

/-- The approval of a reclaim. -/
theorem approved_recorded {o : Operation} {k : Key} {e : Object} (holds : Once s) (written : Written s)
    (present : s.kube.at k = some e) (row : s.db.operations.lookup o.id = some o) (kind : o.kind = .reclaim)
    (own : e.metadata.annotations.operationId = some o.id) (stays : e.deleting = false) :
    Recorded s ⟨e.uid,some o.id,some ⟨some e.uid,some e.generation⟩,e.generation,false⟩ o := by
  have wf := written.grounded.wf
  refine ⟨row,rfl,wf.uid_lt (wf.past present),fun reclaim asks => ?_,fun updates => ?_,fun updates => ?_⟩
  · -- the reclaim has created this object, which is on record
    obtain ⟨w,member,uid,named,_⟩ := written.logged e (wf.past present) stays
    obtain ⟨p,recorded⟩ := holds.recorded w member
    obtain rfl := recorded.eq row (named.trans own)
    change _ < e.uid
    rw [← uid]
    exact recorded.newer reclaim asks
  · rw [kind] at updates
    cases updates
  · rw [kind] at updates
    cases updates

theorem Once.step (holds : Once s) (written : Written s) (ours : Ours s l) (moved : step l s = some s') : Once s' := by
  have evolves := step_evolves moved
  have objects := step_objects written.grounded.wf moved
  have older : ∀ w ∈ s.kube.writes, ∃ o, Recorded s' w o := by
    intro w member
    obtain ⟨o,recorded⟩ := holds.recorded w member
    exact recorded.mono evolves objects
  have kept : s'.kube.writes = s.kube.writes → Once s' := by
    intro same
    exact ⟨by rw [same]; exact older,by rw [same]; exact holds.once⟩
  have added : ∀ {w : Write}, s'.kube.writes = w :: s.kube.writes → (∃ o, Recorded s' w o) →
      (∀ uid id, configures uid id w = true → ∀ w' ∈ s.kube.writes, configures uid id w' = false) → Once s' := by
    intro w cons recorded first
    refine ⟨fun w' member => ?_,by rw [cons]; exact once_cons holds.once first⟩
    rw [cons] at member
    rcases List.mem_cons.mp member with rfl | member
    · exact recorded
    · exact older w' member
  cases step_edits written.grounded ours moved with
  | kept _ writes | deleted _ _ writes | removed _ _ _ writes => exact kept writes
  | created creation objects writes =>
    obtain ⟨t,p,executes,_,_⟩ := creation.claimed
    have row := creation.author.row
    rw [← executes_kube_db executes moved] at row
    refine added writes ⟨_,recorded_created written.grounded creation row objects⟩ (fun uid id configured w member => ?_)
    by_contra again
    obtain ⟨new,_,_⟩ := configures_iff.mp configured
    obtain ⟨old,_,_⟩ := configures_iff.mp (show configures uid id w = true by simpa using again)
    obtain ⟨_,recorded⟩ := holds.recorded w member
    exact Nat.ne_of_lt recorded.uid (old.trans new.symm)
  | updated update objects writes =>
    obtain ⟨t,p,executes,_,_⟩ := update.claimed
    have row := update.author.row
    rw [← executes_kube_db executes moved] at row
    refine added writes ⟨_,recorded_updated written.grounded update row objects⟩ (fun uid id configured w member => ?_)
    obtain ⟨rfl,named,_⟩ := configures_iff.mp configured
    obtain rfl := Option.some.inj named
    exact update_first holds written.grounded.wf update member
  | touched new present touches objects' writes =>
    rcases writes with writes | ⟨o,row,kind,own,stays,writes⟩
    · exact kept writes
    · refine added writes ?_ (fun uid id configured => ?_)
      · refine (approved_recorded holds written present row kind own stays).mono evolves objects
      · obtain ⟨_,_,changed⟩ := configures_iff.mp configured
        cases changed

end

/-! ### The object that an operation waits for -/

/-- The operation wrote to the object, which led to this generation. -/
def Wrote (s : System) (o : Operation) (uid : KubeUid) (generation : Nat) : Prop :=
  ∃ w ∈ s.kube.writes, w.uid = uid ∧ w.operationId = some o.id ∧ w.generation = generation

/-- The instance is bound to an object that the operation wrote. -/
structure Reached (s : System) (o : Operation) (uid : KubeUid) (generation : Nat) : Prop where
  bound : ∃ i b, o.instanceId = some i ∧ s.db.bindings.lookup i = some b ∧ b.kubernetesUid = some uid
  wrote : Wrote s o uid generation

/-- What a tick knows of the target generation, and of the identity that it compared
    with after it knew the target. -/
structure Aims (s : System) (_ : Task) (past : Past) : Prop where
  targeted : ∀ {o generation}, Claimed past o → o.kind.applies = true → Targeted past o (some generation) →
    Outdated s.db o ∨ ∃ uid, Reached s o uid generation
  compared : ∀ {o generation uid}, o.kind.applies = true → Since past ⟨.db (.boundUid o.instanceId),.ok (some uid)⟩
    (fun earlier => Claimed earlier o ∧ Targeted earlier o (some generation)) →
    Outdated s.db o ∨ Reached s o uid generation

/-- What holds in every run of the operations and what they wrote. -/
structure Aiming (s : System) : Prop where
  written : Written s
  once : Once s
  targets : ∀ {id o generation}, s.db.operations.lookup id = some o → o.kind.applies = true →
    o.targetGeneration = some generation → ¬Outdated s.db o → ∃ uid, Reached s o uid generation
  aims : ∀ t ∈ s.threads, Aims s t.tag t.history

section
variable {s s' : System} {l : Label}

theorem Reached.congr {o p : Operation} {uid : KubeUid} {generation : Nat} (same : asked p = asked o)
    (reached : Reached s o uid generation) : Reached s p uid generation := by
  obtain ⟨⟨i,b,own,rest⟩,w,member,same',named,level⟩ := reached
  exact ⟨⟨i,b,(asked_instanceId same).trans own,rest⟩,w,member,same',by rw [asked_id same]; exact named,level⟩

/-- As long as an operation is the newest, its instance stays bound to what it wrote. -/
theorem reached_step (aiming : Aiming s) (ours : Ours s l) (moved : step l s = some s') {o : Operation} {uid : KubeUid}
    {generation : Nat} (copy : Copy s.db o) (reached : Reached s o uid generation) :
    Outdated s'.db o ∨ Reached s' o uid generation := by
  have evolves := step_evolves moved
  have consistent := aiming.written.grounded.consistent
  by_cases outdated : Outdated s.db o
  · exact .inl (outdated.evolves evolves)
  obtain ⟨⟨i,b,own,row,bound⟩,w,member,same,named,level⟩ := reached
  have wrote : Wrote s' o uid generation :=
    ⟨w,(step_edits aiming.written.grounded ours moved).record member,same,named,level⟩
  rcases step_db moved with idle | ⟨t,c,x,pick,v,makes,executes,ran⟩
  · exact .inr ⟨⟨i,b,own,by rw [idle.bindings]; exact row,bound⟩,wrote⟩
  · obtain ⟨b',row',becomes⟩ := Txn.binding (transact_cases ran) row
    rcases becomes.uid with kept | ⟨p,uid',generation',rfl,lease,placed,may,set⟩
    · exact .inr ⟨⟨i,b',own,row',kept.trans bound⟩,wrote⟩
    · -- only a worker of the newest operation binds
      obtain ⟨q,found,copied⟩ := copy
      obtain ⟨claimed,_⟩ : Claimed t.history p ∧ _ := licensed_makes makes
      obtain ⟨_,asks⟩ := consistent.sound.held_newest lease (consistent.copy makes.member claimed) placed found
        ((asked_instanceId copied).trans own) (by rwa [outdated_congr copied])
      simp only [bindable,Bool.and_eq_true,Bool.or_eq_true,decide_eq_true_eq,bound,reduceCtorEq,false_or,
        Option.some.injEq] at may
      rcases may.2 with rfl | ⟨⟨kind,_⟩,previous⟩
      · exact .inr ⟨⟨i,b',own,row',set⟩,wrote⟩
      · obtain ⟨r,recorded⟩ := aiming.once.recorded w member
        have id : q.id = o.id := asked_id copied
        obtain rfl := recorded.eq (by rw [id]; exact found) (by rw [id]; exact named)
        have newer := recorded.newer ((asked_kind asks).symm.trans kind) ((asked_previous asks).symm.trans previous.symm)
        exact absurd same (Nat.ne_of_gt newer)

/-- An operation is admitted without a target. -/
theorem Admits.untargeted {db : Db} {c : DbCall} {o : Operation} {bindings : Table InstanceId Binding}
    {credentials : List Credential} (admits : Admits db c o bindings credentials) : o.targetGeneration = none := by
  cases admits <;> rfl

/-- What a bind under a current lease has done. -/
theorem bind_held {db db' : Db} {o : Operation} {uid : KubeUid} {generation : Nat} {bound : Bool}
    (done : Transactions.bind o uid generation db = .ok (db',bound)) (lease : held db o = true ∨ bound = true) :
    ∃ i b, o.instanceId = some i ∧ db'.bindings.lookup i = some b ∧ b.kubernetesUid = some uid := by
  unfold Transactions.bind at done
  split at done
  · simp only [bind_eq_ok,demand_eq_ok,pure_eq_ok,Prod.mk.injEq,Option.any_eq_true] at done
    obtain ⟨_,⟨i,own,b,row,_⟩,rfl,_⟩ := done
    rw [own]
    exact ⟨i,_,rfl,(lookup_modify_self _ _ _).trans (by rw [row]; rfl),rfl⟩
  · rename_i lost
    simp only [pure_eq_ok,Prod.mk.injEq] at done
    rcases lease with lease | lease
    · exact absurd lease lost
    · rw [lease] at done
      cases done.2

/-- What a bind was told is what the operation wrote. -/
theorem bind_wrote (aiming : Aiming s) {t : Running} {p : Operation} {uid : KubeUid} {generation : Nat}
    {x : (Call.db (.bind p uid generation)).Answer} (makes : Makes s s' t (.db (.bind p uid generation)) x) :
    Wrote s p uid generation := by
  obtain ⟨claimed,applies,desired,c,asks,applied,identity,level⟩ := licensed_makes makes
  have grounded := aiming.written.grounded
  obtain ⟨o,found,same⟩ := grounded.consistent.copy makes.member claimed
  obtain ⟨i,ns,desired',author⟩ := author_of_row grounded found (by rw [asked_kind same]; exact applies)
  obtain rfl : desired' = desired := Option.some.inj (author.asks.symm.trans ((asked_desired same).trans asks))
  obtain ⟨e,member,_,rfl,stays,own⟩ := applied_version grounded makes.member author same applied
  obtain ⟨w,recorded,same',named,generation'⟩ := aiming.written.logged e member stays
  refine ⟨w,recorded,same'.trans (Option.some.inj identity),?_,generation'.trans (Option.some.inj level)⟩
  rw [named,own,asked_id same]

theorem Wrote.step (written : Written s) (ours : Ours s l) (moved : step l s = some s') {o : Operation} {uid : KubeUid}
    {generation : Nat} (wrote : Wrote s o uid generation) : Wrote s' o uid generation := by
  obtain ⟨w,member,rest⟩ := wrote
  exact ⟨w,(step_edits written.grounded ours moved).record member,rest⟩

theorem targets_step (aiming : Aiming s) (ours : Ours s l) (moved : step l s = some s') {id : OperationId}
    {o' : Operation} {generation : Nat} (row' : s'.db.operations.lookup id = some o') (applies : o'.kind.applies = true)
    (target : o'.targetGeneration = some generation) (current : ¬Outdated s'.db o') :
    ∃ uid, Reached s' o' uid generation := by
  have evolves := step_evolves moved
  have sound := aiming.written.grounded.consistent.sound
  -- a row that keeps its target
  have kept : ∀ {o}, s.db.operations.lookup id = some o → asked o' = asked o → o.targetGeneration = some generation →
      ∃ uid, Reached s' o' uid generation := by
    intro o row same target
    have before : ¬Outdated s.db o := fun outdated => current ((outdated_congr same).mpr (outdated.evolves evolves))
    obtain ⟨uid,reached⟩ := aiming.targets row (by rwa [asked_kind same] at applies) target before
    have copy : Copy s.db o := ⟨o,by rw [sound.id row]; exact row,rfl⟩
    rcases reached_step aiming ours moved copy reached with outdated | reached
    · exact absurd ((outdated_congr same).mpr outdated) current
    · exact ⟨uid,reached.congr same⟩
  cases was : s.db.operations.lookup id with
  | none =>
    rcases step_db moved with idle | ⟨t,c,x,pick,v,makes,executes,ran⟩
    · rw [idle.operations,was] at row'
      cases row'
    · rcases (Txn.opened (transact_cases ran) was row').admitted with admits | ⟨project,_⟩
      · cases (Admits.untargeted admits).symm.trans target
      · rw [project] at applies
        cases applies
  | some o =>
    rcases step_db moved with idle | ⟨t,c,x,pick,v,makes,executes,ran⟩
    · rw [idle.operations,was] at row'
      cases row'
      exact kept was rfl target
    · obtain ⟨o'',row'',progress⟩ := Txn.operation (transact_cases ran) was
      rw [row'] at row''
      cases row''
      have same := progress.asked
      cases progress with
      | same | claimed _ | finished _ | deferred _ | recorded _ | resumed _ _ _ _ _ => exact kept was same target
      | bound lease =>
        rename_i p uid generation'
        cases target
        obtain ⟨i,b,own,row,set⟩ := bind_held ran (.inl lease)
        obtain ⟨claimed,_⟩ : Claimed t.history p ∧ _ := licensed_makes makes
        obtain ⟨q,found,copied⟩ := aiming.written.grounded.consistent.copy makes.member claimed
        rw [was] at found
        cases found
        have wrote := (bind_wrote aiming makes).step aiming.written ours moved
        exact ⟨uid,Reached.congr (same.trans copied) ⟨⟨i,b,own,row,set⟩,wrote⟩⟩

/-- What a tick learns from its claim of an operation that already has a target. -/
theorem claim_targeted (aiming : Aiming s) (ours : Ours s l) (moved : step l s = some s') {t : Running}
    {claim : ClaimId} {x : (Call.db (.claim claim)).Answer} {o : Operation} {generation : Nat}
    (heard : Heard s l s' t (.db (.claim claim)) x) (answer : x = .ok (some o)) (applies : o.kind.applies = true)
    (target : o.targetGeneration = some generation) : Outdated s'.db o ∨ ∃ uid, Reached s' o uid generation := by
  obtain ⟨row,_⟩ := claim_heard aiming.written.grounded.consistent.sound heard answer
  by_cases outdated : Outdated s'.db o
  · exact .inl outdated
  · exact .inr (targets_step aiming ours moved row applies target outdated)

/-- What a tick learns from a bind that succeeds. -/
theorem bind_reached (aiming : Aiming s) (ours : Ours s l) (moved : step l s = some s') {t : Running} {o : Operation}
    {uid : KubeUid} {generation : Nat} {x : (Call.db (.bind o uid generation)).Answer}
    (makes : Makes s s' t (.db (.bind o uid generation)) x) (heard : Heard s l s' t (.db (.bind o uid generation)) x)
    (answer : x = .ok true) : Reached s' o uid generation := by
  cases heard with
  | transacted executes ran kube answered =>
    rcases answered with same | same
    · obtain rfl := Except.ok.inj (same.symm.trans answer)
      exact ⟨bind_held ran (.inr rfl),(bind_wrote aiming makes).step aiming.written ours moved⟩
    · rw [same] at answer
      cases answer
  | aborted db kube why => cases answer

/-- The identity that a query returns. -/
theorem boundUid_heard {t : Running} {i : Option InstanceId} {x : (Call.db (.boundUid i)).Answer} {uid : KubeUid}
    (heard : Heard s l s' t (.db (.boundUid i)) x) (answer : x = .ok (some uid)) :
    ∃ j b, i = some j ∧ s.db.bindings.lookup j = some b ∧ b.kubernetesUid = some uid := by
  cases heard with
  | transacted executes ran kube answered =>
    rcases answered with same | same
    · rw [same] at answer
      cases answer
      simp only [transact,reads,Except.ok.injEq,Prod.mk.injEq,Option.bind_eq_some_iff] at ran
      obtain ⟨_,j,own,b,row,bound⟩ := ran
      exact ⟨j,b,own,row,bound⟩
    · rw [same] at answer
      cases answer
  | aborted db kube why => cases answer

theorem aims_step (aiming : Aiming s) (ours : Ours s l) (moved : step l s = some s') :
    ∀ t ∈ s'.threads, Aims s' t.tag t.history := by
  have evolves := step_evolves moved
  have consistent := aiming.written.grounded.consistent
  have since_claimed : ∀ {past : Past} {e : Happened} {o : Operation} {target : Option Nat},
      Since past e (fun earlier => Claimed earlier o ∧ Targeted earlier o target) → Claimed past o := by
    rintro past e o target ⟨later,before,rfl,claimed,_⟩
    exact claimed.mono ⟨later ++ [e],by simp⟩
  have stable : ∀ t ∈ s.threads, Aims s t.tag t.history → Aims s' t.tag t.history := by
    intro t member aims
    constructor
    · intro o generation claimed applies targeted
      rcases aims.targeted claimed applies targeted with outdated | ⟨uid,reached⟩
      · exact .inl (outdated.evolves evolves)
      · exact (reached_step aiming ours moved (consistent.copy member claimed) reached).imp id (fun reached => ⟨uid,reached⟩)
    · intro o generation uid applies since
      rcases aims.compared applies since with outdated | reached
      · exact .inl (outdated.evolves evolves)
      · exact reached_step aiming ours moved (consistent.copy member (since_claimed since)) reached
  refine threads_step Aims moved aiming.aims ?_ stable ?_
  · intro task
    refine ⟨fun claimed => absurd claimed not_claimed_nil,fun {o generation uid} _ since => ?_⟩
    exact absurd (since_claimed since) not_claimed_nil
  · intro t c x makes heard aims
    have older := stable t makes.member aims
    constructor
    · intro o generation claimed applies targeted
      generalize level : some generation = target at targeted
      rcases claimed_cons claimed with ⟨claim,rfl,same⟩ | earlier
      · -- a claim is the first call of its tick
        obtain ⟨empty,_⟩ : t.history = [] ∧ _ := licensed_makes makes
        cases targeted with
        | bound answer =>
          rw [empty] at answer
          rcases List.mem_cons.mp answer with wrong | wrong
          · cases wrong
          · cases wrong
        | recorded resumes set => exact claim_targeted aiming ours moved heard (eq_of_heq same) applies level.symm
      · cases targeted with
        | bound answer =>
          cases level
          rcases List.mem_cons.mp answer with same | answer
          · cases same
            exact .inr ⟨_,bind_reached aiming ours moved makes heard rfl⟩
          · exact older.targeted earlier applies (.bound answer)
        | recorded resumes set =>
          refine older.targeted earlier applies ?_
          rw [level]
          exact .recorded resumes set
    · intro o generation uid applies since
      rcases since_cons since with ⟨same,claimed,targeted⟩ | since
      · cases same
        rcases aims.targeted claimed applies targeted with outdated | ⟨uid',reached⟩
        · exact .inl (outdated.evolves evolves)
        · -- what the query returns is what the operation is bound to
          obtain ⟨j,b,own,row,bound⟩ := boundUid_heard heard rfl
          obtain ⟨i,b',own',row',bound'⟩ := reached.bound
          rw [own] at own'
          cases own'
          rw [row] at row'
          cases row'
          rw [bound] at bound'
          cases bound'
          exact reached_step aiming ours moved (consistent.copy makes.member claimed) reached
      · exact older.compared applies since

theorem Aiming.step (aiming : Aiming s) (ours : Ours s l) (moved : step l s = some s') : Aiming s' where
  written := aiming.written.step ours moved
  once := aiming.once.step aiming.written ours moved
  targets := targets_step aiming ours moved
  aims := aims_step aiming ours moved

theorem Aiming.start (start : Start s) : Aiming s where
  written := .start start
  once := by
    refine ⟨fun w member => ?_,fun uid id => ?_⟩
    · rw [start.writes] at member
      cases member
    · rw [start.writes]
      exact Nat.zero_le 1
  targets row := by rw [start.operations] at row; simp at row
  aims t member := by rw [start.threads] at member; cases member

end

/-! ### Success -/

/-- The bound object was seen as the write of the operation left it: at its generation,
    under the name of the operation, with the requested specification in the mode of
    the object. -/
structure Observed (s : System) (past : Past) (o : Operation) (desired : Manifest) (c : CacheObject) (uid : KubeUid)
    (generation : Nat) : Prop where
  asks : o.request.desired = some desired
  seen : Applied past o desired c ∨ Read past desired.ns desired.name c
  identity : c.uid = some uid
  level : c.generation = some generation
  reached : Reached s o uid generation
  own : c.annotations.operationId = some o.id
  spec : c.spec = pinnedLike c desired

section
variable {s s' : System} {l : Label}

theorem finish_observed (aiming : Aiming s) {t : Running} {p : Operation} {code : Option String} {change : Change}
    {x : (Call.db (.finish p .succeeded code change)).Answer}
    (makes : Makes s s' t (.db (.finish p .succeeded code change)) x) (lease : held s.db p = true)
    (applies : p.kind.applies = true) : ∃ desired c uid generation,
      Observed s t.history p desired c uid generation := by
  obtain ⟨claimed,finishes⟩ : Claimed t.history p ∧ Finishes t.history p .succeeded change := licensed_makes makes
  have grounded := aiming.written.grounded
  obtain ⟨o,found,same⟩ := grounded.consistent.copy makes.member claimed
  obtain ⟨i,ns,desired',author⟩ := author_of_row grounded found (by rw [asked_kind same]; exact applies)
  have id := asked_id same
  cases finishes with
  | project kind | volume kind => rw [kind] at applies; cases applies
  | released kind _ _ _ _ => rw [kind] at applies; cases applies
  | activated _ compared level own ready =>
    rename_i desired c target _
    obtain rfl : desired' = desired :=
      Option.some.inj (author.asks.symm.trans ((asked_desired same).trans compared.asks))
    obtain ⟨e,past,_,rfl,spec⟩ := seen_spec aiming.written makes.member author same compared.seen (by rw [id]; exact own)
    have positive := grounded.wf.generation_pos past
    -- no object has generation 0, so the target is known
    obtain ⟨generation,rfl⟩ : ∃ generation, target = some generation := by
      cases target with
      | some generation => exact ⟨generation,rfl⟩
      | none =>
        have zero : e.generation = 0 := Option.some.inj level
        omega
    refine ⟨desired',render e,e.uid,generation,compared.asks,compared.seen,rfl,level,?_,own,spec⟩
    rcases (aiming.aims t makes.member).compared applies compared.bound with outdated | reached
    · have own : p.instanceId = some i := (asked_instanceId same).symm.trans author.own
      exact absurd outdated (grounded.consistent.sound.held_current lease ⟨o,found,same⟩ own)
    · exact reached

/-- Only the end of an operation makes it succeed. -/
theorem Progress.succeeds {db : Db} {c : DbCall} {id : OperationId} {o o' : Operation} (progress : Progress db c id o o')
    (before : o.state ≠ .succeeded) (after : o'.state = .succeeded) :
    ∃ p code change, c = .finish p .succeeded code change ∧ held db p = true ∧ id = p.id := by
  cases progress with
  | same | deferred _ | recorded _ => exact absurd after before
  | claimed free =>
    simp only [claimedBy] at after
    split at after
    · cases after
    · exact absurd after before
  | bound holds | resumed may newest instanceId present available => cases after
  | finished holds =>
    cases after
    exact ⟨_,_,_,rfl,holds,rfl⟩

/-- Whatever is replayed, lost, late or concurrent: each operation writes its
    configuration at most once to an object, an update or a rotation replaces the
    revision it expects, and an operation succeeds only after the bound object was
    observed as its own write left it. -/
theorem configuration_written_once {s₀ : System} (start : Start s₀) (reached : Reaches step Ours s₀ s) :
    (∀ uid id, (s.kube.writes.filter (configures uid id)).length ≤ 1) ∧
    (∀ w ∈ s.kube.writes, ∀ o, s.db.operations.lookup o.id = some o → w.operationId = some o.id →
      o.kind = .update ∨ o.kind = .rotate → w.replaced = o.request.expectedRevision) ∧
    ∀ l s' id o o', Ours s l → step l s = some s' → s.db.operations.lookup id = some o →
      s'.db.operations.lookup id = some o' → o.kind.applies = true → o.state ≠ .succeeded → o'.state = .succeeded →
      ∃ t p code change desired c uid generation, Executes s l t (.db (.finish p .succeeded code change)) ∧ p.id = id ∧
        Observed s t.history p desired c uid generation := by
  have aiming : Aiming s := reached.invariant (.start start) (fun aiming may moved => aiming.step may moved)
  refine ⟨aiming.once.once,?_,?_⟩
  · intro w member o row named kind
    obtain ⟨p,recorded⟩ := aiming.once.recorded w member
    obtain rfl := recorded.eq row named
    refine recorded.expected ?_
    rcases kind with kind | kind
    · rw [kind]; rfl
    · rw [kind]; rfl
  · intro l s' id o o' ours moved row row' applies before after
    rcases step_db moved with idle | ⟨t,c,x,pick,v,makes,executes,ran⟩
    · rw [idle.operations,row] at row'
      cases row'
      exact absurd after before
    · obtain ⟨o'',row'',progress⟩ := Txn.operation (transact_cases ran) row
      rw [row'] at row''
      cases row''
      obtain ⟨p,code,change,rfl,lease,rfl⟩ := Progress.succeeds progress before after
      obtain ⟨claimed,_⟩ : Claimed t.history p ∧ _ := licensed_makes makes
      obtain ⟨q,found,same⟩ := aiming.written.grounded.consistent.copy makes.member claimed
      rw [row] at found
      cases found
      obtain ⟨desired,c,uid,generation,observed⟩ := finish_observed aiming makes lease (by rwa [asked_kind same] at applies)
      exact ⟨t,p,code,change,desired,c,uid,generation,executes,rfl,observed⟩

end

theorem configuration_written_once_creating : ∃ s : System, s.kube.writes.any (configures 0 100) = true ∧
    ∀ uid id, (s.kube.writes.filter (configures uid id)).length ≤ 1 := by
  obtain ⟨s,reached,holds⟩ := reaches_of_run (fun _ _ check => Closed.ours (of_decide_eq_true check))
    (show (run step (fun _ l => decide (Closed l)) creating small).any
      (fun s => s.kube.writes.any (configures 0 100)) = true by decide +kernel)
  exact ⟨s,holds,(configuration_written_once small_start reached).1⟩

end Expbuild.Writes
