import Expbuild.Origins

/-!
An instance whose reservations are released (`deleted` or `detached`) has no object
any more. Three ends release: of a deletion, which saw that the object is missing,
and of a volume deletion from `detached` and from `failed`. The last one looks at
nothing but the volume, and a creation is not fenced once it left the worker, so both
have to be kept away (`Careful`).
-/
namespace Expbuild.Release
open Expbuild.Contract Expbuild.Schema Expbuild.Tables Expbuild.Objects Expbuild.Quotas Expbuild.Programs
open Expbuild.Runs Expbuild.Calls Expbuild.Kubernetes Expbuild.Transactions Expbuild.Effects Expbuild.Platform
open Expbuild.ApiServer Expbuild.Licences Expbuild.Licensing Expbuild.Rows Expbuild.Reservations Expbuild.Origins

/-- Only the platform writes, no creation puts an object under a free name after a
    later operation on the instance was admitted, and no volume deletion of a failed
    instance is admitted while its object exists. -/
structure Careful (s : System) (l : Label) : Prop where
  closed : Closed l
  timely : ∀ t body o, Executes s l t (.kube (.createInstance body)) → s.kube.at (body.ns,body.name) = none →
    Claimed t.history o → ¬Outdated s.db o
  empty : ∀ t caller i uid id b project, Executes s l t (.db (.deleteRetainedVolume caller i uid id)) →
    s.db.bindings.lookup i = some b → s.db.projects.lookup b.projectId = some project → b.lifecycle = .failed →
    s.kube.at (project.ns,b.resourceName) = none

/-- The object of the instance does not exist. -/
def Gone (s : System) (i : InstanceId) : Prop := ∃ ns, Located s.db i ns ∧ s.kube.at (ns,⟨i⟩) = none

/-- The newest operation of the instance is a creation or a reclaim. -/
def Provides (db : Db) (i : InstanceId) : Prop :=
  ∃ id o, db.operations.lookup id = some o ∧ o.instanceId = some i ∧ o.kind.creates = true ∧ ¬Outdated db o

/-- What a worker of a deletion knows once it found the object missing. -/
def Missed (s : System) (_ : Task) (past : Past) : Prop :=
  ∀ {o i ns name}, Claimed past o → o.kind = .delete → o.instanceId = some i → o.request.ns = some ns →
    o.request.name = some name → Absent past ns name → Outdated s.db o ∨ Gone s i

structure Releases (s : System) : Prop where
  grounded : Grounded s
  provided : ∀ {i b}, Provides s.db i → s.db.bindings.lookup i = some b → b.lifecycle.released = false
  gone : ∀ {i b}, s.db.bindings.lookup i = some b → b.lifecycle.released = true → Gone s i
  volumes : ∀ {id o i}, s.db.operations.lookup id = some o → o.kind = .volumeDelete → o.instanceId = some i →
    ¬Outdated s.db o → Gone s i
  missed : ∀ t ∈ s.threads, Missed s t.tag t.history

/-! ### How an instance is released -/

section
variable {db db' : Db} {c : DbCall}

theorem settledBinding_lifecycle (o : Operation) (state : OpState) (b : Binding) :
    (settledBinding o state b).lifecycle = b.lifecycle := by
  unfold settledBinding
  split
  · split <;> rfl
  · rfl

/-- Only the end of a deletion or of a volume deletion releases an instance. -/
theorem Becomes.releases {i : InstanceId} {b b' : Binding} (becomes : Becomes db c i b b')
    (released : b'.lifecycle.released = true) : b.lifecycle.released = true ∨
      ∃ o state code change, c = .finish o state code change ∧ held db o = true ∧ o.instanceId = some i ∧
        (change = .volumeDeleted ∨ ∃ policy, change = .released policy) := by
  cases becomes with
  | same | bound _ _ _ | raised _ => exact .inl released
  | deleting _ _ | reopened _ _ | resumed _ _ _ _ _ => cases released
  | finished holds own =>
    rename_i o state code change
    have changed : (changedBinding change b).lifecycle.released = true := by
      unfold finishedBinding failedBinding at released
      split at released
      · cases released
      · rwa [settledBinding_lifecycle] at released
    cases change with
    | nothing | projectReady => exact .inl changed
    | volumeDeleted => exact .inr ⟨_,_,_,_,rfl,holds,own,.inl rfl⟩
    | released policy => exact .inr ⟨_,_,_,_,rfl,holds,own,.inr ⟨policy,rfl⟩⟩
    | activated displayName secretName => cases changed

/-- A volume deletion is admitted on an instance that is detached or failed. -/
theorem Admits.retained {o : Operation} {bindings : Table InstanceId Binding} {credentials : List Credential}
    {i : InstanceId} (admits : Admits db c o bindings credentials) (kind : o.kind = .volumeDelete)
    (own : o.instanceId = some i) : ∃ caller uid b project, c = .deleteRetainedVolume caller i uid o.id ∧
      db.bindings.lookup i = some b ∧ b.projectId = caller.projectId ∧
      db.projects.lookup caller.projectId = some project ∧ retains b.lifecycle = true := by
  cases admits with
  | volumeDelete present owner locked retained bound =>
    cases own
    exact ⟨_,_,_,_,rfl,present,owner,locked,retained⟩
  | create _ _ _ _ _ | update _ _ _ _ _ | rotate | delete _ _ _ _ _ | reclaim _ _ _ _ _ => cases kind

/-- Where a creation is the newest operation, every other one is outdated. -/
theorem Provides.outdates (sound : Sound db) {i : InstanceId} {o : Operation} (provides : Provides db i)
    (copy : Copy db o) (own : o.instanceId = some i) (other : o.kind.creates = false) : Outdated db o := by
  obtain ⟨id,p,row,instanceId,creates,current⟩ := provides
  obtain ⟨q,found,same⟩ := copy
  have different : id ≠ o.id := by
    rintro rfl
    rw [row] at found
    cases found
    rw [asked_kind same,other] at creates
    cases creates
  have placed : p.instanceId = q.instanceId := instanceId.trans (own.symm.trans (asked_instanceId same).symm)
  rcases sound.outdated_of_other row found placed different with outdated | outdated
  · exact absurd outdated current
  · exact (outdated_congr same).mp outdated

end

section
variable {s s' : System} {l : Label}

theorem Gone.same {i : InstanceId} (gone : Gone s i) (evolves : Evolves s.db s'.db) (kube : s'.kube = s.kube) :
    Gone s' i := by
  obtain ⟨ns,located,absent⟩ := gone
  exact ⟨ns,located.evolves evolves,by rw [kube]; exact absent⟩

/-- What is gone comes back only by a creation that is the newest operation. -/
theorem gone_step (grounded : Grounded s) (careful : Careful s l) (moved : step l s = some s') {i : InstanceId}
    (gone : Gone s i) : Gone s' i ∨ Provides s.db i := by
  obtain ⟨ns,located,absent⟩ := gone
  cases now : s'.kube.at (ns,⟨i⟩) with
  | none => exact .inl ⟨ns,located.evolves (step_evolves moved),now⟩
  | some e =>
    obtain ⟨t,body,x,makes,executes,key⟩ := appears grounded.wf careful.closed moved absent now
    obtain ⟨o,row,j,ns',claimed,found,same,creates,own,_,_,named⟩ := creation_makes grounded makes
    rw [named] at key
    cases key
    rw [← named] at absent
    have current := careful.timely t body o executes absent claimed
    exact .inr ⟨_,row,found,own,creates,fun outdated => current ((outdated_congr same).mp outdated)⟩

/-- Who releases an instance has seen that it is gone. -/
theorem Releases.finish (releases : Releases s) {t : Running} {o : Operation} {state : OpState} {code : Option String}
    {change : Change} {x : (Call.db (.finish o state code change)).Answer} {i : InstanceId}
    (makes : Makes s s' t (.db (.finish o state code change)) x) (lease : held s.db o = true)
    (own : o.instanceId = some i) (ends : change = .volumeDeleted ∨ ∃ policy, change = .released policy) :
    Gone s i ∧ ¬Provides s.db i := by
  obtain ⟨claimed,finishes⟩ : Claimed t.history o ∧ Finishes t.history o state change := licensed_makes makes
  have copy := releases.grounded.consistent.copy makes.member claimed
  have current := releases.grounded.consistent.sound.held_current lease copy own
  have newest : o.kind.creates = false → ¬Provides s.db i := fun other provides =>
    current (provides.outdates releases.grounded.consistent.sound copy own other)
  cases finishes with
  | failed | superseded _ | project _ => rcases ends with wrong | ⟨_,wrong⟩ <;> cases wrong
  | activated _ _ _ _ _ => rcases ends with wrong | ⟨_,wrong⟩ <;> cases wrong
  | volume kind =>
    obtain ⟨row,found,same⟩ := copy
    refine ⟨releases.volumes found ((asked_kind same).trans kind) ((asked_instanceId same).trans own) ?_,
      newest (by rw [kind]; rfl)⟩
    rwa [outdated_congr same]
  | released kind space named absent unrecorded =>
    refine ⟨?_,newest (by rw [kind]; rfl)⟩
    rcases releases.missed t makes.member claimed kind own space named absent with outdated | gone
    · exact absurd outdated current
    · exact gone

/-- A row that is released after a step: it was before, or its object is gone. -/
theorem Releases.row (releases : Releases s) (moved : step l s = some s') {i : InstanceId} {b' : Binding}
    (row : s'.db.bindings.lookup i = some b') (released : b'.lifecycle.released = true) :
    (∃ b, s.db.bindings.lookup i = some b ∧ b.lifecycle.released = true) ∨
      (Gone s i ∧ ¬Provides s.db i ∧ s'.kube = s.kube) := by
  rcases step_db moved with idle | ⟨t,c,x,pick,v,makes,executes,ran⟩
  · exact .inl ⟨b',by rwa [idle.bindings] at row,released⟩
  · cases was : s.db.bindings.lookup i with
    | none =>
      obtain ⟨_,_,_,_,_,_,_,_,_,_,new,_⟩ := Txn.provisioned (transact_cases ran) was row
      rw [new] at released
      cases released
    | some b =>
      obtain ⟨b'',row',becomes⟩ := Txn.binding (transact_cases ran) was
      rw [row] at row'
      cases row'
      rcases Becomes.releases becomes released with before | ⟨o,state,code,change,rfl,lease,own,ends⟩
      · exact .inl ⟨b,rfl,before⟩
      · obtain ⟨gone,newest⟩ := releases.finish makes lease own ends
        exact .inr ⟨gone,newest,executes_db_kube executes moved⟩

theorem creates_settles {kind : Kind} (creates : kind.creates = true) : kind.settles = true := by
  cases kind <;> first | rfl | cases creates

theorem provided_step (releases : Releases s) (moved : step l s = some s') {i : InstanceId} {b : Binding}
    (provides : Provides s'.db i) (row : s'.db.bindings.lookup i = some b) : b.lifecycle.released = false := by
  have evolves := step_evolves moved
  obtain ⟨id,o',found',own,creates,current⟩ := provides
  cases found : s.db.operations.lookup id with
  | some o =>
    obtain ⟨o'',row'',same⟩ := evolves.operations found
    rw [found'] at row''
    cases row''
    have before : Provides s.db i := ⟨id,o,found,(asked_instanceId same).symm.trans own,by rwa [asked_kind same] at creates,
      fun outdated => current ((outdated_congr same).mpr (outdated.evolves evolves))⟩
    by_contra released
    rcases releases.row moved row (by simpa using released) with ⟨b₀,row₀,was⟩ | ⟨_,newest,_⟩
    · rw [releases.provided before row₀] at was
      cases was
    · exact newest before
  | none =>
    rcases step_db moved with idle | ⟨t,c,x,pick,v,makes,executes,ran⟩
    · rw [idle.operations,found] at found'
      cases found'
    · rcases (Txn.opened (transact_cases ran) found found').admitted with admits | ⟨project,_⟩
      · exact (Admits.reserving admits (truthful_makes makes) (creates_settles creates) own row).2
      · rw [project] at creates
        cases creates

theorem gone_released_step (releases : Releases s) (careful : Careful s l) (moved : step l s = some s')
    {i : InstanceId} {b : Binding} (row : s'.db.bindings.lookup i = some b) (released : b.lifecycle.released = true) :
    Gone s' i := by
  rcases releases.row moved row released with ⟨b₀,row₀,was⟩ | ⟨gone,_,kube⟩
  · rcases gone_step releases.grounded careful moved (releases.gone row₀ was) with gone | provides
    · exact gone
    · rw [releases.provided provides row₀] at was
      cases was
  · exact gone.same (step_evolves moved) kube

theorem volumes_step (releases : Releases s) (careful : Careful s l) (moved : step l s = some s') {id : OperationId}
    {o' : Operation} {i : InstanceId} (found' : s'.db.operations.lookup id = some o') (kind : o'.kind = .volumeDelete)
    (own : o'.instanceId = some i) (current : ¬Outdated s'.db o') : Gone s' i := by
  have evolves := step_evolves moved
  cases found : s.db.operations.lookup id with
  | some o =>
    obtain ⟨o'',row'',same⟩ := evolves.operations found
    rw [found'] at row''
    cases row''
    have before : ¬Outdated s.db o := fun outdated =>
      current ((outdated_congr same).mpr (outdated.evolves evolves))
    have kind₀ : o.kind = .volumeDelete := (asked_kind same).symm.trans kind
    have own₀ : o.instanceId = some i := (asked_instanceId same).symm.trans own
    rcases gone_step releases.grounded careful moved (releases.volumes found kind₀ own₀ before) with gone | provides
    · exact gone
    · have sound := releases.grounded.consistent.sound
      refine absurd (provides.outdates sound ⟨o,?_,rfl⟩ own₀ (by rw [kind₀]; rfl)) before
      rw [sound.id found]
      exact found
  | none =>
    rcases step_db moved with idle | ⟨t,c,x,pick,v,makes,executes,ran⟩
    · rw [idle.operations,found] at found'
      cases found'
    · rcases (Txn.opened (transact_cases ran) found found').admitted with admits | ⟨project,_⟩
      · obtain ⟨caller,uid,b,project,rfl,present,owner,locked,retained⟩ := Admits.retained admits kind own
        refine Gone.same ?_ evolves (executes_db_kube executes moved)
        cases lifecycle : b.lifecycle with
        | detached => exact releases.gone present (by rw [lifecycle]; rfl)
        | failed =>
          obtain ⟨located,named⟩ := located_admitted releases.grounded.placed present owner locked
          have absent := careful.empty t _ _ _ _ b project executes present (by rw [owner]; exact locked) lifecycle
          exact ⟨project.ns,located,by rwa [named] at absent⟩
        | pending | active | deleting | deleted => rw [lifecycle] at retained; cases retained
      · rw [project] at kind
        cases kind

theorem missed_step (releases : Releases s) (careful : Careful s l) (moved : step l s = some s') :
    ∀ t ∈ s'.threads, Missed s' t.tag t.history := by
  have evolves := step_evolves moved
  have stable : ∀ t ∈ s.threads, Missed s t.tag t.history → Missed s' t.tag t.history := by
    intro t member missed o i ns name claimed kind own space named absent
    rcases missed claimed kind own space named absent with outdated | gone
    · exact .inl (outdated.evolves evolves)
    · rcases gone_step releases.grounded careful moved gone with gone | provides
      · exact .inr gone
      · have copy := releases.grounded.consistent.copy member claimed
        exact .inl ((provides.outdates releases.grounded.consistent.sound copy own (by rw [kind]; rfl)).evolves evolves)
  refine threads_step Missed moved releases.missed ?_ stable ?_
  · intro task o i ns name claimed
    exact absurd claimed not_claimed_nil
  · intro t c x makes heard missed o i ns name claimed kind own space named absent
    obtain ⟨e,code,seen⟩ := absent
    rcases claimed_cons claimed with ⟨claim,rfl,_⟩ | earlier
    · -- nothing was read before the claim
      obtain ⟨empty,_⟩ : t.history = [] ∧ _ := licensed_makes makes
      rw [empty] at seen
      rcases List.mem_cons.mp seen with same | seen
      · cases same
      · cases seen
    · rcases List.mem_cons.mp seen with same | seen
      · cases same
        obtain ⟨kube,_,free⟩ := heard_absent careful.closed.unforged heard rfl code
        obtain ⟨row,found,same⟩ := releases.grounded.consistent.copy makes.member earlier
        right
        cases releases.grounded.origins found with
        | delete _ own' located space' named' uid =>
          rw [asked_instanceId same,own] at own'
          rw [asked_ns same,space] at space'
          rw [asked_name same,named] at named'
          cases own'
          cases space'
          cases named'
          exact ⟨ns,located.evolves evolves,by rw [kube]; exact free⟩
        | project kind' | create kind' _ _ _ | update kind' _ _ _ _ _ _ _ | rotate kind' _ _ _ _ _ _
        | volumeDelete kind' _ _ _ _ | reclaim kind' _ _ _ _ _ _ _ => rw [asked_kind same,kind] at kind'; cases kind'
      · exact stable t makes.member missed earlier kind own space named ⟨e,code,seen⟩

theorem Releases.step (releases : Releases s) (careful : Careful s l) (moved : step l s = some s') : Releases s' where
  grounded := releases.grounded.step careful.closed.unforged moved
  provided := provided_step releases moved
  gone := gone_released_step releases careful moved
  volumes := volumes_step releases careful moved
  missed := missed_step releases careful moved

theorem Releases.start (start : Start s) : Releases s where
  grounded := .start start
  provided provides row := by rw [start.bindings] at row; simp at row
  gone row := by rw [start.bindings] at row; simp at row
  volumes row := by rw [start.operations] at row; simp at row
  missed t member := by rw [start.threads] at member; cases member

/-- An instance whose reservations are released has no object. -/
theorem released_gone {s₀ : System} (start : Start s₀) (reached : Reaches step Careful s₀ s) {i : InstanceId}
    {b : Binding} {project : Project} (row : s.db.bindings.lookup i = some b) (released : b.lifecycle.released = true)
    (owner : s.db.projects.lookup b.projectId = some project) : s.kube.at (project.ns,b.resourceName) = none := by
  have releases : Releases s := reached.invariant (.start start) (fun releases may moved => releases.step may moved)
  obtain ⟨ns,⟨b',project',row',named,owner',rfl⟩,absent⟩ := releases.gone row released
  rw [row] at row'
  cases row'
  rw [owner] at owner'
  cases owner'
  rw [named]
  exact absent

end

/-- Whether a step creates only where no second operation was admitted, and deletes
    no retained volume. -/
def carefully (s : System) (l : Label) : Bool :=
  decide (Closed l) && (calling s l).all (fun
    | .kube (.createInstance _) => !anyRow (fun _ p => 0 < p.createdAt) s.db.operations
    | .db (.deleteRetainedVolume _ _ _ _) => false
    | _ => true)

theorem careful_of_carefully (s : System) (l : Label) (check : carefully s l = true) : Careful s l := by
  simp only [carefully,Bool.and_eq_true,decide_eq_true_eq] at check
  obtain ⟨closed,check⟩ := check
  refine ⟨closed,fun t body o executes _ _ => ?_,fun t caller i uid id b project executes => ?_⟩
  · rw [executes_calling executes] at check
    simp only [Option.all_some,Bool.not_eq_true',anyRow_false_iff,decide_eq_false_iff_not] at check
    rintro ⟨id,p,row,_,later⟩
    exact check id p row (Nat.lt_of_le_of_lt (Nat.zero_le _) later)
  · rw [executes_calling executes] at check
    cases check

theorem released_gone_deleting : ∃ s : System, (s.db.bindings.lookup 100).any (fun b => b.lifecycle = .deleted) ∧
    s.kube.at smallKey = none := by
  obtain ⟨s,reached,holds⟩ := reaches_of_run careful_of_carefully
    (show (run step carefully deleting small).any (fun s =>
      (s.db.bindings.lookup 100).any (fun b => b.lifecycle = .deleted && b.projectId = 1 && b.resourceName = ⟨100⟩) &&
        (s.db.projects.lookup 1).any (fun p => p.ns = ⟨1⟩)) = true by decide +kernel)
  simp only [Bool.and_eq_true,Option.any_eq_true,decide_eq_true_eq] at holds
  obtain ⟨⟨b,row,⟨released,owner⟩,named⟩,project,locked,ns⟩ := holds
  refine ⟨s,by simp [row,released],?_⟩
  have absent := released_gone small_start reached row (by rw [released]; rfl) (by rw [owner]; exact locked)
  rwa [ns,named] at absent

/-- The volume of a failed instance is deleted while its object is there. -/
theorem failed_instance_released : ∃ s, Reaches step (fun _ l => Closed l) small s ∧
    ∃ b project, s.db.bindings.lookup 100 = some b ∧ b.lifecycle.released = true ∧
      s.db.projects.lookup b.projectId = some project ∧ s.kube.at (project.ns,b.resourceName) ≠ none := by
  obtain ⟨s,reached,holds⟩ := reaches_of_run (fun _ _ check => of_decide_eq_true check)
    (show (run step (fun _ l => decide (Closed l)) releasing small).any (fun s =>
      (s.db.bindings.lookup 100).any (fun b => b.lifecycle.released &&
        (s.db.projects.lookup b.projectId).any (fun p => (s.kube.at (p.ns,b.resourceName)).isSome))) = true by
      decide +kernel)
  simp only [Bool.and_eq_true,Option.any_eq_true] at holds
  obtain ⟨b,row,released,project,locked,present⟩ := holds
  exact ⟨s,reached,b,project,row,released,locked,fun absent => by rw [absent] at present; cases present⟩

end Expbuild.Release
