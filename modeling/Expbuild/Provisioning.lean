import Expbuild.Rows

/-!
An instance that is being provisioned (`pending`) has an operation that will still
decide it. This holds as long as nobody gets in the way of a creation or a reclaim:
a superseded operation ends without a word about its instance, where a failed one
marks it.
-/
namespace Expbuild.Provisioning
open Expbuild.Contract Expbuild.Schema Expbuild.Tables Expbuild.Quotas Expbuild.Programs Expbuild.Runs Expbuild.Calls
open Expbuild.Transactions Expbuild.Effects Expbuild.Platform Expbuild.Licences Expbuild.Licensing Expbuild.Rows

/-- An active creation or reclaim of the instance. -/
def Undecided (db : Db) (i : InstanceId) : Prop :=
  ∃ id o, db.operations.lookup id = some o ∧ o.instanceId = some i ∧ o.kind.creates = true ∧ o.state.active = true

/-- Every pending instance is still to be decided. -/
def Deciding (db : Db) : Prop :=
  ∀ i b, db.bindings.lookup i = some b → b.lifecycle = .pending → Undecided db i

/-- The step is not one of a worker that holds a creation or a reclaim and was shown
    that somebody got in its way. -/
def Undisturbed (s : System) (l : Label) : Prop :=
  ∀ t c o, Executes s l t c → Claimed t.history o → o.kind.creates = true → held s.db o = true →
    ¬Displaced t.history o

/-! ### No service supersedes an operation -/

/-- A computation that throws no superseding error. -/
def Plain {α : Type} (x : Except Failure α) : Prop := ∀ code, x ≠ .error (.operation code true)

section
variable {α β : Type}

theorem plain_ok (a : α) : Plain (.ok a : Except Failure α) := fun _ wrong => by cases wrong

theorem plain_bind {x : Except Failure α} {f : α → Except Failure β} (first : Plain x) (rest : ∀ a, Plain (f a)) :
    Plain (x >>= f) := by
  cases x with
  | error e => intro code wrong; cases wrong; exact first code rfl
  | ok a => exact rest a

theorem plain_demand {condition : Prop} [Decidable condition] {e : Failure} (plain : ∀ code, e ≠ .operation code true) :
    Plain (demand condition e) := by
  intro code wrong
  unfold demand at wrong
  split at wrong
  · cases wrong
  · cases wrong; exact plain code rfl

theorem plain_found {row : Option α} {e : Failure} (plain : ∀ code, e ≠ .operation code true) :
    Plain (found row e) := by
  intro code wrong
  cases row with
  | some a => cases wrong
  | none => cases wrong; exact plain code rfl

end

theorem plain_lockProject (db : Db) (caller : Caller) (roles : List Role) : Plain (lockProject db caller roles) :=
  plain_bind (plain_demand (by simp)) (fun _ => plain_found (by simp))

theorem plain_replay (db : Db) (projectId : ProjectId) (kind : Kind) (key : String) (requestHash : RequestHash) :
    Plain (replay db projectId kind key requestHash) := by
  unfold replay
  split
  · exact plain_ok _
  · exact plain_bind (plain_demand (by simp)) (fun _ => plain_ok _)

theorem plain_insertOperation (o : Operation) (db : Db) : Plain (insertOperation o db) :=
  plain_bind (plain_demand (by simp [alreadyExists])) (fun _ => plain_bind (plain_demand (by simp)) (fun _ => plain_ok _))

theorem plain_insertCredential (c : Credential) (db : Db) : Plain (insertCredential c db) :=
  plain_bind (plain_demand (by simp [alreadyExists])) (fun _ => plain_ok _)

theorem plain_quotaSnapshot (db : Db) (projectId : ProjectId) : Plain (quotaSnapshot db projectId) := by
  unfold quotaSnapshot
  split
  · intro code wrong; cases wrong
  · exact plain_ok _

theorem plain_checkQuota (limits : Quota) (reserved : Reserved) (unknown : Nat) :
    Plain (checkQuota limits reserved unknown) := by
  intro code wrong
  unfold checkQuota at wrong
  repeat (split at wrong; · cases wrong)
  cases wrong

theorem plain_checked (db : Db) (projectId : ProjectId) : Plain (checked db projectId) :=
  plain_bind (plain_quotaSnapshot _ _) (fun _ => plain_checkQuota _ _ _)

theorem plain_reserveResources (db : Db) (projectId : ProjectId) (instanceId : InstanceId) (input : Resources)
    (creating : Bool) : Plain (reserveResources db projectId instanceId input creating) :=
  plain_bind (plain_demand (by simp)) (fun _ => plain_bind (plain_demand (by simp)) (fun _ =>
    plain_bind (plain_checked _ _) (fun _ => plain_ok _)))

theorem plain_accept {db : Db} {caller : Caller} {roles : List Role} {kind : Kind} {requestHash : RequestHash}
    {proceed : Project → Except Failure (Db × Accepted)} (plain : ∀ project, Plain (proceed project)) :
    Plain (accept db caller roles kind requestHash proceed) := by
  refine plain_bind (plain_lockProject _ _ _) (fun project => plain_bind (plain_replay _ _ _ _ _) (fun previous => ?_))
  cases previous with
  | some o => exact plain_ok _
  | none => exact plain project

theorem plain_settleFinished (o : Operation) (state : OpState) (db : Db) : Plain (settleFinished o state db) := by
  unfold settleFinished
  split
  · split
    · unfold settleResources
      split
      · intro code wrong; cases wrong
      · exact plain_ok _
    · exact plain_ok _
  · exact plain_ok _

/-- The database does not. -/
theorem plain_transact (pick : Pick) (db : Db) (c : DbCall) : Plain (transact pick db c) := by
  cases c with
  | claim _ | defer _ _ | recordPolicy _ _ | quotaGate _ | volumeBinding _ _ | boundUid _ | credentialNames _
  | olderCredentialNames _ _ => exact plain_ok _
  | finish o state code change =>
    change Plain (finish o state code change db)
    unfold finish
    split
    · exact plain_bind (plain_settleFinished _ _ _) (fun _ => plain_ok _)
    · exact plain_ok _
  | bind o uid generation =>
    change Plain (Transactions.bind o uid generation db)
    unfold Transactions.bind
    split
    · exact plain_bind (plain_demand (by simp)) (fun _ => plain_ok _)
    · exact plain_ok _
  | projectAccess _ _ | platformAccess _ => exact plain_bind (plain_demand (by simp)) (fun _ => plain_ok _)
  | replay _ _ _ _ => exact plain_bind (plain_lockProject _ _ _) (fun _ => plain_bind (plain_replay _ _ _ _ _) (fun _ =>
      plain_ok _))
  | binding _ _ => exact plain_bind (plain_found (by simp)) (fun _ => plain_ok _)
  | createInstance _ _ _ _ _ _ _ =>
    refine plain_accept (fun _ => plain_bind (plain_demand (by simp)) (fun _ => plain_bind (plain_demand (by simp))
      (fun _ => plain_bind (plain_demand (by simp)) (fun _ => ?_))))
    exact plain_bind (plain_demand (by simp [alreadyExists])) (fun _ => plain_bind (plain_reserveResources _ _ _ _ _)
      (fun _ => plain_bind (plain_insertCredential _ _) (fun _ => plain_bind (plain_insertOperation _ _)
        (fun _ => plain_ok _))))
  | updateInstance _ _ _ _ _ _ =>
    exact plain_accept (fun _ => plain_bind (plain_reserveResources _ _ _ _ _) (fun _ =>
      plain_bind (plain_insertOperation _ _) (fun _ => plain_ok _)))
  | rotateCredentials _ _ _ _ _ _ =>
    exact plain_accept (fun _ => plain_bind (plain_insertOperation _ _) (fun _ =>
      plain_bind (plain_insertCredential _ _) (fun _ => plain_ok _)))
  | deleteInstance _ _ _ | deleteRetainedVolume _ _ _ _ =>
    exact plain_accept (fun _ => plain_bind (plain_found (by simp)) (fun _ => plain_bind (plain_demand (by simp))
      (fun _ => plain_bind (plain_insertOperation _ _) (fun _ => plain_ok _))))
  | reclaimRetainedVolume _ _ _ _ _ _ _ _ =>
    refine plain_accept (fun _ => plain_bind (plain_found (by simp)) (fun _ => plain_bind (plain_demand (by simp))
      (fun _ => plain_bind (plain_checked _ _) (fun _ => ?_))))
    exact plain_bind (plain_insertOperation _ _) (fun _ => plain_bind (plain_insertCredential _ _) (fun _ => plain_ok _))
  | retryOperation _ _ =>
    refine plain_bind (plain_lockProject _ _ _) (fun _ => plain_bind (plain_demand (by simp)) (fun _ =>
      plain_bind (plain_found (by simp)) (fun _ => ?_)))
    split
    · exact plain_ok _
    · exact plain_bind (plain_demand (by simp)) (fun _ => plain_bind (plain_demand (by simp)) (fun _ =>
        plain_bind (plain_demand (by simp)) (fun _ => plain_bind (plain_demand (by simp [alreadyExists]))
          (fun _ => plain_ok _))))
  | updateQuota _ _ _ =>
    refine plain_bind (plain_bind (plain_demand (by simp)) (fun _ => plain_bind (plain_quotaSnapshot _ _) (fun _ => ?_)))
      (fun _ => plain_ok _)
    exact plain_bind (plain_demand (by simp)) (fun _ => plain_bind (plain_checkQuota _ _ _) (fun _ => plain_ok _))
  | createProject _ _ _ =>
    exact plain_bind (plain_bind (plain_demand (by simp [alreadyExists])) (fun _ =>
      plain_bind (plain_insertOperation _ _) (fun _ => plain_ok _))) (fun _ => plain_ok _)
  | retryProject _ _ =>
    refine plain_bind (plain_lockProject _ _ _) (fun _ => ?_)
    split
    · exact plain_ok _
    · exact plain_bind (plain_demand (by simp)) (fun _ => plain_bind (plain_insertOperation _ _) (fun _ => plain_ok _))

/-- Nor does Kubernetes. -/
theorem plain_serve (kube : ApiServer.Cluster) (call : KubeCall) : Plain (ApiServer.serve kube call) := by
  have missing : ∀ code, ApiServer.notFound ≠ .operation code true := by simp [ApiServer.notFound]
  have taken : ∀ code, ApiServer.conflict ≠ .operation code true := by simp [ApiServer.conflict]
  cases call with
  | createNamespace _ _ | createPolicy _ _ _ | createInstance _ =>
    exact plain_bind (plain_demand taken) (fun _ => plain_ok _)
  | readNamespace _ | readPolicy _ _ | readSecret _ _ | readInstance _ _ | readClaim _ _ =>
    exact plain_bind (plain_found missing) (fun _ => plain_ok _)
  | createSecret _ _ _ _ _ =>
    exact plain_bind (plain_bind (plain_demand taken) (fun _ => plain_ok _)) (fun _ => plain_ok _)
  | replaceInstance _ _ _ =>
    exact plain_bind (plain_found missing) (fun _ => plain_bind (plain_demand taken) (fun _ => plain_ok _))
  | deleteSecret _ _ _ | deleteInstance _ _ _ | deleteClaim _ _ _ _ =>
    exact plain_bind (plain_bind (plain_found missing) (fun _ => plain_bind (plain_demand taken) (fun _ => plain_ok _)))
      (fun _ => plain_ok _)
  | listMounts _ => exact plain_ok _

/-! ### One step -/

section
variable {db db' : Db} {c : DbCall}

theorem finishedBinding_pending {o : Operation} {state : OpState} {change : Change} {b : Binding}
    (pending : (finishedBinding o state change b).lifecycle = .pending) :
    b.lifecycle = .pending ∧ ¬(state = .failed ∧ o.kind.creates = true) ∧
      ∀ displayName secretName, change ≠ .activated displayName secretName := by
  have settled : ∀ b, (settledBinding o state b).lifecycle = b.lifecycle := by
    intro b
    unfold settledBinding
    split
    · split <;> rfl
    · rfl
  unfold finishedBinding failedBinding at pending
  split at pending
  · cases pending
  · rename_i other
    rw [settled] at pending
    refine ⟨?_,other,?_⟩
    · cases change with
      | nothing | projectReady => exact pending
      | volumeDeleted | activated displayName secretName => cases pending
      | released policy => cases policy <;> cases pending
    · rintro displayName secretName rfl
      cases pending

/-- An ending that says what became of the instance. -/
def Speaks (o : Operation) (state : OpState) (change : Change) : Prop :=
  o.kind.creates = true → state = .failed ∨ ∃ displayName secretName, change = .activated displayName secretName

theorem Deciding.finished {o : Operation} {state : OpState} {code : Option String} {change : Change} {settled : Db}
    (sound : Sound db) (deciding : Deciding db) (holds : held db o = true) (copy : Copy db o)
    (speaks : Speaks o state change) (settles : settleFinished o state (applyChange o change db) = .ok settled)
    (e : AuditEvent) : Deciding (audit e (markFailed o state (updateOperation o.id (ended db.now state code) settled))) := by
  obtain ⟨row,found,active,_⟩ := held_some holds
  obtain ⟨row',found',same⟩ := copy
  rw [found] at found'
  cases found'
  intro i b' present pending
  rw [finished_bindings settles] at present
  by_cases own : o.instanceId = some i
  · rw [if_pos own] at present
    obtain ⟨b,was,rfl⟩ := Option.map_eq_some_iff.mp present
    obtain ⟨pending,unfailed,inactive⟩ := finishedBinding_pending pending
    -- the operation that was to decide the instance is the one that ends
    obtain ⟨id,q,found',instanceId,creates,active'⟩ := deciding i b was pending
    have one := sound.active_unique found found' active active' (by rw [asked_instanceId same,own]; rfl)
      (by rw [asked_instanceId same,own,instanceId])
    rw [← one,found] at found'
    cases found'
    rw [asked_kind same] at creates
    rcases speaks creates with failed | ⟨displayName,secretName,activated⟩
    · exact absurd ⟨failed,creates⟩ unfailed
    · exact absurd activated (inactive displayName secretName)
  · rw [if_neg own] at present
    obtain ⟨id,q,found',instanceId,creates,active'⟩ := deciding i b' present pending
    refine ⟨id,q,?_,instanceId,creates,active'⟩
    rw [finished_operations settles,lookup_modify_ne,found']
    rintro rfl
    rw [found] at found'
    cases found'
    exact own ((asked_instanceId same).symm.trans instanceId)

theorem Deciding.txn (sound : Sound db) (deciding : Deciding db) (txn : Txn db c db')
    (speaks : ∀ o state code change, c = .finish o state code change → held db o = true →
      Copy db o ∧ Speaks o state change) : Deciding db' := by
  by_cases ends : ∃ o state code change, c = .finish o state code change
  · obtain ⟨o,state,code,change,rfl⟩ := ends
    cases txn with
    | unchanged _ => exact deciding
    | finished holds settles =>
      obtain ⟨copy,spoken⟩ := speaks o state code change rfl holds
      exact deciding.finished sound holds copy spoken settles _
    | admitted admits _ _ _ => cases admits
  · -- an active operation stays active
    have stays : ∀ {i}, Undecided db i → Undecided db' i := by
      rintro i ⟨id,o,row,instanceId,creates,active⟩
      obtain ⟨o',row',progress⟩ := Txn.operation txn row
      rcases progress.stays active with active' | ⟨p,state,code,change,finish,_⟩
      · exact ⟨id,o',row',(asked_instanceId progress.asked).trans instanceId,
          by rw [asked_kind progress.asked,creates],active'⟩
      · exact absurd ⟨p,state,code,change,finish⟩ ends
    intro i b' present pending
    cases was : db.bindings.lookup i with
    | none =>
      obtain ⟨_,_,_,_,_,operationId,_,_,_,_,_,o,_,row,kind,instanceId,state⟩ := Txn.provisioned txn was present
      exact ⟨operationId,o,row,instanceId,by rw [kind]; rfl,by rw [state]; rfl⟩
    | some b =>
      obtain ⟨b'',present',becomes⟩ := Txn.binding txn was
      rw [present] at present'
      cases present'
      cases becomes with
      | same => exact stays (deciding i _ was pending)
      | finished holds own => exact absurd ⟨_,_,_,_,rfl⟩ ends
      | bound holds own may => exact stays (deciding i _ was pending)
      | raised unreleased => exact stays (deciding i _ was pending)
      | deleting bound unreleased => cases pending
      | reopened retained uid =>
        -- the operation of the reclaim comes with the row
        cases txn with
        | unchanged _ => exact deciding i _ present pending
        | admitted admits insertable _ _ =>
          cases admits with
          | reclaim _ _ _ _ _ => exact ⟨_,_,AList.lookup_insert _,rfl,rfl,rfl⟩
      | resumed row may creates own available =>
        cases txn with
        | unchanged _ => exact deciding i _ present pending
        | admitted admits _ _ _ => cases admits
        | resumed found may' instanceId present' available' newest alone =>
          rw [row] at found
          cases found
          exact ⟨_,resumed db.now _,by rw [lookup_modify_self,row]; rfl,own,creates,rfl⟩

end

/-! ### Every run -/

/-- The invariant of an undisturbed run. -/
structure Provisions (s : System) : Prop where
  consistent : Consistent s
  unscolded : ∀ t ∈ s.threads, ¬Scolded t.history
  deciding : Deciding s.db

section
variable {s s' : System} {l : Label}

theorem heard_plain {t : Running} {c : Call} {x : c.Answer} (heard : Heard s l s' t c x) :
    ∀ code, x ≠ .error (.operation code true) := by
  intro code wrong
  cases heard with
  | transacted executes ran kube answer =>
    rcases answer with same | same
    · rw [same] at wrong; cases wrong
    · rw [same] at wrong; cases wrong
  | aborted db kube why =>
    cases wrong
    rcases why with ⟨pick,threw⟩ | same
    · exact plain_transact pick s.db _ code threw
    · cases same
  | served executes ran db answer =>
    rcases answer with same | ⟨_,same⟩
    · rw [same] at wrong; cases wrong
    · rw [same] at wrong; cases wrong
  | rejected db kube why =>
    cases wrong
    rcases why with threw | ⟨_,same⟩
    · exact plain_serve s.kube _ code threw
    · cases same
  | forged label db kube =>
    rename_i call _ forgery
    cases answer : forgery call with
    | ok v => rw [answer] at wrong; cases wrong
    | error status => rw [answer] at wrong; cases wrong
  | clock db kube => cases wrong

theorem unscolded_step (moved : step l s = some s') (before : ∀ t ∈ s.threads, ¬Scolded t.history) :
    ∀ t ∈ s'.threads, ¬Scolded t.history := by
  refine threads_step (fun _ _ past => ¬Scolded past) moved before ?_ (fun t _ holds => holds) ?_
  · rintro task ⟨c,code,member⟩
    cases member
  · rintro t c x makes heard holds ⟨c',code,member⟩
    rcases List.mem_cons.mp member with same | member
    · cases same
      exact heard_plain heard code rfl
    · exact holds ⟨c',code,member⟩

/-- How a worker that nobody disturbs ends an operation. -/
theorem speaks_of_finishes {past : Past} {o : Operation} {state : OpState} {change : Change}
    (finishes : Finishes past o state change) (unscolded : ¬Scolded past)
    (undisturbed : o.kind.creates = true → ¬Displaced past o) : Speaks o state change := by
  intro creates
  cases finishes with
  | failed => exact .inl rfl
  | superseded why =>
    cases why creates with
    | displaced displaced => exact absurd displaced (undisturbed creates)
    | scolded scolded => exact absurd scolded unscolded
  | project kind | volume kind => rw [kind] at creates; cases creates
  | released kind space named absent unrecorded => rw [kind] at creates; cases creates
  | activated applies compared generation own ready => exact .inr ⟨_,_,rfl⟩

theorem Provisions.step (holds : Provisions s) (undisturbed : Undisturbed s l) (moved : step l s = some s') :
    Provisions s' := by
  refine ⟨holds.consistent.step moved,unscolded_step moved holds.unscolded,?_⟩
  rcases step_db moved with idle | ⟨t,c,x,pick,v,makes,executes,ran⟩
  · intro i b row pending
    rw [idle.bindings] at row
    obtain ⟨id,o,row',rest⟩ := holds.deciding i b row pending
    exact ⟨id,o,by rw [idle.operations]; exact row',rest⟩
  · refine holds.deciding.txn holds.consistent.sound (transact_cases ran) ?_
    rintro o state code change rfl lease
    obtain ⟨claimed,finishes⟩ : Claimed _ o ∧ Finishes _ o state change := licensed_makes makes
    exact ⟨holds.consistent.copy makes.member claimed,speaks_of_finishes finishes
      (holds.unscolded _ makes.member) (fun creates => undisturbed _ _ o executes claimed creates lease)⟩

/-- A pending instance has an active creation or reclaim, as long as no worker that
    holds one is shown that somebody got in its way. -/
theorem pending_undecided {s₀ : System} (start : Start s₀) (reached : Reaches step Undisturbed s₀ s) {i : InstanceId}
    {b : Binding} (row : s.db.bindings.lookup i = some b) (pending : b.lifecycle = .pending) : Undecided s.db i := by
  have holds : Provisions s := by
    refine reached.invariant ⟨Consistent.start start,?_,?_⟩ (fun holds may moved => holds.step may moved)
    · intro t member
      rw [start.threads] at member
      cases member
    · intro i b row
      rw [start.bindings] at row
      simp at row
  exact holds.deciding i b row pending

end

theorem undecided_iff (db : Db) (i : InstanceId) : Undecided db i ↔
    anyRow (fun _ o => o.instanceId = some i && o.kind.creates && o.state.active) db.operations = true := by
  simp only [Undecided,anyRow_iff,Bool.and_eq_true,decide_eq_true_eq,and_assoc]

/-- Whether an event claims a creation. -/
def claims : Happened → Bool
  | ⟨.db (.claim _),.ok (some o)⟩ => o.kind.creates
  | _ => false

theorem claimed_of_claims {past : Past} {e : Happened} (happened : e ∈ past) (claim : claims e = true) :
    ∃ o, Claimed past o ∧ o.kind.creates = true := by
  unfold claims at claim
  split at claim
  · rename_i c o
    exact ⟨o,⟨c,happened⟩,claim⟩
  · cases claim

/-- Whether an event shows a worker the first revision of its own object. -/
def steady : Happened → Bool
  | ⟨.db (.claim _),.ok (some o)⟩ => decide (o.id = 100) && (o.state ≠ .reconciling || decide (o.targetGeneration = some 1))
  | ⟨.db (.bind _ _ generation),.ok true⟩ => decide (generation = 1)
  | ⟨.kube (.createInstance _),.ok c⟩ | ⟨.kube (.replaceInstance _ _ _),.ok c⟩ | ⟨.kube (.readInstance _ _),.ok c⟩ =>
    decide (c.generation = some 1) && decide (c.annotations.operationId = some 100)
  | ⟨.kube (.createInstance _),.error _⟩ => false
  | _ => true
def calm (s : System) : Bool := s.threads.all (fun t => t.history.all steady)

theorem steady_own {past : Past} {o : Operation} {desired : Manifest} {c : CacheObject} (all : ∀ e ∈ past, steady e = true)
    (seen : Applied past o desired c ∨ Read past desired.ns desired.name c) :
    c.generation = some 1 ∧ c.annotations.operationId = some 100 := by
  rcases seen with (answer | ⟨_,_,answer⟩ | ⟨read,_,_⟩) | read
  · simpa [steady] using all _ answer
  · simpa [steady] using all _ answer
  · simpa [steady] using all _ read
  · simpa [steady] using all _ read

/-- Where everybody is shown the first revision, nobody has got in the way. -/
theorem undisturbed_of_calm (s : System) (l : Label) (quiet : calm s = true) : Undisturbed s l := by
  rintro t c o ⟨i,_,_,_,_,_,found,_⟩ ⟨_,claimed⟩ _ _ displaced
  simp only [calm,List.all_eq_true] at quiet
  have all : ∀ e ∈ t.history, steady e = true := quiet t (List.mem_of_getElem? found)
  cases displaced with
  | edited asks taken answer read own changed => simpa [steady] using all _ answer
  | moved compared other =>
    have ours : o.id = 100 ∧ (o.state = .reconciling → o.targetGeneration = some 1) := by
      simpa [steady,imp_iff_not_or] using all _ claimed
    obtain ⟨generation,operation⟩ := steady_own all compared.seen
    refine other ⟨?_,by rw [operation,ours.1]⟩
    cases compared.targeted with
    | @bound uid target answer =>
      have first : target = 1 := by simpa [steady] using all _ answer
      rw [generation,first]
      rfl
    | recorded resumes _ =>
      rw [generation,ours.2 resumes]
      rfl

/-- A creation that failed and is retried is pending again, and still to be decided. -/
theorem pending_undecided_retrying : ∃ s b, Reaches step Undisturbed small s ∧ s.db.bindings.lookup 100 = some b ∧
    b.lifecycle = .pending ∧ (∃ t ∈ s.threads, ∃ o, Claimed t.history o ∧ o.kind.creates = true) ∧ Undecided s.db 100 := by
  obtain ⟨s,reached,holds⟩ := reaches_of_run undisturbed_of_calm
    (show (run step (fun s _ => calm s) retrying small).any (fun s =>
      (s.db.bindings.lookup 100).any (fun b => b.lifecycle = .pending) && s.threads.any (fun t => t.history.any claims)) = true by
        decide +kernel)
  simp only [Bool.and_eq_true,Option.any_eq_true,List.any_eq_true,decide_eq_true_eq] at holds
  obtain ⟨⟨b,row,pending⟩,t,member,e,happened,claim⟩ := holds
  exact ⟨s,b,reached,row,pending,⟨t,member,claimed_of_claims happened claim⟩,pending_undecided small_start reached row pending⟩

/-- Somebody edits the object between two ticks. -/
def disturbed : List Label :=
  creating ++ [.act (.edit (⟨1⟩,⟨100⟩) {} {} (desiredObject smallInput 1 ⟨1⟩ 100 "slow" 100 (.create smallInput)).spec),
    .wait 3,.tick false] ++ calls 2 5 { operation := 100 }

/-- The operation is superseded, and nothing is left to decide the instance. -/
theorem superseded_strands : ∃ s, Reaches step (fun _ _ => True) small s ∧
    ∃ b, s.db.bindings.lookup 100 = some b ∧ b.lifecycle = .pending ∧ ¬Undecided s.db 100 := by
  obtain ⟨s,reached,holds⟩ := reaches_of_run (fun _ _ _ => trivial)
    (show (run step (fun _ _ => true) disturbed small).any (fun s =>
      (s.db.bindings.lookup 100).any (fun b => b.lifecycle = .pending) && !anyRow
        (fun _ o => o.instanceId = some 100 && o.kind.creates && o.state.active) s.db.operations) = true by decide +kernel)
  simp only [Bool.and_eq_true,Bool.not_eq_true',Option.any_eq_true,decide_eq_true_eq] at holds
  obtain ⟨⟨b,row,pending⟩,idle⟩ := holds
  exact ⟨s,reached,b,row,pending,by rw [undecided_iff,idle]; simp⟩

end Expbuild.Provisioning
