import Expbuild.Rows

/-!
An operation is completed exactly once: its terminal state, the audit row that
records it and what it changes in other tables are committed together, by a worker
whose lease is current, and only an accepted retry opens it again. This holds for
any number of workers and whatever Kubernetes answers.
-/
namespace Expbuild.Completion
open Expbuild.Contract Expbuild.Schema Expbuild.Tables Expbuild.Quotas Expbuild.Programs Expbuild.Runs Expbuild.Calls
open Expbuild.Transactions Expbuild.Effects Expbuild.Platform Expbuild.Licences Expbuild.Licensing Expbuild.Rows

/-! ### What is to be shown -/

/-- The audit rows that an operation has for terminal states and for retries. -/
def isEntry (id : OperationId) (e : AuditEvent) : Bool :=
  match e.action with
  | .entered _ => e.operationId = some id
  | _ => false
def isRetry (id : OperationId) (e : AuditEvent) : Bool := e.action = .operationRetry && e.operationId = some id
def entries (db : Db) (id : OperationId) : Nat := db.audit.countP (isEntry id)
def retriesOf (db : Db) (id : OperationId) : Nat := db.audit.countP (isRetry id)

/-- Whether the operation is in a terminal state. -/
def terminal (db : Db) (id : OperationId) : Bool := (db.operations.lookup id).any (fun o => !o.state.active)

/-- One entry into a terminal state for every retry, and one more in a terminal
    state. -/
def Balanced (db : Db) : Prop := ∀ id, entries db id = retriesOf db id + if terminal db id then 1 else 0

/-- A finished operation: the terminal state, its audit row and the changes of
    bindings, projects and credentials in one transaction of a worker whose lease is
    current. -/
def Commits (db db' : Db) (o : Operation) (state : OpState) (code : Option String) (change : Change) : Prop :=
  held db o = true ∧ state.active = false ∧ ∃ settled, settleFinished o state (applyChange o change db) = .ok settled ∧
    db' = audit { projectId := o.projectId, instanceId := o.instanceId, operationId := some o.id,
                  action := .entered state, code := code }
      (markFailed o state (updateOperation o.id (ended db.now state code) settled))

/-- What a step can do to operations and to the identities of their instances. -/
structure ExactlyOnce (s : System) (l : Label) (s' : System) : Prop where
  /-- Success and supersession are final. -/
  absorbing : ∀ {id o o'}, s.db.operations.lookup id = some o → s'.db.operations.lookup id = some o' →
    o.state = .succeeded ∨ o.state = .superseded → o'.state = o.state
  /-- A failure is left by an accepted retry, which is recorded. -/
  reopened : ∀ {id o o'}, s.db.operations.lookup id = some o → s'.db.operations.lookup id = some o' →
    o.state = .failed → o'.state ≠ .failed → o'.state = .reconciling ∧
      (∃ t caller, Executes s l t (.db (.retryOperation caller id))) ∧ retriesOf s'.db id = retriesOf s.db id + 1
  /-- A terminal state is entered by a transaction that commits everything. -/
  entered : ∀ {id o o'}, s.db.operations.lookup id = some o → s'.db.operations.lookup id = some o' →
    o.state.active = true → o'.state.active = false → entries s'.db id = entries s.db id + 1 ∧
      ∃ t p code change, p.id = id ∧ Executes s l t (.db (.finish p o'.state code change)) ∧
        Commits s.db s'.db p o'.state code change
  /-- A transaction that does not enter it commits nothing. -/
  committed : ∀ {t p state code change}, Executes s l t (.db (.finish p state code change)) →
    s'.db = s.db ∨ (Commits s.db s'.db p state code change ∧ ∃ o o', s.db.operations.lookup p.id = some o ∧
      s'.db.operations.lookup p.id = some o' ∧ o.state.active = true ∧ o'.state = state)
  /-- An instance gets its identity once, or another one from the reclaim of its
      volume, and from a claim whose lease is current. -/
  identified : ∀ {i b b'}, s.db.bindings.lookup i = some b → s'.db.bindings.lookup i = some b' →
    b'.kubernetesUid ≠ b.kubernetesUid → ∃ t o uid generation row, Executes s l t (.db (.bind o uid generation)) ∧
      held s.db o = true ∧ s.db.operations.lookup o.id = some row ∧ row.instanceId = some i ∧
      b'.kubernetesUid = some uid ∧ (b.kubernetesUid = none ∨
        (row.kind = .reclaim ∧ b.kubernetesUid.isSome ∧ b.kubernetesUid = row.request.previousInstanceUID))
  /-- A new instance has none. -/
  unidentified : ∀ {i b}, s.db.bindings.lookup i = none → s'.db.bindings.lookup i = some b → b.kubernetesUid = none

/-! ### One transaction -/

section
variable {db db' : Db} {c : DbCall}

/-- Only `finish` and a retry change whether an operation is active. -/
theorem Progress.active_eq {id : OperationId} {o o' : Operation} (progress : Progress db c id o o')
    (row : db.operations.lookup id = some o) : o'.state.active = o.state.active ∨
      (∃ p state code change, c = .finish p state code change) ∨ ∃ caller id, c = .retryOperation caller id := by
  cases progress with
  | same | deferred _ | recorded _ => exact .inl rfl
  | claimed free =>
    simp only [claimable,Bool.and_eq_true] at free
    rw [free.1.1]
    simp only [claimedBy]
    split
    · exact .inl rfl
    · exact .inl free.1.1
  | finished holds => exact .inr (.inl ⟨_,_,_,_,rfl⟩)
  | bound holds =>
    obtain ⟨held,row',active,_⟩ := held_some holds
    rw [row] at row'
    cases row'
    rw [active]
    exact .inl rfl
  | resumed may newest instanceId present available => exact .inr (.inr ⟨_,_,rfl⟩)

theorem terminal_eq (txn : Txn db c db') (unfinished : ¬∃ p state code change, c = .finish p state code change)
    (unresumed : ¬∃ caller id, c = .retryOperation caller id) (id : OperationId) : terminal db' id = terminal db id := by
  unfold terminal
  cases row : db.operations.lookup id with
  | none =>
    cases row' : db'.operations.lookup id with
    | none => rfl
    | some o => simp [(Txn.opened txn row row').pending,OpState.active]
  | some o =>
    obtain ⟨o',row',progress⟩ := Txn.operation txn row
    rw [row']
    rcases Progress.active_eq progress row with same | finish | retry
    · simp [same]
    · exact absurd finish unfinished
    · exact absurd retry unresumed

theorem Balanced.cons (balanced : Balanced db) {e : AuditEvent} (rows : db'.audit = e :: db.audit)
    (named : ∀ state, e.action ≠ .entered state) (notRetry : e.action ≠ .operationRetry)
    (same : ∀ id, terminal db' id = terminal db id) : Balanced db' := by
  intro id
  have entry : isEntry id e = false := by
    unfold isEntry
    split
    · rename_i state action; exact absurd action (named state)
    · rfl
  have retry : isRetry id e = false := by simp [isRetry,notRetry]
  have := balanced id
  simp only [entries,retriesOf,rows,List.countP_cons,entry,retry,same] at this ⊢
  simpa using this

theorem Balanced.same (balanced : Balanced db) (rows : db'.audit = db.audit)
    (same : ∀ id, terminal db' id = terminal db id) : Balanced db' := by
  intro id
  have := balanced id
  rwa [entries,retriesOf,rows,same]

/-- What a finished operation does to the counts. -/
theorem Commits.counts {o : Operation} {state : OpState} {code : Option String} {change : Change}
    (commits : Commits db db' o state code change) :
    (∀ id, entries db' id = entries db id + if id = o.id then 1 else 0) ∧
    (∀ id, retriesOf db' id = retriesOf db id) ∧ terminal db o.id = false ∧ terminal db' o.id = true ∧
    ∀ id, id ≠ o.id → terminal db' id = terminal db id := by
  obtain ⟨holds,ceased,settled,settles,rfl⟩ := commits
  obtain ⟨row,found,active,_⟩ := held_some holds
  refine ⟨fun id => ?_,fun id => ?_,by simp [terminal,found,active],?_,fun id other => ?_⟩
  · rw [entries,finished_audit settles,List.countP_cons]
    by_cases same : id = o.id
    · simp [isEntry,same,entries]
    · simp [isEntry,same,entries,Ne.symm same]
  · rw [retriesOf,finished_audit settles,List.countP_cons]
    simp [isRetry,retriesOf]
  · rw [terminal,finished_operations settles,lookup_modify_self,found]
    simp [ended,ceased]
  · rw [terminal,finished_operations settles,lookup_modify_ne other]
    rfl

/-- What a retry does to them. -/
theorem resumed_counts {key : OperationId} {o : Operation} {caller : Caller} {bindings : Table InstanceId Binding}
    {retries : List Retry} (sound : Sound db) (row : db.operations.lookup key = some o) (may : retryable o = true)
    (after : db' = { db with operations := modify key (resumed db.now) db.operations, bindings := bindings
                             retries := retries
                             audit := { admission caller o .operationRetry with code := o.errorCode } :: db.audit }) :
    (∀ id, entries db' id = entries db id) ∧
    (∀ id, retriesOf db' id = retriesOf db id + if id = key then 1 else 0) ∧ terminal db key = true ∧
    terminal db' key = false ∧ ∀ id, id ≠ key → terminal db' id = terminal db id := by
  subst after
  have failed : o.state = .failed := by
    simp only [retryable,Bool.and_eq_true,decide_eq_true_eq] at may
    exact may.1
  refine ⟨fun id => ?_,fun id => ?_,by simp [terminal,row,failed,OpState.active],?_,fun id other => ?_⟩
  · simp only [entries,List.countP_cons]
    simp [isEntry,admission]
  · simp only [retriesOf,List.countP_cons]
    by_cases same : id = key
    · simp [isRetry,admission,same,sound.id row]
    · simp [isRetry,admission,same,sound.id row,Ne.symm same]
  · simp [terminal,row,resumed,OpState.active]
  · simp only [terminal,lookup_modify_ne other]

theorem Balanced.txn (sound : Sound db) (balanced : Balanced db) (txn : Txn db c db')
    (ceased : ∀ o state code change, c = .finish o state code change → state.active = false) : Balanced db' := by
  have keeps := terminal_eq txn
  cases txn with
  | unchanged _ => exact balanced
  | claimed row free => exact balanced.same rfl (keeps (by simp) (by simp))
  | deferred | recorded => exact balanced.same rfl (keeps (by simp) (by simp))
  | bound holds instanceId row may => exact balanced.same rfl (keeps (by simp) (by simp))
  | admitted admits insertable named notRetry =>
    refine balanced.cons rfl named notRetry (keeps ?_ ?_)
    · cases admits <;> simp
    · cases admits <;> simp
  | limited current within => exact balanced.cons rfl (by simp) (by simp) (keeps (by simp) (by simp))
  | projectCreated new unused insertable => exact balanced.cons rfl (by simp) (by simp) (keeps (by simp) (by simp))
  | projectRetried new insertable =>
    exact balanced.cons rfl (by simp [admission]) (by simp [admission]) (keeps (by simp) (by simp))
  | finished holds settles =>
    rename_i o state code change settled
    have commits : Commits db _ o state code change := ⟨holds,ceased o state code change rfl,settled,settles,rfl⟩
    obtain ⟨entered,retried,was,now,others⟩ := commits.counts
    intro id
    rw [entered,retried]
    by_cases same : id = o.id
    · subst same
      have := balanced o.id
      rw [was] at this
      simp only [now,this]
      simp
    · simp only [same,if_false,others id same]
      exact balanced id
  | resumed row may instanceId present available newest alone =>
    rename_i caller key o i b
    obtain ⟨entered,retried,was,now,others⟩ := resumed_counts sound row may rfl
    intro id
    rw [entered,retried]
    by_cases same : id = key
    · subst same
      have := balanced id
      rw [was] at this
      simp only [now,this]
      simp
    · simp only [same,if_false,others id same]
      exact balanced id

end

/-! ### Every run -/

section
variable {s s' : System} {l : Label}

theorem balanced_step (consistent : Consistent s) (balanced : Balanced s.db) (moved : step l s = some s') :
    Balanced s'.db := by
  rcases step_db moved with idle | ⟨t,c,x,pick,v,makes,executes,ran⟩
  · exact balanced.same idle.audit (fun id => by rw [terminal,terminal,idle.operations])
  · refine balanced.txn consistent.sound (transact_cases ran) ?_
    rintro o state code change rfl
    obtain ⟨_,finishes⟩ : Claimed t.history o ∧ Finishes t.history o state change := licensed_makes makes
    exact finishes_over finishes

/-- A committed `finish` of a worker. -/
theorem commits_of_txn {db db' : Db} {p : Operation} {state : OpState} {code : Option String} {change : Change}
    (ceased : state.active = false) (txn : Txn db (.finish p state code change) db') :
    db' = db ∨ Commits db db' p state code change := by
  cases txn with
  | unchanged _ => exact .inl rfl
  | finished holds settles => exact .inr ⟨holds,ceased,_,settles,rfl⟩
  | admitted admits _ _ _ => cases admits

theorem Commits.rows {db db' : Db} {p : Operation} {state : OpState} {code : Option String} {change : Change}
    (commits : Commits db db' p state code change) :
    ∃ o, db.operations.lookup p.id = some o ∧ o.state.active = true ∧
      db'.operations.lookup p.id = some (ended db.now state code o) := by
  obtain ⟨holds,_,settled,settles,rfl⟩ := commits
  obtain ⟨row,found,active,_⟩ := held_some holds
  refine ⟨row,found,active,?_⟩
  rw [finished_operations settles,lookup_modify_self,found]
  rfl

/-- What is over stays as it is, or has failed and is retried. -/
theorem Progress.ceased {db : Db} {c : DbCall} {id : OperationId} {o o' : Operation} (progress : Progress db c id o o')
    (row : db.operations.lookup id = some o) (ceased : o.state.active = false) : o'.state = o.state ∨
      (o.state = .failed ∧ o'.state = .reconciling ∧ ∃ caller, c = .retryOperation caller id) := by
  have unheld : ∀ {p : Operation} {P : Prop}, held db p = true → db.operations.lookup p.id = some o → P := by
    intro p P holds row
    obtain ⟨row',found,active,_⟩ := held_some holds
    rw [row] at found
    cases found
    rw [ceased] at active
    cases active
  cases progress with
  | same | deferred _ | recorded _ => exact .inl rfl
  | claimed free =>
    simp only [claimable,Bool.and_eq_true] at free
    rw [ceased] at free
    cases free.1.1
  | finished holds => exact unheld holds row
  | bound holds => exact unheld holds row
  | resumed may newest instanceId present available =>
    simp only [retryable,Bool.and_eq_true,decide_eq_true_eq] at may
    exact .inr ⟨may.1,rfl,_,rfl⟩

/-- A retry that opens an operation is recorded once. -/
theorem retried_count {db db' : Db} (sound : Sound db) {caller : Caller} {id : OperationId} {o o' : Operation}
    (txn : Txn db (.retryOperation caller id) db') (row : db.operations.lookup id = some o)
    (row' : db'.operations.lookup id = some o') (opens : o'.state ≠ o.state) :
    retriesOf db' id = retriesOf db id + 1 := by
  cases txn with
  | unchanged _ =>
    rw [row] at row'
    cases row'
    exact absurd rfl opens
  | admitted admits _ _ _ => cases admits
  | resumed found may instanceId present available newest alone =>
    obtain ⟨_,retried,_⟩ := resumed_counts sound found may rfl
    rw [retried]
    simp

theorem exactlyOnce (consistent : Consistent s) (moved : step l s = some s') : ExactlyOnce s l s' := by
  -- the row after the step is what the transaction made of it
  have row_after : ∀ {id o o'}, s.db.operations.lookup id = some o → s'.db.operations.lookup id = some o' →
      o' = o ∨ ∃ t c x pick v, Makes s s' t (.db c) x ∧ Executes s l t (.db c) ∧
        transact pick s.db c = .ok (s'.db,v) ∧ Progress s.db c id o o' := by
    intro id o o' row row'
    rcases step_db moved with idle | ⟨t,c,x,pick,v,makes,executes,ran⟩
    · rw [idle.operations,row] at row'
      cases row'
      exact .inl rfl
    · obtain ⟨o'',row'',progress⟩ := Txn.operation (transact_cases ran) row
      rw [row'] at row''
      cases row''
      exact .inr ⟨t,c,x,pick,v,makes,executes,ran,progress⟩
  refine
    { absorbing := ?_, reopened := ?_, entered := ?_, committed := ?_, identified := ?_, unidentified := ?_ }
  · intro id o o' row row' final
    have ceased : o.state.active = false := by rcases final with final | final <;> rw [final] <;> rfl
    rcases row_after row row' with rfl | ⟨_,_,_,_,_,_,_,_,progress⟩
    · rfl
    · rcases Progress.ceased progress row ceased with same | ⟨failed,_⟩
      · exact same
      · rcases final with final | final <;> rw [final] at failed <;> cases failed
  · intro id o o' row row' failed left
    rcases row_after row row' with rfl | ⟨t,_,_,_,_,_,executes,ran,progress⟩
    · exact absurd failed left
    · rcases Progress.ceased progress row (by rw [failed]; rfl) with same | ⟨_,state,caller,rfl⟩
      · exact absurd (same.trans failed) left
      · exact ⟨state,⟨t,caller,executes⟩,
          retried_count consistent.sound (transact_cases ran) row row' (by rw [failed]; exact left)⟩
  · intro id o o' row row' active ceased
    rcases row_after row row' with rfl | ⟨t,_,_,_,_,makes,executes,ran,progress⟩
    · rw [active] at ceased; cases ceased
    · rcases progress.stays active with active' | ⟨p,state,code,change,rfl,rfl,rfl⟩
      · rw [ceased] at active'; cases active'
      · rcases commits_of_txn ceased (transact_cases ran) with same | commits
        · rw [same,row] at row'
          have := congrArg (fun q => q.state.active) (Option.some.inj row')
          simp only [active,ceased] at this
          cases this
        · obtain ⟨entered,_⟩ := commits.counts
          exact ⟨by rw [entered]; simp,t,p,code,change,rfl,executes,commits⟩
  · intro t p state code change executes
    obtain ⟨x,makes,heard⟩ := executes_heard executes moved
    cases heard with
    | transacted executes ran kube answer =>
      obtain ⟨_,finishes⟩ : Claimed t.history p ∧ Finishes t.history p state change := licensed_makes makes
      rcases commits_of_txn (finishes_over finishes) (transact_cases ran) with same | commits
      · exact .inl same
      · obtain ⟨o,row,active,row'⟩ := commits.rows
        exact .inr ⟨commits,o,_,row,row',active,rfl⟩
    | aborted db kube why => exact .inl db
  · intro i b b' row row' changed
    rcases step_db moved with idle | ⟨t,c,x,pick,v,makes,executes,ran⟩
    · rw [idle.bindings,row] at row'
      cases row'
      exact absurd rfl changed
    · obtain ⟨b'',row'',becomes⟩ := Txn.binding (transact_cases ran) row
      rw [row'] at row''
      cases row''
      rcases becomes.uid with same | ⟨o,uid,generation,rfl,holds,own,may,uid'⟩
      · exact absurd same changed
      · obtain ⟨claimed,_⟩ : Claimed t.history o ∧ _ := licensed_makes makes
        obtain ⟨held,found,same⟩ := consistent.copy makes.member claimed
        refine ⟨t,o,uid,generation,held,executes,holds,found,(asked_instanceId same).trans own,uid',?_⟩
        simp only [bindable,Bool.and_eq_true,Bool.or_eq_true,decide_eq_true_eq] at may
        rcases may.2 with (none' | already) | ⟨⟨kind,some'⟩,previous⟩
        · exact .inl none'
        · exact absurd (uid'.trans already.symm) changed
        · exact .inr ⟨(asked_kind same).trans kind,some',previous.trans (asked_previous same).symm⟩
  · intro i b missing row
    rcases step_db moved with idle | ⟨t,c,x,pick,v,makes,executes,ran⟩
    · rw [idle.bindings,missing] at row
      cases row
    · obtain ⟨_,_,_,_,_,_,_,_,_,_,new,_⟩ := Txn.provisioned (transact_cases ran) missing row
      rw [new]
      rfl

/-- In every state that a platform reaches, an operation has entered a terminal state
    once and then once more for every retry, its credentials are gone in a terminal
    state, and every next step completes operations exactly once. -/
theorem operations_complete_once {s₀ : System} (start : Start s₀) (reached : Reaches step (fun _ _ => True) s₀ s) :
    Balanced s.db ∧
    (∀ {id o}, s.db.operations.lookup id = some o → o.state.active = false → o.secretPayload = none) ∧
    ∀ {l s'}, step l s = some s' → ExactlyOnce s l s' := by
  have holds : Consistent s ∧ Balanced s.db := by
    refine reached.invariant (I := fun s => Consistent s ∧ Balanced s.db) ⟨Consistent.start start,?_⟩ ?_
    · intro id
      simp [entries,retriesOf,terminal,start.audit,start.operations]
    · rintro t u l ⟨consistent,balanced⟩ _ moved
      exact ⟨consistent.step moved,balanced_step consistent balanced moved⟩
  obtain ⟨consistent,balanced⟩ := holds
  exact ⟨balanced,fun row ceased => (consistent.sound.ended row ceased).2,fun moved => exactlyOnce consistent moved⟩

end

/-- A creation that has failed is retried, and its worker is about to report success. -/
def recovering : List Label :=
  retrying ++ [reports 1 "True" "Ready",.wait 3,.tick false] ++ calls 4 4 { operation := 100 }
def succeeds : Label := .run 4 .delivered { operation := 100 }

theorem operations_complete_once_recovering : ∃ s s', Reaches step (fun _ _ => True) small s ∧ step succeeds s = some s' ∧
    entries s.db 100 = 1 ∧ entries s'.db 100 = 2 ∧ retriesOf s'.db 100 = 1 ∧ Balanced s.db ∧ ExactlyOnce s succeeds s' := by
  obtain ⟨s,reached,holds⟩ := reaches_of_run (fun _ _ _ => trivial)
    (show (run step (fun _ _ => true) recovering small).any (fun s => decide (entries s.db 100 = 1) &&
      (step succeeds s).any (fun s' => decide (entries s'.db 100 = 2 ∧ retriesOf s'.db 100 = 1))) = true by decide +kernel)
  simp only [Bool.and_eq_true,Option.any_eq_true,decide_eq_true_eq] at holds
  obtain ⟨once,s',moved,twice,retried⟩ := holds
  obtain ⟨balanced,_,exactly⟩ := operations_complete_once small_start reached
  exact ⟨s,s',reached,moved,once,twice,retried,balanced,exactly moved⟩

end Expbuild.Completion
