import Expbuild.Versions

/-!
No worker deletes the Secret that the object of an instance refers to, as long as a
creation and the cleanup of a deletion are not later than the next operation on the
instance (`Fenced`).

Every Secret was issued by one operation, so that Secrets are ordered by the admission
of these. A worker deletes what was issued before its own operation, and whatever it
observed, the object refers from then on to nothing that was issued before its own
operation (`AtLeast`).
-/
namespace Expbuild.Credentials
open Expbuild.Contract Expbuild.Schema Expbuild.Tables Expbuild.Objects Expbuild.Programs Expbuild.Runs
open Expbuild.Calls Expbuild.Kubernetes Expbuild.Transactions Expbuild.Effects Expbuild.Platform Expbuild.ApiServer
open Expbuild.Licences Expbuild.Licensing Expbuild.Rows Expbuild.Reservations Expbuild.Origins Expbuild.Versions

/-- Only the platform writes, no creation puts an object under a free name and no
    deletion asks for the names of Secrets after a later operation on the instance was
    admitted. -/
structure Fenced (s : System) (l : Label) : Prop where
  ours : Ours s l
  timely : ∀ t body o, Executes s l t (.kube (.createInstance body)) → s.kube.at (body.ns,body.name) = none →
    Claimed t.history o → ¬Outdated s.db o
  current : ∀ t i o, Executes s l t (.db (.credentialNames i)) → Claimed t.history o → ¬Outdated s.db o

/-! ### Who issued a Secret -/

/-- The operation issued the Secret of this name for the instance. -/
structure Issues (db : Db) (o : Operation) (i : InstanceId) (name : SecretName) : Prop where
  row : db.operations.lookup o.id = some o
  own : o.instanceId = some i
  named : (name = .initial i ∧ o.kind = .create) ∨ (name = .issued o.id ∧ (o.kind = .rotate ∨ o.kind = .reclaim))

/-- The Secret was issued at this time. -/
def IssuedAt (db : Db) (i : InstanceId) (name : SecretName) (time : Nat) : Prop :=
  ∃ o, Issues db o i name ∧ o.createdAt = time

/-- The creation of an instance is its first operation. -/
structure Eldest (db : Db) : Prop where
  le : ∀ {id id' o p}, db.operations.lookup id = some o → o.kind = .create → db.operations.lookup id' = some p →
    p.instanceId = o.instanceId → o.createdAt ≤ p.createdAt

section
variable {db db' : Db}

theorem Issues.evolves (evolves : Evolves db db') {o : Operation} {i : InstanceId} {name : SecretName}
    (issues : Issues db o i name) : ∃ o', Issues db' o' i name ∧ o'.createdAt = o.createdAt := by
  obtain ⟨o',row,same⟩ := evolves.operations issues.row
  refine ⟨o',⟨?_,(asked_instanceId same).trans issues.own,?_⟩,asked_createdAt same⟩
  · rw [asked_id same]
    exact row
  · rw [asked_id same,asked_kind same]
    exact issues.named

theorem IssuedAt.evolves (evolves : Evolves db db') {i : InstanceId} {name : SecretName} {time : Nat}
    (issued : IssuedAt db i name time) : IssuedAt db' i name time := by
  obtain ⟨o,issues,rfl⟩ := issued
  exact issues.evolves evolves

/-- A Secret is issued once, for one instance. -/
theorem IssuedAt.unique (eldest : Eldest db) {i j : InstanceId} {name : SecretName} {time time' : Nat}
    (issued : IssuedAt db i name time) (issued' : IssuedAt db j name time') : i = j ∧ time = time' := by
  obtain ⟨o,⟨row,own,named⟩,rfl⟩ := issued
  obtain ⟨p,⟨row',own',named'⟩,rfl⟩ := issued'
  rcases named with ⟨first,kind⟩ | ⟨first,_⟩ <;> rcases named' with ⟨second,kind'⟩ | ⟨second,_⟩
  · rw [first] at second
    cases second
    have placed : p.instanceId = o.instanceId := own'.trans own.symm
    exact ⟨rfl,Nat.le_antisymm (eldest.le row kind row' placed) (eldest.le row' kind' row placed.symm)⟩
  · rw [first] at second
    cases second
  · rw [first] at second
    cases second
  · rw [first] at second
    have id : o.id = p.id := by injection second
    rw [← id,row] at row'
    cases row'
    exact ⟨Option.some.inj (own.symm.trans own'),rfl⟩

/-- Nothing is issued on an instance after its newest operation. -/
theorem IssuedAt.le_newest {o : Operation} {i : InstanceId} {name : SecretName} {time : Nat}
    (issued : IssuedAt db i name time) (own : o.instanceId = some i) (newest : ¬Outdated db o) : time ≤ o.createdAt := by
  obtain ⟨p,issues,rfl⟩ := issued
  by_contra later
  exact newest ⟨p.id,p,issues.row,issues.own.trans own.symm,Nat.lt_of_not_le later⟩

end

/-- A creation is admitted for a new instance. -/
theorem Admits.unused {db : Db} {c : DbCall} {o : Operation} {bindings : Table InstanceId Binding}
    {credentials : List Credential} (admits : Admits db c o bindings credentials) (kind : o.kind = .create) :
    ∃ i, o.instanceId = some i ∧ db.bindings.lookup i = none := by
  cases admits with
  | create locked asked unused new within => exact ⟨_,rfl,unused⟩
  | update _ _ _ _ _ | rotate | delete _ _ _ _ _ | volumeDelete _ _ _ _ _ | reclaim _ _ _ _ _ => cases kind

section
variable {s s' : System} {l : Label}

theorem eldest_step (sound : Sound s.db) (eldest : Eldest s.db) (moved : step l s = some s') : Eldest s'.db := by
  have evolves := step_evolves moved
  refine ⟨fun {id id' o p} row kind row' placed => ?_⟩
  cases was : s.db.operations.lookup id' with
  | none =>
    -- a new operation is not older than any other
    have new := evolves.admitted row' was
    rw [new]
    cases was' : s.db.operations.lookup id with
    | none => exact Nat.le_of_eq (evolves.admitted row was')
    | some o₀ =>
      obtain ⟨o',found,same⟩ := evolves.operations was'
      rw [row] at found
      cases found
      rw [asked_createdAt same]
      exact Nat.le_of_lt (sound.created was')
  | some p₀ =>
    obtain ⟨p',found,same⟩ := evolves.operations was
    rw [row'] at found
    cases found
    cases was' : s.db.operations.lookup id with
    | some o₀ =>
      obtain ⟨o',found,same'⟩ := evolves.operations was'
      rw [row] at found
      cases found
      rw [asked_createdAt same,asked_createdAt same']
      exact eldest.le was' ((asked_kind same').symm.trans kind) was
        ((asked_instanceId same).symm.trans (placed.trans (asked_instanceId same')))
    | none =>
      -- a creation is admitted for an instance that nothing was asked of before
      rcases step_db moved with idle | ⟨t,c,x,pick,v,makes,executes,ran⟩
      · rw [idle.operations,was'] at row
        cases row
      · rcases (Txn.opened (transact_cases ran) was' row).admitted with admits | ⟨project,_⟩
        · obtain ⟨i,own,unused⟩ := Admits.unused admits kind
          obtain ⟨b,present,_⟩ := sound.owned was ((asked_instanceId same).symm.trans (placed.trans own))
          rw [unused] at present
          cases present
        · rw [project] at kind
          cases kind

end

/-! ### The table of credentials -/

/-- What never changes of a row. -/
def ticket (c : Credential) : InstanceId × SecretName × Nat := (c.instanceId,c.secretName,c.revision)

/-- Every row was issued, and revisions of an instance are in the order of time. -/
structure Ledger (db : Db) : Prop where
  issued : ∀ c ∈ db.credentials, ∃ time, IssuedAt db c.instanceId c.secretName time
  ordered : ∀ c ∈ db.credentials, ∀ c' ∈ db.credentials, c.instanceId = c'.instanceId → c.revision < c'.revision →
    ∀ time time', IssuedAt db c.instanceId c.secretName time → IssuedAt db c'.instanceId c'.secretName time' →
      time < time'

section
variable {db db' : Db}

theorem updateCredentials_tickets (i : Option InstanceId) (state : SecretName → CredentialState) (db : Db) :
    (updateCredentials i state db).credentials.map ticket = db.credentials.map ticket := by
  simp only [updateCredentials,List.map_map]
  refine List.map_congr_left (fun c _ => ?_)
  simp only [Function.comp,ticket]
  split <;> rfl

theorem applyChange_tickets (o : Operation) (change : Change) (db : Db) :
    (applyChange o change db).credentials.map ticket = db.credentials.map ticket := by
  have kept : ∀ f, (updateBinding o.instanceId f db).credentials = db.credentials := fun f =>
    (updateBinding_other _ _ _).2.2.2.2
  cases change with
  | nothing | projectReady => rfl
  | volumeDeleted => rw [applyChange,kept]
  | released policy => rw [applyChange,updateCredentials_tickets,kept]
  | activated displayName secretName => rw [applyChange,updateCredentials_tickets,kept]

theorem finished_tickets {o : Operation} {state : OpState} {code : Option String} {change : Change} {settled : Db}
    (settles : settleFinished o state (applyChange o change db) = .ok settled) (e : AuditEvent) :
    (audit e (markFailed o state (updateOperation o.id (ended db.now state code) settled))).credentials.map ticket =
      db.credentials.map ticket := by
  change (markFailed o state (updateOperation o.id (ended db.now state code) settled)).credentials.map ticket = _
  rw [markFailed_other.2.2.2]
  change settled.credentials.map ticket = _
  rw [(settleFinished_ok settles).2.2.2.2.2,applyChange_tickets]

/-- A row with the ticket of another one, from before. -/
theorem Ledger.same (ledger : Ledger db) (evolves : Evolves db db') (eldest : Eldest db')
    (tickets : db'.credentials.map ticket = db.credentials.map ticket) : Ledger db' := by
  have before : ∀ {c}, c ∈ db'.credentials → ∃ c₀ ∈ db.credentials, ticket c₀ = ticket c := by
    intro c member
    exact List.mem_map.mp (tickets ▸ List.mem_map_of_mem member)
  constructor
  · intro c member
    obtain ⟨c₀,member₀,same⟩ := before member
    obtain ⟨time,issued⟩ := ledger.issued c₀ member₀
    simp only [ticket,Prod.mk.injEq] at same
    rw [same.1,same.2.1] at issued
    exact ⟨time,issued.evolves evolves⟩
  · intro c member c' member' instanceId less time time' issued issued'
    obtain ⟨c₀,member₀,same⟩ := before member
    obtain ⟨c₁,member₁,same'⟩ := before member'
    simp only [ticket,Prod.mk.injEq] at same same'
    obtain ⟨t₀,issued₀⟩ := ledger.issued c₀ member₀
    obtain ⟨t₁,issued₁⟩ := ledger.issued c₁ member₁
    have less₀ := ledger.ordered c₀ member₀ c₁ member₁ (same.1.trans (instanceId.trans same'.1.symm))
      (by rw [same.2.2,same'.2.2]; exact less) t₀ t₁ issued₀ issued₁
    rw [same.1,same.2.1] at issued₀
    rw [same'.1,same'.2.1] at issued₁
    rw [((issued₀.evolves evolves).unique eldest issued).2,((issued₁.evolves evolves).unique eldest issued').2] at less₀
    exact less₀

/-- A new row, issued after all others. -/
theorem Ledger.cons {new : Credential} {time : Nat} (ledger : Ledger db) (evolves : Evolves db db') (eldest : Eldest db')
    (credentials : db'.credentials = new :: db.credentials) (issued : IssuedAt db' new.instanceId new.secretName time)
    (later : ∀ {i name t}, IssuedAt db i name t → t < time)
    (greater : ∀ c ∈ db.credentials, c.instanceId = new.instanceId → c.revision < new.revision) : Ledger db' := by
  constructor
  · intro c member
    rw [credentials] at member
    rcases List.mem_cons.mp member with rfl | member
    · exact ⟨time,issued⟩
    · obtain ⟨t,issued⟩ := ledger.issued c member
      exact ⟨t,issued.evolves evolves⟩
  · intro c member c' member' instanceId less t t' first second
    rw [credentials] at member member'
    rcases List.mem_cons.mp member with same | old <;> rcases List.mem_cons.mp member' with same' | old'
    · rw [same,same'] at less
      omega
    · rw [same] at less instanceId
      have := greater c' old' instanceId.symm
      omega
    · obtain ⟨t₀,issued₀⟩ := ledger.issued c old
      rw [same'] at second
      rw [(issued.unique eldest second).2.symm,((issued₀.evolves evolves).unique eldest first).2.symm]
      exact later issued₀
    · obtain ⟨t₀,issued₀⟩ := ledger.issued c old
      obtain ⟨t₁,issued₁⟩ := ledger.issued c' old'
      have := ledger.ordered c old c' old' instanceId less t₀ t₁ issued₀ issued₁
      rwa [((issued₀.evolves evolves).unique eldest first).2,((issued₁.evolves evolves).unique eldest second).2] at this

theorem lt_nextRevision {i : InstanceId} {c : Credential} (member : c ∈ db.credentials) (own : c.instanceId = i) :
    c.revision < nextRevision db i := by
  have le : ∀ (rs : List Nat) (r : Nat), r ∈ rs → r ≤ rs.foldr max 0 := by
    intro rs r member
    induction rs with
    | nil => cases member
    | cons first rest ih =>
      rcases List.mem_cons.mp member with rfl | member
      · exact Nat.le_max_left _ _
      · exact Nat.le_trans (ih member) (Nat.le_max_right _ _)
  refine Nat.lt_succ_of_le (le _ _ ?_)
  simp only [List.mem_map,List.mem_filter,decide_eq_true_eq]
  exact ⟨c,⟨member,own⟩,rfl⟩

end

section
variable {s s' : System} {l : Label}

/-- What an admission adds to the table. -/
theorem Admits.issues {t : Running} {c : DbCall} {x : (Call.db c).Answer} {o : Operation}
    {bindings : Table InstanceId Binding} {credentials : List Credential} (makes : Makes s s' t (.db c) x)
    (admits : Admits s.db c o bindings credentials) : credentials = s.db.credentials ∨ ∃ i name revision,
      credentials = ⟨i,name,revision,.pending⟩ :: s.db.credentials ∧ o.instanceId = some i ∧
      ((name = .initial i ∧ o.kind = .create) ∨ (name = .issued o.id ∧ (o.kind = .rotate ∨ o.kind = .reclaim))) ∧
      (s.db.bindings.lookup i = none ∨ revision = nextRevision s.db i) := by
  cases admits with
  | create locked asked unused new within => exact .inr ⟨_,_,_,rfl,rfl,.inl ⟨rfl,rfl⟩,.inl unused⟩
  | rotate => exact .inr ⟨_,_,_,rfl,rfl,.inr ⟨rfl,.inl rfl⟩,.inr rfl⟩
  | reclaim present owner retained same within =>
    obtain ⟨_,_,_,_,_,_,_,rfl⟩ := licensed_makes makes
    exact .inr ⟨_,_,_,rfl,rfl,.inr ⟨rfl,.inr rfl⟩,.inr rfl⟩
  | update _ _ _ _ _ | delete _ _ _ _ _ | volumeDelete _ _ _ _ _ => exact .inl rfl

theorem ledger_step (sound : Sound s.db) (eldest : Eldest s.db) (ledger : Ledger s.db) (moved : step l s = some s') :
    Ledger s'.db := by
  have evolves := step_evolves moved
  have eldest' := eldest_step sound eldest moved
  rcases step_db moved with idle | ⟨t,c,x,pick,v,makes,executes,ran⟩
  · exact ledger.same evolves eldest' (by rw [idle.credentials])
  · have sound' := step_sound sound moved
    have txn := transact_cases ran
    generalize s'.db = db' at *
    cases txn with
    | finished holds settles => exact ledger.same evolves eldest' (finished_tickets settles _)
    | admitted admits insertable named notRetry =>
      rename_i o bindings credentials caller action
      rcases Admits.issues makes admits with same | ⟨i,name,revision,cons,own,names,first⟩
      · exact ledger.same evolves eldest' (by rw [same])
      · refine ledger.cons evolves eldest' cons ⟨o,⟨AList.lookup_insert _,own,names⟩,rfl⟩ ?_ ?_
        · rintro j name' time ⟨p,issues,rfl⟩
          rw [(Admits.opened admits).1]
          exact sound.created issues.row
        · intro c member instanceId
          rcases first with unused | rfl
          · -- nothing was issued for an instance that is new
            obtain ⟨_,p,issues,_⟩ := ledger.issued c member
            obtain ⟨b,present,_⟩ := sound.owned issues.row issues.own
            rw [instanceId,unused] at present
            cases present
          · exact lt_nextRevision member instanceId
    | unchanged _ | claimed _ _ | deferred | bound _ _ _ _ | recorded | resumed _ _ _ _ _ _ _ | limited _ _
    | projectCreated _ _ _ | projectRetried _ _ => exact ledger.same evolves eldest' rfl

end

/-! ### What the objects refer to -/

def secretRef (e : Object) : SecretName := e.spec.access.credentialsSecretRef

/-- What the live object under the key refers to was not issued before this time. -/
def AtLeast (s : System) (k : Key) (i : InstanceId) (time : Nat) : Prop :=
  ∀ e t, s.kube.at k = some e → IssuedAt s.db i (secretRef e) t → time ≤ t

/-- What holds of versions and what they refer to. -/
structure Referring (s : System) : Prop where
  written : Written s
  eldest : Eldest s.db
  ledger : Ledger s.db
  refers : ∀ e ∈ s.kube.objects.past, ∀ ns i, e.key = (ns,⟨i⟩) → ∃ time, IssuedAt s.db i (secretRef e) time
  /-- A live object refers to nothing older than any version before it. -/
  rises : ∀ e ∈ s.kube.objects.past, ∀ ns i time, e.key = (ns,⟨i⟩) → IssuedAt s.db i (secretRef e) time →
    AtLeast s (ns,⟨i⟩) i time
  /-- An update expects a revision that refers to something older than the update. -/
  expects : ∀ {id o i}, s.db.operations.lookup id = some o → o.kind = .update ∨ o.kind = .rotate →
    o.instanceId = some i → ∃ e ∈ s.kube.objects.past, o.request.expectedRevision = some (revision (render e)) ∧
      ∃ time, IssuedAt s.db i (secretRef e) time ∧ time < o.createdAt

/-- What a new version refers to: to the same as the live object, or to something
    issued since, or its object is new. -/
inductive Refers (s : System) (l : Label) (e' : Object) (i : InstanceId) (k : Key) : Prop where
  | later {e : Object} {t t' : Nat} (present : s.kube.at k = some e) (before : IssuedAt s.db i (secretRef e) t)
      (after : IssuedAt s.db i (secretRef e') t') (le : t ≤ t')
  | new {o : Operation} {ns : Namespace} {desired : Manifest} (creation : Creation s l o i ns desired)
      (issues : IssuedAt s.db i (secretRef e') o.createdAt)

section
variable {s s' : System} {l : Label} {o : Operation} {i : InstanceId} {ns : Namespace} {desired : Manifest} {e e' : Object}

theorem updates_kind (applies : o.kind.applies = true) (updates : o.kind.creates = false) :
    o.kind = .update ∨ o.kind = .rotate := by
  cases kind : o.kind <;> simp [kind,Kind.applies,Kind.creates] at applies updates ⊢

/-- What the object of a creation refers to is issued by the creation. -/
theorem creation_issues (referring : Referring s) (creation : Creation s l o i ns desired) :
    IssuedAt s.db i desired.spec.access.credentialsSecretRef o.createdAt := by
  have author := creation.author
  have creates := creation.creates
  refine ⟨o,⟨author.row,author.own,?_⟩,rfl⟩
  have none' : ∀ {kind : Kind}, o.kind = kind → kind.creates = false → False := by
    rintro kind rfl other
    rw [creates] at other
    cases other
  cases referring.written.grounded.origins author.row with
  | create kind own located asks =>
    obtain rfl := Option.some.inj (author.own.symm.trans own)
    obtain rfl := Option.some.inj (author.asks.symm.trans asks)
    exact .inl ⟨rfl,kind⟩
  | reclaim kind own located member identity project previous asks =>
    obtain rfl := Option.some.inj (author.asks.symm.trans asks)
    exact .inr ⟨rfl,.inr kind⟩
  | project kind | update kind _ _ _ _ _ _ _ | rotate kind _ _ _ _ _ _ | delete kind _ _ _ _ _
  | volumeDelete kind _ _ _ _ => exact (none' kind rfl).elim

/-- What an update writes refers to what it found, or to what it issues. -/
theorem update_issues (referring : Referring s) (update : Update s l o i ns desired e) :
    ∃ t t', IssuedAt s.db i (secretRef e) t ∧ IssuedAt s.db i desired.spec.access.credentialsSecretRef t' ∧ t ≤ t' := by
  have author := update.author
  have grounded := referring.written.grounded
  have live := grounded.wf.past update.present
  obtain ⟨e₀,member₀,expected₀,t,issued₀,older⟩ := referring.expects author.row
    (updates_kind author.applies update.updates) author.own
  -- a version of the expected revision says what the live object does
  have equal : ∀ {e₁ : Object}, e₁ ∈ s.kube.objects.past →
      o.request.expectedRevision = some (revision (render e₁)) → secretRef e₁ = secretRef e := by
    intro e₁ member expected
    have level := Option.some.inj (expected.symm.trans update.expected)
    simp only [revision,render,Revision.mk.injEq,Option.some.injEq] at level
    exact congrArg (fun spec => spec.access.credentialsSecretRef)
      (grounded.wf.generation_spec member live level.1 level.2)
  rw [equal member₀ expected₀] at issued₀
  have none' : ∀ {kind : Kind}, o.kind = kind → kind ≠ .update → kind ≠ .rotate → False := by
    rintro kind rfl first second
    rcases updates_kind author.applies update.updates with kind | kind
    · exact first kind
    · exact second kind
  cases grounded.origins author.row with
  | update kind own located member key expected project asks =>
    obtain rfl := Option.some.inj (author.asks.symm.trans asks)
    refine ⟨t,t,issued₀,?_,Nat.le_refl t⟩
    rw [← equal member expected] at issued₀
    exact issued₀
  | rotate kind own located member key expected asks =>
    obtain rfl := Option.some.inj (author.asks.symm.trans asks)
    exact ⟨t,o.createdAt,issued₀,⟨o,⟨author.row,author.own,.inr ⟨rfl,.inl kind⟩⟩,rfl⟩,Nat.le_of_lt older⟩
  | project kind | create kind _ _ _ | delete kind _ _ _ _ _ | volumeDelete kind _ _ _ _
  | reclaim kind _ _ _ _ _ _ _ => exact (none' kind (by simp) (by simp)).elim

theorem adds_refers (referring : Referring s) (adds : Adds s l e') (key : e'.key = (ns,⟨i⟩)) :
    Refers s l e' i (ns,⟨i⟩) := by
  have wf := referring.written.grounded.wf
  -- a version that only follows the live one
  have follows : ∀ {k : Key} {e : Object}, s.kube.at k = some e → e'.key = e.key → e'.spec = e.spec →
      Refers s l e' i (ns,⟨i⟩) := by
    intro k e present same spec
    have placed : e.key = (ns,⟨i⟩) := same.symm.trans key
    obtain ⟨t,issued⟩ := referring.refers e (wf.past present) ns i placed
    rw [← wf.key present,placed] at present
    refine .later present issued ?_ (Nat.le_refl t)
    rw [secretRef,spec]
    exact issued
  cases adds with
  | touched present touches => exact follows present touches.key touches.spec
  | marked present eq => exact follows present (by rw [eq]) (by rw [eq])
  | created creation eq =>
    rename_i o' j ns' desired'
    rw [eq] at key
    cases key
    rw [eq]
    exact .new creation (creation_issues referring creation)
  | updated update eq =>
    rename_i o' j ns' desired' e₀
    have placed : e₀.key = (ns',⟨j⟩) := wf.key update.present
    rw [eq] at key
    cases placed.symm.trans (show e₀.key = (ns,⟨i⟩) from key)
    obtain ⟨t,t',before,after,le⟩ := update_issues referring update
    rw [eq]
    exact .later update.present before after le

end

/-! ### One step -/

section
variable {s s' : System} {l : Label} {i : InstanceId} {ns : Namespace}

/-- What a version referred to before a step is what it refers to after it. -/
theorem Referring.before (referring : Referring s) (evolves : Evolves s.db s'.db) (eldest : Eldest s'.db) {e : Object}
    {time : Nat} (member : e ∈ s.kube.objects.past) (key : e.key = (ns,⟨i⟩))
    (issued : IssuedAt s'.db i (secretRef e) time) : IssuedAt s.db i (secretRef e) time := by
  obtain ⟨t,before⟩ := referring.refers e member ns i key
  rw [((before.evolves evolves).unique eldest issued).2] at before
  exact before

/-- What refers to nothing older than an operation on the instance keeps doing so. -/
theorem at_least_step (referring : Referring s) (fenced : Fenced s l) (moved : step l s = some s')
    {p : Operation} (row : s.db.operations.lookup p.id = some p) (own : p.instanceId = some i)
    (least : AtLeast s (ns,⟨i⟩) i p.createdAt) : AtLeast s' (ns,⟨i⟩) i p.createdAt := by
  have grounded := referring.written.grounded
  have evolves := step_evolves moved
  have eldest := eldest_step grounded.consistent.sound referring.eldest moved
  intro e' t' found issued
  rcases (step_edits grounded fenced.ours moved).live found with found | ⟨adds,key⟩
  · exact least e' t' found (referring.before evolves eldest (grounded.wf.past found) (grounded.wf.key found) issued)
  · cases adds_refers referring adds key with
    | later present before after le =>
      rw [← ((after.evolves evolves).unique eldest issued).2]
      exact Nat.le_trans (least _ _ present before) le
    | new creation issues =>
      -- a creation that is allowed is the newest operation
      rw [← ((issues.evolves evolves).unique eldest issued).2]
      obtain ⟨t,q,executes,claimed,same⟩ := creation.claimed
      have absent := creation.absent
      rw [← creation.author.key] at absent
      have newest := fenced.timely t _ q executes absent claimed
      rw [← outdated_congr same] at newest
      by_contra older
      exact newest ⟨p.id,p,row,own.trans creation.author.own.symm,Nat.lt_of_not_le older⟩

theorem refers_step (referring : Referring s) (ours : Ours s l) (moved : step l s = some s') {e : Object}
    (member : e ∈ s'.kube.objects.past) (key : e.key = (ns,⟨i⟩)) : ∃ time, IssuedAt s'.db i (secretRef e) time := by
  have evolves := step_evolves moved
  rcases (step_edits referring.written.grounded ours moved).past member with member | ⟨adds,_⟩
  · obtain ⟨time,issued⟩ := referring.refers e member ns i key
    exact ⟨time,issued.evolves evolves⟩
  · cases adds_refers referring adds key with
    | later present before after le => exact ⟨_,after.evolves evolves⟩
    | new creation issues => exact ⟨_,issues.evolves evolves⟩

theorem rises_step (referring : Referring s) (fenced : Fenced s l) (moved : step l s = some s') {e : Object} {time : Nat}
    (member : e ∈ s'.kube.objects.past) (key : e.key = (ns,⟨i⟩)) (issued : IssuedAt s'.db i (secretRef e) time) :
    AtLeast s' (ns,⟨i⟩) i time := by
  have grounded := referring.written.grounded
  have evolves := step_evolves moved
  have eldest := eldest_step grounded.consistent.sound referring.eldest moved
  rcases (step_edits grounded fenced.ours moved).past member with member | ⟨_,live⟩
  · have before := referring.before evolves eldest member key issued
    have least := referring.rises e member ns i time key before
    obtain ⟨p,issues,rfl⟩ := before
    exact at_least_step referring fenced moved issues.row issues.own least
  · intro e' t found issued'
    rw [← key,live] at found
    cases found
    exact Nat.le_of_eq (issued.unique eldest issued').2

theorem expects_step (referring : Referring s) (ours : Ours s l) (moved : step l s = some s') {id : OperationId}
    {o : Operation} (row : s'.db.operations.lookup id = some o) (kind : o.kind = .update ∨ o.kind = .rotate)
    (own : o.instanceId = some i) : ∃ e ∈ s'.kube.objects.past,
      o.request.expectedRevision = some (revision (render e)) ∧
      ∃ time, IssuedAt s'.db i (secretRef e) time ∧ time < o.createdAt := by
  have grounded := referring.written.grounded
  have evolves := step_evolves moved
  have grows : ∀ e ∈ s.kube.objects.past, e ∈ s'.kube.objects.past := fun e member =>
    (step_objects grounded.wf moved).past_subset member
  cases was : s.db.operations.lookup id with
  | some o₀ =>
    obtain ⟨o',row',same⟩ := evolves.operations was
    rw [row] at row'
    cases row'
    obtain ⟨e,member,expected,time,issued,older⟩ := referring.expects was (by rwa [asked_kind same] at kind)
      ((asked_instanceId same).symm.trans own)
    exact ⟨e,grows e member,(asked_expected same).trans expected,time,issued.evolves evolves,
      by rw [asked_createdAt same]; exact older⟩
  | none =>
    have new := evolves.admitted row was
    -- what the update was made of was there before
    have made : ∀ {e : Object} {ns : Namespace} {j : InstanceId}, e ∈ s'.kube.objects.past → e.key = (ns,⟨j⟩) →
        o.instanceId = some j → o.request.expectedRevision = some (revision (render e)) →
        ∃ e ∈ s'.kube.objects.past, o.request.expectedRevision = some (revision (render e)) ∧
          ∃ time, IssuedAt s'.db i (secretRef e) time ∧ time < o.createdAt := by
      intro e ns j member key placed expected
      rw [own] at placed
      cases placed
      have kube : s'.kube = s.kube := by
        rcases step_db moved with idle | ⟨t,c,x,pick,v,makes,executes,ran⟩
        · rw [idle.operations,was] at row
          cases row
        · exact executes_db_kube executes moved
      obtain ⟨time,issued⟩ := referring.refers e (by rwa [kube] at member) ns i key
      refine ⟨e,member,expected,time,issued.evolves evolves,?_⟩
      obtain ⟨p,issues,rfl⟩ := issued
      rw [new]
      exact grounded.consistent.sound.created issues.row
    cases (grounded.step ours.unforged moved).origins row with
    | update _ own' located member key expected project asks => exact made member key own' expected
    | rotate _ own' located member key expected asks => exact made member key own' expected
    | project kind' | create kind' _ _ _ | delete kind' _ _ _ _ _ | volumeDelete kind' _ _ _ _
    | reclaim kind' _ _ _ _ _ _ _ => rw [kind'] at kind; simp at kind

theorem Referring.step (referring : Referring s) (fenced : Fenced s l) (moved : step l s = some s') : Referring s' where
  written := referring.written.step fenced.ours moved
  eldest := eldest_step referring.written.grounded.consistent.sound referring.eldest moved
  ledger := ledger_step referring.written.grounded.consistent.sound referring.eldest referring.ledger moved
  refers _ member _ _ key := refers_step referring fenced.ours moved member key
  rises _ member _ _ _ key issued := rises_step referring fenced moved member key issued
  expects := expects_step referring fenced.ours moved

theorem Referring.start (start : Start s) : Referring s where
  written := .start start
  eldest := ⟨fun row => by rw [start.operations] at row; simp at row⟩
  ledger := by
    constructor
    · intro c member
      rw [start.credentials] at member
      cases member
    · intro c member
      rw [start.credentials] at member
      cases member
  refers e member := by rw [start.objects] at member; cases member
  rises e member := by rw [start.objects] at member; cases member
  expects row := by rw [start.operations] at row; simp at row

end

/-! ### What a worker knows before it deletes -/

/-- What a cleanup rests on: the Secrets it deletes were issued before its operation,
    and from what it saw the live object refers to nothing of that. -/
structure Cleans (s : System) (_ : Task) (past : Past) : Prop where
  missing : ∀ {o i ns name}, Claimed past o → o.kind = .delete → o.instanceId = some i → o.request.ns = some ns →
    o.request.name = some name → Absent past ns name → AtLeast s (ns,name) i o.createdAt
  deleted : ∀ {o i names}, Claimed past o → o.kind = .delete → o.instanceId = some i →
    (⟨.db (.credentialNames (some i)),.ok names⟩ : Happened) ∈ past →
    (∃ ns name, o.request.ns = some ns ∧ o.request.name = some name ∧ Absent past ns name) ∧
      ∀ name ∈ names, ∃ time, IssuedAt s.db i name time ∧ time < o.createdAt
  revoked : ∀ {o i names desired}, Claimed past o → o.kind = .rotate ∨ o.kind = .reclaim → o.instanceId = some i →
    o.request.desired = some desired →
    (⟨.db (.olderCredentialNames (some i) desired.spec.access.credentialsSecretRef),.ok names⟩ : Happened) ∈ past →
    (∃ e ∈ s.kube.objects.past, e.key = (desired.ns,desired.name) ∧ secretRef e = .issued o.id) ∧
      ∀ name ∈ names, ∃ time, IssuedAt s.db i name time ∧ time < o.createdAt

structure Cleaning (s : System) : Prop where
  referring : Referring s
  cleans : ∀ t ∈ s.threads, Cleans s t.tag t.history

section
variable {s s' : System} {l : Label}

/-- Where the object of a deletion is. -/
theorem delete_located (grounded : Grounded s) {o row : Operation} {i : InstanceId} {ns : Namespace} {name : ResourceName}
    (found : s.db.operations.lookup o.id = some row) (same : asked row = asked o) (kind : o.kind = .delete)
    (own : o.instanceId = some i) (space : o.request.ns = some ns) (named : o.request.name = some name) :
    Located s.db i ns ∧ name = ⟨i⟩ := by
  cases grounded.origins found with
  | delete _ own' located space' named' uid =>
    rw [asked_instanceId same,own] at own'
    rw [asked_ns same,space] at space'
    rw [asked_name same,named] at named'
    cases own'
    cases space'
    cases named'
    exact ⟨located,rfl⟩
  | project kind' | create kind' _ _ _ | update kind' _ _ _ _ _ _ _ | rotate kind' _ _ _ _ _ _
  | volumeDelete kind' _ _ _ _ | reclaim kind' _ _ _ _ _ _ _ => rw [asked_kind same,kind] at kind'; cases kind'

theorem missing_stable (referring : Referring s) (fenced : Fenced s l) (moved : step l s = some s') {o : Operation}
    {i : InstanceId} {ns : Namespace} {name : ResourceName} (copy : Copy s.db o) (kind : o.kind = .delete)
    (own : o.instanceId = some i) (space : o.request.ns = some ns) (named : o.request.name = some name)
    (least : AtLeast s (ns,name) i o.createdAt) : AtLeast s' (ns,name) i o.createdAt := by
  obtain ⟨row,found,same⟩ := copy
  obtain ⟨_,rfl⟩ := delete_located referring.written.grounded found same kind own space named
  rw [← asked_createdAt same] at least ⊢
  exact at_least_step referring fenced moved (by rw [asked_id same]; exact found)
    ((asked_instanceId same).trans own) least

/-- The names that a deletion asks for in time are of older operations. -/
theorem credentialNames_heard (referring : Referring s) {t : Running} {o : Operation} {i : InstanceId}
    {names : List SecretName} {x : (Call.db (.credentialNames (some i))).Answer} (copy : Copy s.db o)
    (kind : o.kind = .delete) (own : o.instanceId = some i) (newest : ¬Outdated s.db o)
    (heard : Heard s l s' t (.db (.credentialNames (some i))) x) (answer : x = .ok names) :
    ∀ name ∈ names, ∃ time, IssuedAt s.db i name time ∧ time < o.createdAt := by
  cases heard with
  | aborted db kube why => cases answer
  | transacted executes ran kube answered =>
    rcases answered with same | same
    · rw [same] at answer
      cases answer
      simp only [transact,reads,Except.ok.injEq,Prod.mk.injEq] at ran
      obtain ⟨_,rfl⟩ := ran
      intro name member
      simp only [credentialNames,List.mem_map,List.mem_filter,decide_eq_true_eq,Option.some.injEq] at member
      obtain ⟨c,⟨member,rfl⟩,rfl⟩ := member
      obtain ⟨time,issued⟩ := referring.ledger.issued c member
      refine ⟨time,issued,Nat.lt_of_le_of_ne (issued.le_newest own newest) ?_⟩
      -- a deletion issues nothing itself
      obtain ⟨p,issues,rfl⟩ := issued
      intro level
      obtain ⟨row,found,same⟩ := copy
      have id := referring.written.grounded.consistent.sound.order issues.row found
        (level.trans (asked_createdAt same).symm)
      have row' := issues.row
      rw [id,found] at row'
      cases row'
      have kind' := (asked_kind same).trans kind
      rcases issues.named with ⟨_,other⟩ | ⟨_,other | other⟩ <;> rw [kind'] at other <;> cases other
    · rw [same] at answer
      cases answer

/-- The names that a rotation or a reclaim asks for are of older operations. -/
theorem olderCredentialNames_heard (referring : Referring s) {t : Running} {o : Operation} {i : InstanceId}
    {names : List SecretName} {ref : SecretName} {x : (Call.db (.olderCredentialNames (some i) ref)).Answer}
    (issues : IssuedAt s.db i ref o.createdAt) (heard : Heard s l s' t (.db (.olderCredentialNames (some i) ref)) x)
    (answer : x = .ok names) : ∀ name ∈ names, ∃ time, IssuedAt s.db i name time ∧ time < o.createdAt := by
  cases heard with
  | aborted db kube why => cases answer
  | transacted executes ran kube answered =>
    rcases answered with same | same
    · rw [same] at answer
      cases answer
      simp only [transact,reads,Except.ok.injEq,Prod.mk.injEq] at ran
      obtain ⟨_,rfl⟩ := ran
      intro name member
      simp only [olderCredentialNames] at member
      split at member
      · cases member
      · rename_i current found
        have own := List.find?_some found
        have placed := List.mem_of_find?_eq_some found
        simp only [List.mem_filter,List.mem_map,decide_eq_true_eq,Option.some.injEq] at own placed member
        obtain ⟨c,⟨⟨member,rfl⟩,less⟩,rfl⟩ := member
        obtain ⟨time,issued⟩ := referring.ledger.issued c member
        refine ⟨time,issued,referring.ledger.ordered c member current placed.1 placed.2.symm less time _ issued ?_⟩
        rw [own,placed.2]
        exact issues
    · rw [same] at answer
      cases answer

/-- What a rotation or a reclaim asks for is what it issues. -/
theorem reissue_issues (grounded : Grounded s) {o row : Operation} {i : InstanceId} {desired : Manifest}
    (found : s.db.operations.lookup o.id = some row) (same : asked row = asked o)
    (kind : o.kind = .rotate ∨ o.kind = .reclaim) (own : o.instanceId = some i) (asks : o.request.desired = some desired) :
    desired.spec.access.credentialsSecretRef = .issued o.id ∧
      IssuedAt s.db i (.issued o.id) o.createdAt := by
  have id := asked_id same
  refine ⟨?_,row,⟨by rw [id]; exact found,(asked_instanceId same).trans own,.inr ⟨by rw [id],?_⟩⟩,asked_createdAt same⟩
  · rw [← asked_desired same] at asks
    rw [← asked_kind same] at kind
    cases grounded.origins found with
    | rotate _ _ _ _ _ _ desired' =>
      obtain rfl := Option.some.inj (asks.symm.trans desired')
      rw [← id]
      rfl
    | reclaim _ _ _ _ _ _ _ desired' =>
      obtain rfl := Option.some.inj (asks.symm.trans desired')
      rw [← id]
      rfl
    | project kind' | create kind' _ _ _ | update kind' _ _ _ _ _ _ _ | delete kind' _ _ _ _ _
    | volumeDelete kind' _ _ _ _ => rw [kind'] at kind; simp at kind
  · rw [asked_kind same]
    exact kind

theorem cleans_step (cleaning : Cleaning s) (fenced : Fenced s l) (moved : step l s = some s') :
    ∀ t ∈ s'.threads, Cleans s' t.tag t.history := by
  have referring := cleaning.referring
  have grounded := referring.written.grounded
  have consistent := grounded.consistent
  have evolves := step_evolves moved
  have grows : ∀ e ∈ s.kube.objects.past, e ∈ s'.kube.objects.past := fun e member =>
    (step_objects grounded.wf moved).past_subset member
  have later : ∀ {i : InstanceId} {names : List SecretName} {time : Nat},
      (∀ name ∈ names, ∃ t, IssuedAt s.db i name t ∧ t < time) → ∀ name ∈ names, ∃ t, IssuedAt s'.db i name t ∧ t < time := by
    intro i names time older name member
    obtain ⟨t,issued,less⟩ := older name member
    exact ⟨t,issued.evolves evolves,less⟩
  have stable : ∀ t ∈ s.threads, Cleans s t.tag t.history → Cleans s' t.tag t.history := by
    intro t member cleans
    refine ⟨?_,?_,?_⟩
    · intro o i ns name claimed kind own space named absent
      exact missing_stable referring fenced moved (consistent.copy member claimed) kind own space named
        (cleans.missing claimed kind own space named absent)
    · intro o i names claimed kind own asked
      obtain ⟨absent,older⟩ := cleans.deleted claimed kind own asked
      exact ⟨absent,later older⟩
    · intro o i names desired claimed kind own asks asked
      obtain ⟨⟨e,seen,rest⟩,older⟩ := cleans.revoked claimed kind own asks asked
      exact ⟨⟨e,grows e seen,rest⟩,later older⟩
  refine threads_step Cleans moved cleaning.cleans ?_ stable ?_
  · intro task
    exact ⟨fun claimed => absurd claimed not_claimed_nil,fun claimed => absurd claimed not_claimed_nil,
      fun claimed => absurd claimed not_claimed_nil⟩
  · intro t c x makes heard cleans
    have older := stable t makes.member cleans
    -- a claim is the first call of its tick, and learns nothing else
    have first : ∀ {o : Operation} {e : Happened}, Claimed (⟨c,x⟩ :: t.history) o → e ∈ (⟨c,x⟩ :: t.history : Past) →
        (∀ k x', e ≠ ⟨.db (.claim k),x'⟩) → Claimed t.history o := by
      intro o e claimed member other
      rcases claimed_cons claimed with ⟨k,rfl,_⟩ | earlier
      · obtain ⟨empty,_⟩ : t.history = [] ∧ _ := licensed_makes makes
        rw [empty] at member
        rcases List.mem_cons.mp member with same | wrong
        · exact absurd same (other k x)
        · cases wrong
      · exact earlier
    refine ⟨?_,?_,?_⟩
    · intro o i ns name claimed kind own space named absent
      obtain ⟨e,code,seen⟩ := absent
      have earlier := first claimed seen (by simp)
      rcases List.mem_cons.mp seen with same | seen
      · cases same
        obtain ⟨kube,_,free⟩ := heard_absent fenced.ours.unforged heard rfl code
        intro e' t' found
        rw [kube,free] at found
        cases found
      · exact older.missing earlier kind own space named ⟨e,code,seen⟩
    · intro o i names claimed kind own asked
      have earlier := first claimed asked (by simp)
      rcases List.mem_cons.mp asked with same | asked
      · cases same
        obtain ⟨p,ns,name,claimed',_,_,space,named,absent⟩ := licensed_makes makes
        obtain rfl := (consistent.holding t makes.member).2 earlier claimed'
        obtain ⟨e,code,seen⟩ := absent
        refine ⟨⟨ns,name,space,named,e,code,List.mem_cons_of_mem _ seen⟩,?_⟩
        have names_older : ¬Outdated s.db o := by
          cases heard with
          | transacted executes ran kube answer => exact fenced.current t _ o executes earlier
        exact later (credentialNames_heard referring (consistent.copy makes.member earlier) kind own names_older heard rfl)
      · obtain ⟨⟨ns,name,space,named,e,code,seen⟩,names⟩ := older.deleted earlier kind own asked
        exact ⟨⟨ns,name,space,named,e,code,List.mem_cons_of_mem _ seen⟩,names⟩
    · intro o i names desired claimed kind own asks asked
      have earlier := first claimed asked (by simp)
      rcases List.mem_cons.mp asked with same | asked
      · cases same
        obtain ⟨p,desired',c,target,claimed',_,_,_,compared,annotated⟩ := licensed_makes makes
        obtain rfl := (consistent.holding t makes.member).2 earlier claimed'
        obtain rfl := Option.some.inj (asks.symm.trans compared.asks)
        obtain ⟨row,found,same⟩ := consistent.copy makes.member earlier
        have applies : o.kind.applies = true := by rcases kind with kind | kind <;> rw [kind] <;> rfl
        obtain ⟨j,ns,desired',author⟩ := author_of_row grounded found (by rw [asked_kind same]; exact applies)
        obtain rfl : desired' = desired := Option.some.inj (author.asks.symm.trans ((asked_desired same).trans asks))
        obtain ⟨e,seen,key,rfl,spec⟩ := seen_spec referring.written makes.member author same compared.seen
          (by rw [asked_id same]; exact annotated)
        obtain ⟨ref,issued⟩ := reissue_issues grounded found same kind own asks
        refine ⟨⟨e,grows e seen,key.trans author.key.symm,?_⟩,later ?_⟩
        · rw [← ref]
          exact congrArg (fun spec => spec.access.credentialsSecretRef) spec
        · exact olderCredentialNames_heard referring (by rw [ref]; exact issued) heard rfl
      · exact older.revoked earlier kind own asks asked

theorem Cleaning.step (cleaning : Cleaning s) (fenced : Fenced s l) (moved : step l s = some s') : Cleaning s' :=
  ⟨cleaning.referring.step fenced moved,cleans_step cleaning fenced moved⟩

theorem Cleaning.start (start : Start s) : Cleaning s where
  referring := .start start
  cleans t member := by rw [start.threads] at member; cases member

/-- No Secret that is issued before an operation is referred to where everything refers
    to the operation or to something later. -/
theorem unreferred (referring : Referring s) {i : InstanceId} {ns : Namespace} {name : SecretName} {time t : Nat}
    (located : Located s.db i ns) (least : AtLeast s (ns,⟨i⟩) i time) (issued : IssuedAt s.db i name t) (older : t < time)
    {k : Key} {e : Object} (present : s.kube.at k = some e) (space : k.1 = ns) : secretRef e ≠ name := by
  rintro rfl
  have grounded := referring.written.grounded
  have member := grounded.wf.past present
  obtain ⟨o,j,ns',desired,follows⟩ := referring.written.authored e member
  obtain ⟨t',issued'⟩ := referring.refers e member ns' j follows.key
  obtain ⟨rfl,rfl⟩ := issued.unique referring.eldest issued'
  have key : k = (ns',⟨i⟩) := (grounded.wf.key present).symm.trans follows.key
  rw [key] at space
  obtain rfl : ns' = ns := space
  rw [key] at present
  have := least e t present issued
  omega

/-- No worker deletes the Secret that a live object refers to. -/
theorem referenced_secret_kept {s₀ : System} (start : Start s₀) (reached : Reaches step Fenced s₀ s) {t : Running}
    {ns : Namespace} {name : SecretName} {uid : Nat}
    (executes : Executes s l t (.kube (.deleteSecret ns name uid))) (moved : step l s = some s') {k : Key} {e : Object}
    (present : s.kube.at k = some e) (space : k.1 = ns) : e.spec.access.credentialsSecretRef ≠ name := by
  have cleaning : Cleaning s := reached.invariant (.start start) (fun cleaning may moved => cleaning.step may moved)
  have referring := cleaning.referring
  have grounded := referring.written.grounded
  obtain ⟨x,makes,_⟩ := executes_heard executes moved
  have cleans := cleaning.cleans t makes.member
  obtain ⟨o,names,claimed,member,⟨kind,asked,names_asked⟩ | ⟨desired,kind,asks,rfl,names_asked⟩⟩ := licensed_makes makes
  · obtain ⟨row,found,same⟩ := grounded.consistent.copy makes.member claimed
    have placed := grounded.consistent.sound.placed found (by rw [asked_kind same,kind]; simp)
    rw [asked_instanceId same] at placed
    obtain ⟨i,own⟩ := Option.isSome_iff_exists.mp placed
    rw [own] at names_asked
    obtain ⟨⟨ns',name',space',named,absent⟩,older⟩ := cleans.deleted claimed kind own names_asked
    obtain rfl : ns = ns' := Option.some.inj (asked.symm.trans space')
    have least := cleans.missing claimed kind own space' named absent
    obtain ⟨located,rfl⟩ := delete_located grounded found same kind own space' named
    obtain ⟨time,issued,less⟩ := older name member
    exact unreferred referring located least issued less present space
  · obtain ⟨row,found,same⟩ := grounded.consistent.copy makes.member claimed
    have applies : o.kind.applies = true := by rcases kind with kind | kind <;> rw [kind] <;> rfl
    obtain ⟨i,ns,desired',author⟩ := author_of_row grounded found (by rw [asked_kind same]; exact applies)
    obtain rfl : desired' = desired := Option.some.inj (author.asks.symm.trans ((asked_desired same).trans asks))
    have own : o.instanceId = some i := (asked_instanceId same).symm.trans author.own
    rw [own] at names_asked
    obtain ⟨⟨e₀,seen,key,ref⟩,older⟩ := cleans.revoked claimed kind own asks names_asked
    obtain ⟨_,issued₀⟩ := reissue_issues grounded found same kind own asks
    rw [← ref] at issued₀
    have least := referring.rises e₀ seen ns i o.createdAt (key.trans author.key) issued₀
    obtain ⟨time,issued,less⟩ := older name member
    obtain ⟨rfl,_⟩ := Prod.mk.inj author.key
    exact unreferred referring author.located least issued less present space

end

/-- Whether a step creates only where no second operation was admitted, and no deletion
    asks for names. -/
def fenced (s : System) (l : Label) : Bool :=
  decide (Closed l) && (calling s l).all (fun
    | .kube (.createInstance _) => !anyRow (fun _ p => 0 < p.createdAt) s.db.operations
    | .db (.credentialNames _) => false
    | _ => true)

theorem fenced_of_check (s : System) (l : Label) (check : fenced s l = true) : Fenced s l := by
  simp only [fenced,Bool.and_eq_true,decide_eq_true_eq] at check
  obtain ⟨closed,check⟩ := check
  refine ⟨Closed.ours closed,fun t body o executes _ _ => ?_,fun t i o executes => ?_⟩
  · rw [executes_calling executes] at check
    simp only [Option.all_some,Bool.not_eq_true',anyRow_false_iff,decide_eq_false_iff_not] at check
    rintro ⟨id,p,row,_,later⟩
    exact check id p row (Nat.lt_of_le_of_lt (Nat.zero_le _) later)
  · rw [executes_calling executes] at check
    cases check

/-- The call that comes next deletes this Secret, of this namespace. -/
def deletes (ns : Namespace) (name : SecretName) (s : System) (i : Nat) : Bool :=
  (calling s (.run i .delivered {})).any (fun
    | .kube (.deleteSecret ns' name' _) => ns' = ns && name' = name
    | _ => false)

theorem deletes_executes {ns : Namespace} {name : SecretName} {s : System} {i : Nat} (next : deletes ns name s i = true) :
    ∃ t uid, Executes s (.run i .delivered {}) t (.kube (.deleteSecret ns name uid)) := by
  obtain ⟨c,called,which⟩ := (Option.any_eq_true _ _).mp next
  split at which
  · rename_i ns' name' uid
    simp only [Bool.and_eq_true,decide_eq_true_eq] at which
    obtain ⟨rfl,rfl⟩ := which
    obtain ⟨t,executes⟩ := executes_of_calling called
    exact ⟨t,uid,executes⟩
  · cases which

theorem referenced_secret_kept_rotating : ∃ (s : System) (e : Object), deletes ⟨1⟩ (.initial 100) s 5 = true ∧
    s.kube.at smallKey = some e ∧ e.spec.access.credentialsSecretRef ≠ .initial 100 := by
  obtain ⟨s,reached,holds⟩ := reaches_of_run fenced_of_check
    (show (run step fenced rotating small).any (fun s => deletes ⟨1⟩ (.initial 100) s 5 &&
      (step (.run 5 .delivered {}) s).isSome && (s.kube.at smallKey).isSome) = true by decide +kernel)
  simp only [Bool.and_eq_true,Option.isSome_iff_exists] at holds
  obtain ⟨⟨next,s',moved⟩,e,present⟩ := holds
  obtain ⟨t,uid,executes⟩ := deletes_executes next
  exact ⟨s,e,next,present,referenced_secret_kept small_start reached executes moved present rfl⟩

/-- The worker that stalled goes on after the volume was reclaimed. -/
def overtaken : List Label := reclaiming ++ calls 5 2

/-- It deletes the Secret of the reclaimed instance. -/
theorem stale_deletion_revokes : ∃ s, Reaches step (fun _ l => Closed l) small s ∧ ∃ t uid e,
    Executes s (.run 5 .delivered {}) t (.kube (.deleteSecret ⟨1⟩ (.issued 107) uid)) ∧
      s.kube.at smallKey = some e ∧ e.spec.access.credentialsSecretRef = .issued 107 := by
  obtain ⟨s,reached,holds⟩ := reaches_of_run (fun _ _ check => of_decide_eq_true check)
    (show (run step (fun _ l => decide (Closed l)) overtaken small).any (fun s => deletes ⟨1⟩ (.issued 107) s 5 &&
      (s.kube.at smallKey).any (fun e => e.spec.access.credentialsSecretRef = .issued 107)) = true by decide +kernel)
  simp only [Bool.and_eq_true,Option.any_eq_true,decide_eq_true_eq] at holds
  obtain ⟨next,e,present,ref⟩ := holds
  obtain ⟨t,uid,executes⟩ := deletes_executes next
  exact ⟨s,reached,t,uid,e,executes,present,ref⟩

end Expbuild.Credentials
