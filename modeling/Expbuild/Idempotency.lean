import Expbuild.Keys

/-!
Requests under idempotency keys, in any interleaving. Handlers look a key up in one
transaction and use it up in a later one, with reads of Kubernetes in between, so
the same key may be on its way in any number of requests. Still each key is used
up once (`keys_idempotent`): the transaction that uses it up is the only one under
the key that changes anything, and whoever comes later is answered with the
operation it stands for, or refused.
-/
namespace Expbuild.Idempotency
open Expbuild.Contract Expbuild.Schema Expbuild.Tables Expbuild.Programs Expbuild.Runs Expbuild.Calls
open Expbuild.Transactions Expbuild.Platform Expbuild.Rows Expbuild.Keys
open Expbuild.Routes (Request Reply handle)

/-! ### What a handler does under its key -/

/-- The calls of a request under a key. -/
def mayAsk (k : Identity) (drawn : Nat) : Call → Prop
  | .kube _ | .clock | .db (.projectAccess _ _) | .db (.binding _ _) => True
  | .db (.replay caller roles kind requestHash) => k = ⟨caller,roles,some kind,.request requestHash⟩
  | .db c => identity c = some k ∧ (target c = some drawn ∨ k.kind = none)

/-- What a lookup of a key returns. -/
def found : (c : DbCall) → c.Value → Option Operation
  | .replay _ _ _ _,v => v
  | _,_ => none

/-- What an event returned: of a transaction under a key, and of a lookup of the key. -/
def receiptOf : Happened → Option Accepted
  | ⟨.db c,.ok v⟩ => receipt c v
  | _ => none
def replayOf : Happened → Option Operation
  | ⟨.db c,.ok v⟩ => found c v
  | _ => none

theorem receipt_identified {c : DbCall} {v : c.Value} {a : Accepted} (returned : receipt c v = some a) :
    identity c ≠ none := by
  cases c <;> simp_all [receipt,identity]

theorem found_unidentified {c : DbCall} {v : c.Value} {o : Operation} (returned : found c v = some o) :
    identity c = none := by
  cases c <;> simp_all [found,identity]

/-- A reply only carries what the database returned. -/
def Founded (past : Past) : Except Failure Reply → Prop
  | .ok (.accepted o _ credentials) => (∃ e ∈ past, replayOf e = some o ∧ credentials = none) ∨
      ∃ e ∈ past, ∃ a, receiptOf e = some a ∧ a.operation = o ∧ (credentials = none ∨ credentials = a.credentials)
  | _ => True

/-- A program that only talks to Kubernetes. -/
abbrev Outside {α : Type} (p : Io α) : Prop := Only (fun c => ∃ call, c = .kube call) p

section
variable {α β : Type}

theorem outside_kube (call : KubeCall) : Outside (kube call) :=
  fun _ => (licensed_await_only (c := .kube call)).mpr ⟨⟨call,rfl⟩,fun _ => trivial⟩

theorem outside_onStatus {code : Nat} {body handler : Io α} (first : Outside body) (second : Outside handler) :
    Outside (Kubernetes.onStatus code body handler) := by
  refine only_tryCatch first (fun e => ?_)
  split
  · exact second
  · exact only_throw e

theorem outside_getInstance (ns : Namespace) (name : ResourceName) : Outside (Kubernetes.getInstance ns name) :=
  outside_onStatus (only_bind (outside_kube _) (fun _ => only_pure _)) (only_pure _)

theorem outside_getRetainedVolume (volume : Kubernetes.RetainedVolumeIdentity) :
    Outside (Kubernetes.getRetainedVolume volume) := by
  refine only_bind (only_bind (outside_kube _) (fun _ => only_bind (only_require _ _) (fun _ => ?_)))
    (fun _ => only_pure _)
  exact outside_onStatus
    (only_bind (outside_kube _) (fun _ => only_bind (only_require _ _) (fun _ => only_pure _))) (only_pure _)

theorem outside_readOwned (options : Options) (instanceId : InstanceId) (b : BindingRow) :
    Outside (Routes.readOwned options instanceId b) := by
  refine only_bind (only_tryCatch (only_bind (only_require _ _) (fun _ => outside_getInstance _ _))
    (fun _ => only_throw _)) (fun _ => ?_)
  exact only_bind (only_require _ _) (fun _ => only_pure _)

end

section
variable {k : Identity} {drawn : Nat} {past : Past} {α : Type}

/-- The program makes calls under the key only, and its reply is founded. -/
abbrev Keeps (k : Identity) (drawn : Nat) (past : Past) (p : Io Reply) : Prop :=
  Licensed (fun _ => mayAsk k drawn) Founded past p

theorem keeps_outside {p : Io α} {f : α → Io Reply} (outside : Outside p) (rest : ∀ later a, Keeps k drawn later (f a)) :
    Keeps k drawn past (p >>= f) := by
  refine licensed_only outside ?_ (fun later a _ => rest later a) (fun _ _ _ => trivial)
  rintro _ _ _ ⟨call,rfl⟩
  trivial

theorem keeps_db {c : DbCall} {f : c.Value → Io Reply} (may : mayAsk k drawn (.db c))
    (rest : ∀ v, Keeps k drawn (⟨.db c,.ok v⟩ :: past) (f v)) : Keeps k drawn past (db c >>= f) :=
  (licensed_await _ _).mpr ⟨may,rest,fun _ => trivial⟩

theorem keeps_require {condition : Prop} [Decidable condition] {e : Failure} {next : Io Reply}
    (rest : condition → Keeps k drawn past next) : Keeps k drawn past (require condition e >>= fun _ => next) :=
  (licensed_require _ _ _).mpr ⟨rest,fun _ => trivial⟩

theorem keeps_present {value : Option α} {e : Failure} {next : α → Io Reply} (rest : ∀ a, Keeps k drawn past (next a)) :
    Keeps k drawn past (present value e >>= next) :=
  (licensed_present _ _ _).mpr ⟨fun a _ => rest a,fun _ => trivial⟩

/-- The reply to a key that a lookup found. -/
theorem founded_replay {caller : Caller} {roles : List Role} {kind : Kind} {requestHash : RequestHash} {o : Operation} :
    Founded (⟨.db (.replay caller roles kind requestHash),.ok (some o)⟩ :: past) (.ok (.accepted o (some true) none)) :=
  .inl ⟨_,List.mem_cons_self,rfl,rfl⟩

/-- The reply of a transaction that was accepted. -/
theorem founded_receipt {c : DbCall} {v : c.Value} {a : Accepted} {replayed : Option Bool}
    {credentials : Option CredentialData} (returned : receipt c v = some a)
    (reveals : credentials = none ∨ credentials = a.credentials) :
    Founded (⟨.db c,.ok v⟩ :: past) (.ok (.accepted a.operation replayed credentials)) :=
  .inr ⟨_,List.mem_cons_self,a,returned,rfl,reveals⟩

theorem handle_keeps {options : Options} {request : Request} (asks : identify request = some k) :
    Keeps k drawn past (handle options drawn request) := by
  cases request with
  | createProject _ | retryProject _ | updateQuota _ _ _ => cases asks
  | createInstance caller input =>
    cases asks
    refine keeps_db trivial (fun platformAdmin => keeps_require (fun _ => keeps_require (fun _ => ?_)))
    refine keeps_present (fun storageClass => keeps_db ⟨rfl,.inl rfl⟩ (fun a => ?_))
    exact founded_receipt (a := a) rfl (.inr rfl)
  | updateInstance caller instanceId input expected =>
    cases asks
    refine keeps_db trivial (fun _ => keeps_db rfl (fun previous => ?_))
    cases previous with
    | some o => exact founded_replay
    | none =>
      refine keeps_require (fun _ => keeps_db trivial (fun b => ?_))
      refine keeps_outside (outside_readOwned _ _ _) (fun later read => keeps_present (fun current => ?_))
      refine keeps_require (fun _ => keeps_require (fun _ => keeps_require (fun _ => keeps_require (fun _ => ?_))))
      exact keeps_db ⟨rfl,.inl rfl⟩ (fun a => founded_receipt (a := a) rfl (.inl rfl))
  | rotateCredentials caller instanceId expected =>
    cases asks
    refine keeps_db trivial (fun _ => keeps_require (fun _ => keeps_require (fun _ => keeps_db rfl (fun previous => ?_))))
    cases previous with
    | some o => exact founded_replay
    | none =>
      refine keeps_db trivial (fun b => keeps_outside (outside_readOwned _ _ _) (fun later read => ?_))
      refine keeps_present (fun current => keeps_require (fun _ => ?_))
      exact keeps_db ⟨rfl,.inl rfl⟩ (fun a => founded_receipt (a := a) rfl (.inr rfl))
  | deleteInstance caller instanceId =>
    cases asks
    refine keeps_db trivial (fun _ => keeps_db ⟨rfl,.inl rfl⟩ (fun a => ?_))
    exact founded_receipt (a := a) rfl (.inl rfl)
  | deleteRetainedVolume caller instanceId uid =>
    cases asks
    refine keeps_db trivial (fun _ => keeps_require (fun _ => keeps_db ⟨rfl,.inl rfl⟩ (fun a => ?_)))
    exact founded_receipt (a := a) rfl (.inl rfl)
  | reclaimRetainedVolume caller instanceId volumeUid input =>
    cases asks
    refine keeps_db trivial (fun _ => keeps_require (fun _ => keeps_present (fun storageClass => ?_)))
    refine keeps_db rfl (fun previous => ?_)
    cases previous with
    | some o => exact founded_replay
    | none =>
      refine keeps_db trivial (fun b => keeps_require (fun _ => keeps_present (fun uid => ?_)))
      refine keeps_present (fun version => keeps_require (fun _ => ?_))
      refine keeps_outside (only_tryCatch (only_bind (only_require _ _) (fun _ => outside_getRetainedVolume _))
        (fun _ => only_throw _)) (fun later observed => ?_)
      refine keeps_present (fun volume => keeps_require (fun _ => keeps_require (fun _ => ?_)))
      refine keeps_outside (only_tryCatch (only_bind (only_require _ _) (fun _ => outside_getInstance _ _))
        (fun _ => only_throw _)) (fun later existing => keeps_require (fun _ => ?_))
      exact keeps_db ⟨rfl,.inl rfl⟩ (fun a => founded_receipt (a := a) rfl (.inr rfl))
  | retryOperation caller operationId =>
    cases asks
    refine keeps_db trivial (fun _ => keeps_db ⟨rfl,.inr rfl⟩ (fun a => ?_))
    exact founded_receipt (a := a) rfl (.inr rfl)

end

/-! ### What a request that comes too late is answered -/

/-- The settings that a handler needs before it looks at the key. -/
def configured (options : Options) : Request → Bool
  | .createInstance _ _ => options.kube && options.encryptionKey && options.storageClass.isSome
  | .rotateCredentials _ _ _ => options.kube && options.encryptionKey
  | .deleteRetainedVolume _ _ _ => options.kube
  | .reclaimRetainedVolume _ _ _ _ => options.encryptionKey && options.storageClass.isSome
  | _ => true

/-- The call that looks at the key, and what the request does with its answer where the
    key has been used. -/
def Looks (k : Identity) (c : DbCall) (after : (Call.db c).Answer → Io (Option Reply)) : Prop :=
  ∀ (pick : Pick) (db : Db) (id : OperationId) (body : Body), Keyed db → Sound db → k.Used db id body →
    permitted db k.caller k.roles = true →
    (body = k.body → ∃ v o replayed, transact pick db c = .ok (db,v) ∧
      after (.ok v) = .pure (some (.accepted o replayed none)) ∧ o.id = id) ∧
    (body ≠ k.body → transact pick db c = .error conflict ∧ after (.error conflict) = .throw conflict)

section
variable {k : Identity} {drawn : Nat}

theorem looks_receipt {c : DbCall} {after : (Call.db c).Answer → Io (Option Reply)} (asks : identity c = some k)
    (replies : ∀ v o, receipt c v = some ⟨o,true,none⟩ →
      ∃ replayed, after (.ok v) = .pure (some (.accepted o replayed none)))
    (throws : after (.error conflict) = .throw conflict) : Looks k c after := by
  intro pick db id body keyed sound used may
  obtain ⟨same,other⟩ := @transact_used db c k id body pick keyed sound asks used may
  refine ⟨fun equal => ?_,fun differs => ⟨other differs,throws⟩⟩
  obtain ⟨v,o,ran,returned,named⟩ := same equal
  obtain ⟨replayed,replies⟩ := replies v o returned
  exact ⟨v,o,replayed,ran,replies,named⟩

theorem looks_replay {caller : Caller} {roles : List Role} {kind : Kind} {requestHash : RequestHash}
    {after : (Call.db (.replay caller roles kind requestHash)).Answer → Io (Option Reply)} (kinds : kind ≠ .projectCreate)
    (replies : ∀ o, after (.ok (some o)) = .pure (some (.accepted o (some true) none)))
    (throws : after (.error conflict) = .throw conflict) :
    Looks ⟨caller,roles,some kind,.request requestHash⟩ (.replay caller roles kind requestHash) after := by
  intro pick db id body keyed sound used may
  obtain ⟨project,there⟩ := keyed.project sound used (fun wrong => kinds (Option.some.inj wrong))
  obtain ⟨same,other⟩ := replay_used keyed sound used
  have locked := lockProject_ok may there
  refine ⟨fun equal => ?_,fun differs => ⟨?_,throws⟩⟩
  · obtain ⟨o,replayed,named⟩ := same equal
    refine ⟨some o,o,some true,?_,replies o,named⟩
    simp [transact,locked,replayed,reads,Bind.bind,Except.bind]
  · simp [transact,locked,other differs,Bind.bind,Except.bind]

/-- A request makes two calls: it is let in, and looks at its key. -/
theorem program_opens {options : Options} {request : Request} (asks : identify request = some k)
    (set : configured options request = true) :
    ∃ next, program (.request options request drawn) = .request (.db (.projectAccess k.caller k.roles)) next ∧
      ∀ platformAdmin, ∃ c after, next (.ok platformAdmin) = .request (.db c) after ∧ Looks k c after := by
  obtain ⟨kube,encryptionKey,storageClass,templates⟩ := options
  cases request with
  | createProject _ | retryProject _ | updateQuota _ _ _ => cases asks
  | createInstance caller input =>
    cases asks
    simp only [configured,Bool.and_eq_true] at set
    obtain ⟨⟨rfl,rfl⟩,named⟩ := set
    obtain ⟨storageClass,rfl⟩ := Option.isSome_iff_exists.mp named
    refine ⟨_,rfl,fun platformAdmin => ⟨_,_,rfl,looks_receipt rfl ?_ rfl⟩⟩
    rintro v o returned
    cases returned
    exact ⟨_,rfl⟩
  | updateInstance caller instanceId input expected =>
    cases asks
    exact ⟨_,rfl,fun _ => ⟨_,_,rfl,looks_replay (by decide) (fun o => rfl) rfl⟩⟩
  | rotateCredentials caller instanceId expected =>
    cases asks
    simp only [configured,Bool.and_eq_true] at set
    obtain ⟨rfl,rfl⟩ := set
    exact ⟨_,rfl,fun _ => ⟨_,_,rfl,looks_replay (by decide) (fun o => rfl) rfl⟩⟩
  | deleteInstance caller instanceId =>
    cases asks
    refine ⟨_,rfl,fun _ => ⟨_,_,rfl,looks_receipt rfl ?_ rfl⟩⟩
    rintro v o returned
    cases returned
    exact ⟨_,rfl⟩
  | deleteRetainedVolume caller instanceId uid =>
    cases asks
    obtain rfl : kube = true := set
    refine ⟨_,rfl,fun _ => ⟨_,_,rfl,looks_receipt rfl ?_ rfl⟩⟩
    rintro v o returned
    cases returned
    exact ⟨_,rfl⟩
  | reclaimRetainedVolume caller instanceId volumeUid input =>
    cases asks
    simp only [configured,Bool.and_eq_true] at set
    obtain ⟨rfl,named⟩ := set
    obtain ⟨storageClass,rfl⟩ := Option.isSome_iff_exists.mp named
    exact ⟨_,rfl,fun _ => ⟨_,_,rfl,looks_replay (by decide) (fun o => rfl) rfl⟩⟩
  | retryOperation caller operationId =>
    cases asks
    refine ⟨_,rfl,fun _ => ⟨_,_,rfl,looks_receipt rfl ?_ rfl⟩⟩
    rintro v o returned
    cases returned
    exact ⟨_,rfl⟩

end

/-! ### Runs -/

/-- The identity of a request, where a task is one under a key. -/
def identityOf : Task → Option Identity
  | .request _ request _ => identify request
  | .tick _ _ => none

theorem program_keeps {task : Task} {k : Identity} (asks : identityOf task = some k) :
    Licensed (fun _ => mayAsk k task.drawn)
      (fun past result => ∀ reply, result = .ok (some reply) → Founded past (.ok reply)) [] (program task) := by
  cases task with
  | tick gated claim => cases asks
  | request options request drawn =>
    rw [program,licensed_bind]
    refine (handle_keeps asks).mono (fun _ _ _ may => may) ?_
    intro later result _ founded
    cases result with
    | ok reply =>
      rintro reply' same
      cases same
      exact founded
    | error e =>
      rintro reply wrong
      cases wrong

/-- What an event under a key says is true of the tables. -/
structure Truthful (k : Identity) (drawn : Nat) (db : Db) (e : Happened) : Prop where
  receipt : ∀ a, receiptOf e = some a → k.Used db a.operation.id k.body ∧
    (a.credentials = none ∨ (a.operation.id = drawn ∧ k.kind.isSome))
  replay : ∀ o, replayOf e = some o → k.Used db o.id k.body

/-- The invariant: the tables keep their keys, and every request has been told the
    truth about its own. -/
structure Kept (s : System) : Prop where
  sound : Sound s.db
  keyed : Keyed s.db
  truthful : ∀ t ∈ s.threads, ∀ k, identityOf t.tag = some k → ∀ e ∈ t.history, Truthful k t.tag.drawn s.db e

section
variable {s s' : System} {l : Label} {k : Identity} {id : OperationId} {body : Body}

theorem used_step (used : k.Used s.db id body) (moved : step l s = some s') : k.Used s'.db id body := by
  rcases step_db moved with idle | ⟨_,_,_,_,_,_,_,ran⟩
  · exact used.idle idle
  · exact used.transact ran

theorem keyed_step (keyed : Keyed s.db) (moved : step l s = some s') : Keyed s'.db := by
  rcases step_db moved with idle | ⟨_,_,_,_,_,_,_,ran⟩
  · exact keyed.idle idle
  · exact keyed.transact ran

theorem Truthful.step {drawn : Nat} {e : Happened} (truthful : Truthful k drawn s.db e) (moved : step l s = some s') :
    Truthful k drawn s'.db e where
  receipt a returned := ⟨used_step (truthful.receipt a returned).1 moved,(truthful.receipt a returned).2⟩
  replay o found := used_step (truthful.replay o found) moved

/-- What a transaction returns under a key is true. -/
theorem truthful_transact {pick : Pick} {db db' : Db} {c : DbCall} {v : c.Value} {drawn : Nat} (sound : Sound db)
    (may : mayAsk k drawn (.db c)) (ran : transact pick db c = .ok (db',v)) : Truthful k drawn db' ⟨.db c,.ok v⟩ := by
  cases asks : identity c with
  | some k' =>
    have own : identity c = some k ∧ (target c = some drawn ∨ k.kind = none) := by
      cases c <;> first | exact may | cases asks
    refine ⟨fun a returned => ?_,fun o replayed => ?_⟩
    · have returns := transact_returns sound own.1 ran returned
      refine ⟨returns.used,?_⟩
      rcases returns.reveals with hidden | ⟨targets,kind⟩
      · exact .inl hidden
      · rcases own.2 with mine | none'
        · rw [targets] at mine
          exact .inr ⟨Option.some.inj mine,kind⟩
        · rw [none'] at kind
          cases kind
    · exact absurd (found_unidentified replayed) (by rw [asks]; simp)
  | none =>
    refine ⟨fun a returned => ?_,fun o replayed => ?_⟩
    · exact absurd asks (receipt_identified returned)
    · cases c with
      | replay caller roles kind requestHash =>
        simp only [transact,bind_eq_ok,reads] at ran
        obtain ⟨project,_,previous,looked,ended⟩ := ran
        cases ended
        obtain rfl : v = some o := replayed
        obtain rfl : k = _ := may
        exact replay_found sound looked
      | _ => cases replayed

theorem Kept.step (kept : Kept s) (moved : step l s = some s') : Kept s' := by
  refine ⟨step_sound kept.sound moved,keyed_step kept.keyed moved,?_⟩
  refine threads_step (fun s task past => ∀ k, identityOf task = some k → ∀ e ∈ past, Truthful k task.drawn s.db e)
    moved kept.truthful (fun task k asks e member => by cases member) ?_ ?_
  · intro t _ truthful k asks e member
    exact (truthful k asks e member).step moved
  · intro t c x makes heard truthful k asks e member
    rcases List.mem_cons.mp member with rfl | old
    · obtain ⟨next,left⟩ := makes.next
      have before := t.ran
      rw [left] at before
      have may : mayAsk k t.tag.drawn c := before.licensed (program_keeps asks)
      have nothing : ∀ {e : Happened}, receiptOf e = none → replayOf e = none → Truthful k t.tag.drawn s'.db e := by
        intro e no no'
        exact ⟨fun a some' => (by rw [no] at some'; cases some'),fun o some' => (by rw [no'] at some'; cases some')⟩
      cases heard with
      | transacted executes ran kube answer =>
        rcases answer with rfl | rfl
        · exact truthful_transact kept.sound may ran
        · exact nothing rfl rfl
      | aborted db kube why => exact nothing rfl rfl
      | served executes ran db answer => exact nothing rfl rfl
      | rejected db kube why => exact nothing rfl rfl
      | forged label db kube => exact nothing rfl rfl
      | clock db kube => exact nothing rfl rfl
    · exact (truthful k asks e old).step moved

/-- What a request reads outside its key changes nothing. -/
theorem reads_same {pick : Pick} {db db' : Db} {c : DbCall} {v : c.Value} {drawn : Nat} (may : mayAsk k drawn (.db c))
    (other : identity c = none) (ran : transact pick db c = .ok (db',v)) : db' = db := by
  have txn := Effects.transact_cases ran
  cases c with
  | projectAccess _ _ | binding _ _ | replay _ _ _ _ =>
    cases txn with
    | unchanged _ => rfl
    | admitted admits _ _ _ => cases admits
  | _ => exact absurd may.1 (by rw [other]; simp)

/-- The thread that a step lets run. -/
def Runs (l : Label) (i : Nat) : Prop := (∃ fault pick, l = .run i fault pick) ∨ ∃ forgery, l = .forge i forgery

/-- A step of a request under a key changes nothing, or uses the key up. -/
theorem identified_step {t : Running} {i : Nat} (kept : Kept s) (moved : step l s = some s') (runs : Runs l i)
    (found : s.threads[i]? = some t) (asks : identityOf t.tag = some k) :
    s'.db = s.db ∨ ∃ id, Admission k s.db s'.db id := by
  rcases runs with ⟨fault,pick,rfl⟩ | ⟨forgery,rfl⟩
  · obtain ⟨t',c,x,makes,found',performed⟩ := advance_cases moved
    rw [found] at found'
    cases found'
    obtain ⟨next,left⟩ := makes.next
    have ran := t.ran
    rw [left] at ran
    have may : mayAsk k t.tag.drawn c := ran.licensed (program_keeps asks)
    cases c with
    | kube call => exact .inl (perform_kube (Option.some.inj performed)).1
    | clock =>
      simp only [perform,Option.some.injEq,Prod.mk.injEq] at performed
      exact .inl performed.1.1.symm
    | db c =>
      have committed : ∀ v, transact pick s.db c = .ok (s'.db,v) → s'.db = s.db ∨ ∃ id, Admission k s.db s'.db id := by
        intro v ran
        cases asked : identity c with
        | none => exact .inl (reads_same may asked ran)
        | some k' =>
          have own : identity c = some k := by
            cases c <;> first | exact may.1 | cases asked
          rcases transact_identified kept.sound own ran with same | ⟨id,_,admission⟩
          · exact .inl same
          · exact .inr ⟨id,admission⟩
      cases (perform_db (Option.some.inj performed)).2 with
      | done v ok answer => exact committed v ok
      | lost v code ok answer => exact committed v ok
      | threw e error same answer => exact .inl same
      | refused code same answer => exact .inl same
  · cases step_cases moved with
    | spawned task drawn => exact .inl rfl
    | forged makes db kube => exact .inl db

/-- A step by what it is to one thread. -/
theorem thread_step {t : Running} {n : Nat} (there : s.threads[n]? = some t) (moved : step l s = some s') :
    s'.threads[n]? = some t ∨ ∃ (c : Call) (next : c.Answer → Io (Option Reply)) (x : c.Answer) (t' : Running),
      t.rest = .request c next ∧ s'.threads[n]? = some t' ∧ t'.tag = t.tag ∧ t'.history = ⟨c,x⟩ :: t.history ∧
      t'.rest = next x ∧ ((∃ fault pick, l = .run n fault pick ∧ perform fault pick c (s.db,s.kube) = ((s'.db,s'.kube),x)) ∨
        ∃ call, c = .kube call) := by
  have longer : ∀ t', (s.threads ++ [t'])[n]? = some t := by
    intro t'
    rw [List.getElem?_append_left (List.getElem?_eq_some_iff.mp there).1]
    exact there
  have advanced : ∀ {i : Nat} {answer : (c : Call) → Db × ApiServer.Cluster → Option ((Db × ApiServer.Cluster) × c.Answer)},
      s.advance i answer = some s' → s'.threads[n]? = some t ∨ ∃ (c : Call) (next : c.Answer → Io (Option Reply))
        (x : c.Answer) (t' : Running), i = n ∧ t.rest = .request c next ∧ s'.threads[n]? = some t' ∧ t'.tag = t.tag ∧
        t'.history = ⟨c,x⟩ :: t.history ∧ t'.rest = next x ∧ answer c (s.db,s.kube) = some ((s'.db,s'.kube),x) := by
    intro i answer moved
    simp only [System.advance,Option.bind_eq_bind,Option.bind_eq_some_iff,Option.pure_def,Option.some.injEq] at moved
    obtain ⟨t₀,found,⟨world,t'⟩,moved,rfl⟩ := moved
    by_cases same : i = n
    · subst same
      rw [there] at found
      cases found
      obtain ⟨c,next,x,left,answered,tag,history,rest⟩ := Thread.advance_some moved
      exact .inr ⟨c,next,x,t',rfl,left,List.getElem?_set_self (List.getElem?_eq_some_iff.mp there).1,tag,history,rest,answered⟩
    · exact .inl (by rw [List.getElem?_set_ne same]; exact there)
  cases l with
  | tick gated => cases moved; exact .inl (longer _)
  | request options request => cases moved; exact .inl (longer _)
  | run i fault pick =>
    rcases advanced moved with same | ⟨c,next,x,t',rfl,left,now,tag,history,rest,answered⟩
    · exact .inl same
    · exact .inr ⟨c,next,x,t',left,now,tag,history,rest,.inl ⟨fault,pick,rfl,Option.some.inj answered⟩⟩
  | forge i forgery =>
    rcases advanced moved with same | ⟨c,next,x,t',rfl,left,now,tag,history,rest,answered⟩
    · exact .inl same
    · cases c with
      | kube call => exact .inr ⟨_,next,x,t',left,now,tag,history,rest,.inr ⟨call,rfl⟩⟩
      | db call => cases answered
      | clock => cases answered
  | wait seconds => cases moved; exact .inl there
  | accounts users members => cases moved; exact .inl there
  | act a =>
    obtain ⟨kube,_,rfl⟩ := Option.map_eq_some_iff.mp moved
    exact .inl there

/-- The actor of a request stays permitted, and the calls of its thread are answered. -/
def Attended (n : Nat) (k : Identity) (s : System) (l : Label) : Prop :=
  permitted s.db k.caller k.roles = true ∧ ∀ fault pick, l = .run n fault pick → fault = .delivered

/-- The answer to a key that has been used: the operation it stands for, without a
    password, or a refusal. -/
def Answered (k : Identity) (id : OperationId) (body : Body) (t : Running) : Prop :=
  (body = k.body → ∃ o replayed, t.rest = .pure (some (.accepted o replayed none)) ∧ o.id = id) ∧
    (body ≠ k.body → t.rest = .throw conflict)

/-- How far a request has come whose key had been used before it arrived. -/
inductive Stage (k : Identity) (id : OperationId) (body : Body) (t : Running) : Prop where
  | arrived {next : (Call.db (.projectAccess k.caller k.roles)).Answer → Io (Option Reply)} (fresh : t.history = [])
      (rest : t.rest = .request (.db (.projectAccess k.caller k.roles)) next)
      (goesOn : ∀ platformAdmin, ∃ c after, next (.ok platformAdmin) = .request (.db c) after ∧ Looks k c after)
  | letIn {c : DbCall} {after : (Call.db c).Answer → Io (Option Reply)} (one : t.history.length = 1)
      (rest : t.rest = .request (.db c) after) (looks : Looks k c after)
  | answered (two : t.history.length = 2) (answered : Answered k id body t)

theorem stage_step {n : Nat} {t : Running} (kept : Kept s) (used : k.Used s.db id body) (there : s.threads[n]? = some t)
    (stage : Stage k id body t) (attended : Attended n k s l) (moved : step l s = some s') :
    ∃ t', s'.threads[n]? = some t' ∧ Stage k id body t' := by
  obtain ⟨may,delivered⟩ := attended
  rcases thread_step there moved with same | ⟨c,next,x,t',left,now,_,history,rest,ran⟩
  · exact ⟨t,same,stage⟩
  refine ⟨t',now,?_⟩
  cases stage with
  | arrived fresh rest' goesOn =>
    rw [left] at rest'
    cases rest'
    rcases ran with ⟨fault,pick,rfl,performed⟩ | ⟨call,wrong⟩
    · obtain rfl := delivered _ _ rfl
      have answer : x = .ok ((s.db.users.lookup k.caller.actor).any (fun user => user.platformAdmin)) := by
        simp [perform,Platform.answered,transact,may,demand,reads,Bind.bind,Except.bind] at performed
        exact performed.2.symm
      rw [answer] at rest
      obtain ⟨c,after,asks,looks⟩ := goesOn ((s.db.users.lookup k.caller.actor).any (fun user => user.platformAdmin))
      exact .letIn (by rw [history,fresh]; rfl) (rest.trans asks) looks
    · cases wrong
  | letIn one rest' looks =>
    rw [left] at rest'
    cases rest'
    rcases ran with ⟨fault,pick,rfl,performed⟩ | ⟨call,wrong⟩
    · obtain rfl := delivered _ _ rfl
      obtain ⟨same,other⟩ := looks pick s.db id body kept.keyed kept.sound used may
      refine .answered (by rw [history,List.length_cons,one]) ⟨fun equal => ?_,fun differs => ?_⟩
      · obtain ⟨v,o,replayed,ran,replies,named⟩ := same equal
        have answer : x = .ok v := by
          simp [perform,Platform.answered,ran] at performed
          exact performed.2.symm
        rw [answer,replies] at rest
        exact ⟨o,replayed,rest,named⟩
      · obtain ⟨ran,throws⟩ := other differs
        have answer : x = .error conflict := by
          simp [perform,Platform.answered,ran] at performed
          exact performed.2.symm
        rw [answer,throws] at rest
        exact rest
    · cases wrong
  | answered two answered =>
    by_cases equal : body = k.body
    · obtain ⟨o,replayed,ended,_⟩ := answered.1 equal
      rw [left] at ended
      cases ended
    · have ended := answered.2 equal
      rw [left] at ended
      cases ended

/-- A request whose key had been used has not seen a password. -/
theorem hidden_step {n : Nat} {t : Running} (kept : Kept s) (used : k.Used s.db id body) (there : s.threads[n]? = some t)
    (asks : identityOf t.tag = some k) (hidden : ∀ e ∈ t.history, ∀ a, receiptOf e = some a → a.credentials = none)
    (moved : step l s = some s') : ∃ t', s'.threads[n]? = some t' ∧ t'.tag = t.tag ∧
      ∀ e ∈ t'.history, ∀ a, receiptOf e = some a → a.credentials = none := by
  rcases thread_step there moved with same | ⟨c,next,x,t',left,now,tag,history,_,ran⟩
  · exact ⟨t,same,rfl,hidden⟩
  refine ⟨t',now,tag,?_⟩
  rw [history]
  intro e member a returned
  rcases List.mem_cons.mp member with rfl | old
  · have before := t.ran
    rw [left] at before
    have may : mayAsk k t.tag.drawn c := before.licensed (program_keeps asks)
    rcases ran with ⟨fault,pick,rfl,performed⟩ | ⟨call,rfl⟩
    · cases c with
      | kube call => cases returned
      | clock => cases returned
      | db c =>
        cases x with
        | error e => cases returned
        | ok v =>
          have own : identity c = some k := by
            have some' := receipt_identified returned
            cases c <;> first | exact may.1 | exact absurd rfl some'
          cases (perform_db performed).2 with
          | done v' ok answer =>
            cases answer
            have permits := (transact_returns kept.sound own ok returned).permitted
            obtain ⟨same,other⟩ := @transact_used s.db c k id body pick kept.keyed kept.sound own used permits
            by_cases equal : body = k.body
            · obtain ⟨v',o,ran,hides,_⟩ := same equal
              rw [ok] at ran
              obtain ⟨_,rfl⟩ := Prod.mk.inj (Except.ok.inj ran)
              rw [show receipt c v = some a from returned] at hides
              cases hides
              rfl
            · rw [other equal] at ok
              cases ok
          | threw e error same answer => cases answer
          | refused code same answer => cases answer
          | lost v' code ok answer => cases answer
    · cases returned
  · exact hidden e old a returned

/-- Every reply of a request under a key names the operation that the key is used for. -/
theorem reply_used {t : Running} {o : Operation} {replayed : Option Bool} {credentials : Option CredentialData}
    (kept : Kept s) (member : t ∈ s.threads) (asks : identityOf t.tag = some k)
    (ended : t.rest = .pure (some (.accepted o replayed credentials))) :
    k.Used s.db o.id k.body ∧ (credentials = none ∨ ∃ e ∈ t.history, ∃ a, receiptOf e = some a ∧ a.operation = o ∧
      credentials = a.credentials) := by
  have final := t.ran.keeps (program_keeps asks)
  rw [ended] at final
  rcases final _ rfl with ⟨e,heard,found,hidden⟩ | ⟨e,heard,a,returned,rfl,reveals⟩
  · exact ⟨(kept.truthful t member k asks e heard).replay o found,.inl hidden⟩
  · refine ⟨((kept.truthful t member k asks e heard).receipt a returned).1,?_⟩
    rcases reveals with hidden | same
    · exact .inl hidden
    · exact .inr ⟨e,heard,a,returned,rfl,same⟩

end

/-- A platform without operations has no retries either. -/
structure Clean (s : System) : Prop extends Start s where
  retries : s.db.retries = []

/-- What idempotency keys promise of a state and of everything that may follow. -/
structure Idempotent (s : System) : Prop where
  /-- A key is used for one operation, by requests with one body. -/
  once : ∀ {k : Identity} {id id' body body'}, k.Used s.db id body → k.Used s.db id' body' → id = id' ∧ body = body'
  stays : ∀ {k : Identity} {id body u}, k.Used s.db id body → Reaches step (fun _ _ => True) s u → k.Used u.db id body
  /-- The one request that changes anything under a key uses it up. -/
  admits : ∀ {l s' i t k}, step l s = some s' → Runs l i → s.threads[i]? = some t → identityOf t.tag = some k →
    s'.db = s.db ∨ ∃ id, Admission k s.db s'.db id
  repeats : ∀ {l s' i t k id body}, step l s = some s' → Runs l i → s.threads[i]? = some t →
    identityOf t.tag = some k → k.Used s.db id body → s'.db = s.db
  /-- A reply names the operation, and a password is only told to the request that drew
      the operation. -/
  replies : ∀ {t k o replayed credentials}, t ∈ s.threads → identityOf t.tag = some k →
    t.rest = .pure (some (.accepted o replayed credentials)) →
    k.Used s.db o.id k.body ∧ (credentials.isSome → o.id = t.tag.drawn)
  /-- A request that arrives when its key has been used is never told a password, and
      replies with that operation if it replies. -/
  later : ∀ {k : Identity} {id body options request s' u t o replayed credentials}, k.Used s.db id body →
    identify request = some k → step (.request options request) s = some s' → Reaches step (fun _ _ => True) s' u →
    u.threads[s.threads.length]? = some t → t.rest = .pure (some (.accepted o replayed credentials)) →
    body = k.body ∧ o.id = id ∧ credentials = none
  /-- It does reply, after two calls, unless the body differs, which is refused. -/
  answers : ∀ {k : Identity} {id body options request s' u}, k.Used s.db id body → identify request = some k →
    configured options request = true → step (.request options request) s = some s' →
    Reaches step (Attended s.threads.length k) s' u →
    ∃ t, u.threads[s.threads.length]? = some t ∧
      ((t.history.length < 2 ∧ ∃ c next, t.rest = .request c next) ∨ (t.history.length = 2 ∧ Answered k id body t))

theorem kept_start {s : System} (clean : Clean s) : Kept s where
  sound := (Consistent.start clean.toStart).sound
  keyed :=
    { operations := fun row => by rw [clean.operations] at row; simp at row
      retries := fun row => by rw [clean.retries] at row; simp at row
      bindings := fun row => by rw [clean.bindings] at row; simp at row
      resumed := fun row => by rw [clean.retries] at row; simp at row }
  truthful t member := by rw [clean.threads] at member; cases member

section
variable {s u : System} {k : Identity} {id : OperationId} {body : Body}

theorem kept_reaches {allowed : System → Label → Prop} (kept : Kept s) (used : k.Used s.db id body)
    (reached : Reaches step allowed s u) : Kept u ∧ k.Used u.db id body :=
  reached.invariant (I := fun u => Kept u ∧ k.Used u.db id body) ⟨kept,used⟩ (fun both _ moved => ⟨both.1.step moved,used_step both.2 moved⟩)

/-- What a request has just after it arrived. -/
theorem arrives {s' : System} {options : Options} {request : Request} (moved : step (.request options request) s = some s') :
    s'.db = s.db ∧ s'.threads[s.threads.length]? = some (Thread.spawn (.request options request s.fresh)) := by
  cases moved
  exact ⟨rfl,by simp [System.spawn]⟩

theorem later_reply {s' : System} {options : Options} {request : Request} {t : Running} {o : Operation}
    {replayed : Option Bool} {credentials : Option CredentialData} (kept : Kept s) (used : k.Used s.db id body)
    (asks : identify request = some k) (moved : step (.request options request) s = some s')
    (reached : Reaches step (fun _ _ => True) s' u) (there : u.threads[s.threads.length]? = some t)
    (ended : t.rest = .pure (some (.accepted o replayed credentials))) :
    body = k.body ∧ o.id = id ∧ credentials = none := by
  obtain ⟨same,arrived⟩ := arrives moved
  have used' : k.Used s'.db id body := by rw [same]; exact used
  obtain ⟨kept',usedNow⟩ := kept_reaches (kept.step moved) used' reached
  have hidden : Kept u ∧ k.Used u.db id body ∧ ∃ t, u.threads[s.threads.length]? = some t ∧ identityOf t.tag = some k ∧
      ∀ e ∈ t.history, ∀ a, receiptOf e = some a → a.credentials = none := by
    refine reached.invariant (I := fun u => Kept u ∧ k.Used u.db id body ∧ ∃ t, u.threads[s.threads.length]? = some t ∧
        identityOf t.tag = some k ∧ ∀ e ∈ t.history, ∀ a, receiptOf e = some a → a.credentials = none)
      ⟨kept.step moved,used',_,arrived,asks,fun e member => (by cases member)⟩ ?_
    rintro v w l ⟨kept,used,t,there,asks,hidden⟩ _ moved
    obtain ⟨t',there',tag,hidden'⟩ := hidden_step kept used there asks hidden moved
    exact ⟨kept.step moved,used_step used moved,t',there',by rw [tag]; exact asks,hidden'⟩
  obtain ⟨_,_,t₀,there₀,asks₀,hides⟩ := hidden
  rw [there] at there₀
  cases there₀
  obtain ⟨names,reveals⟩ := reply_used kept' (List.mem_of_getElem? there) asks₀ ended
  obtain ⟨named,bodies⟩ := kept'.keyed.unique names usedNow
  refine ⟨bodies.symm,named,?_⟩
  rcases reveals with hidden | ⟨e,heard,a,returned,_,reveals⟩
  · exact hidden
  · exact reveals.trans (hides e heard a returned)

theorem later_answers {s' : System} {options : Options} {request : Request} (kept : Kept s) (used : k.Used s.db id body)
    (asks : identify request = some k) (set : configured options request = true)
    (moved : step (.request options request) s = some s') (reached : Reaches step (Attended s.threads.length k) s' u) :
    ∃ t, u.threads[s.threads.length]? = some t ∧ Stage k id body t := by
  obtain ⟨same,arrived⟩ := arrives moved
  have used' : k.Used s'.db id body := by rw [same]; exact used
  have stages : Kept u ∧ k.Used u.db id body ∧ ∃ t, u.threads[s.threads.length]? = some t ∧ Stage k id body t := by
    obtain ⟨next,opens,goesOn⟩ := @program_opens k s.fresh options request asks set
    refine reached.invariant (I := fun u => Kept u ∧ k.Used u.db id body ∧ ∃ t,
        u.threads[s.threads.length]? = some t ∧ Stage k id body t)
      ⟨kept.step moved,used',_,arrived,.arrived rfl opens goesOn⟩ ?_
    rintro v w l ⟨kept,used,t,there,stage⟩ attended moved
    exact ⟨kept.step moved,used_step used moved,stage_step kept used there stage attended moved⟩
  exact stages.2.2

theorem Kept.idempotent (kept : Kept s) : Idempotent s where
  once used used' := kept.keyed.unique used used'
  stays used reached := (kept_reaches kept used reached).2
  admits moved runs there asks := identified_step kept moved runs there asks
  repeats moved runs there asks used := by
    rcases identified_step kept moved runs there asks with same | ⟨id,admission⟩
    · exact same
    · exact absurd used (admission.unused _ _)
  replies member asks ended := by
    obtain ⟨names,reveals⟩ := reply_used kept member asks ended
    refine ⟨names,fun told => ?_⟩
    rcases reveals with rfl | ⟨e,heard,a,returned,rfl,rfl⟩
    · cases told
    · rcases ((kept.truthful _ member _ asks e heard).receipt a returned).2 with hidden | ⟨drawn,_⟩
      · rw [hidden] at told
        cases told
      · exact drawn
  later used asks moved reached there ended := later_reply kept used asks moved reached there ended
  answers used asks set moved reached := by
    obtain ⟨t,there,stage⟩ := later_answers kept used asks set moved reached
    refine ⟨t,there,?_⟩
    cases stage with
    | arrived fresh rest goesOn => exact .inl ⟨by rw [fresh]; decide,_,_,rest⟩
    | letIn one rest looks => exact .inl ⟨by rw [one]; decide,_,_,rest⟩
    | answered two answered => exact .inr ⟨two,answered⟩

end

theorem keys_idempotent {s₀ s : System} (clean : Clean s₀) (reached : Reaches step (fun _ _ => True) s₀ s) :
    Idempotent s :=
  (reached.invariant (kept_start clean) (fun kept _ moved => kept.step moved)).idempotent

/-- Two requests under one key arrive at the same time, and one of them is admitted. -/
def doubling : List Label :=
  [.request smallOptions (.createInstance (administrator "create") smallInput),
    .request smallOptions (.createInstance (administrator "create") smallInput)] ++ calls 0 2 ++ calls 1 1

/-- The other one is left with the key. -/
def doubled : Identity := ⟨administrator "create",[.admin,.maintainer],some .create,.request (.create smallInput)⟩

theorem keys_idempotent_doubling : ∃ s, Clean small ∧ Reaches step (fun _ _ => True) small s ∧
    doubled.Used s.db 100 doubled.body ∧ s.threads.map (fun t => identityOf t.tag) = [some doubled,some doubled] ∧
    Idempotent s := by
  have clean : Clean small := ⟨small_start,rfl⟩
  obtain ⟨s,reached,holds⟩ := reaches_of_run (fun _ _ _ => trivial)
    (show (run step (fun _ _ => true) doubling small).any (fun s =>
      (s.db.operations.lookup 100).any (fun o => o.projectId = 1 ∧ o.kind = .create ∧ o.idempotencyKey = "create" ∧
        o.requestHash = .create smallInput) &&
      s.threads.map (fun t => identityOf t.tag) = [some doubled,some doubled]) = true by decide +kernel)
  simp only [Bool.and_eq_true,Option.any_eq_true,decide_eq_true_eq] at holds
  obtain ⟨⟨o,row,project,kind,key,hash⟩,both⟩ := holds
  exact ⟨s,clean,reached,⟨o,row,project,kind,key,congrArg _ hash.symm⟩,both,keys_idempotent clean reached⟩

end Expbuild.Idempotency
