import Expbuild.Runs
import Expbuild.Transactions
import Expbuild.ApiServer
import Expbuild.Worker
import Expbuild.Routes

/-!
The platform as a whole: the database, the cluster, and any number of running
ticks and requests, each of which is somewhere between two of its calls. A step
starts a program, lets one program make its next call, or is something else that
happens: time passes, accounts change, the operator or somebody else acts on the
cluster. A program that is never run again has crashed, and one that is run late
has stalled.
-/
namespace Expbuild.Platform
open Expbuild.Contract Expbuild.Schema Expbuild.Tables Expbuild.Programs Expbuild.Runs Expbuild.Calls
open Expbuild.Transactions (Pick transact)
open Expbuild.ApiServer (Cluster Act serve act)
open Expbuild.Routes (Request Reply handle)

/-- What a program is: a tick of a worker under its claim, or the handler of a
    request. -/
inductive Task where
  | tick (gated : Bool) (claim : ClaimId)
  | request (options : Options) (request : Request) (drawn : Nat)

/-- The identifier that a task drew. -/
def Task.drawn : Task → Nat
  | .tick _ claim => claim
  | .request _ _ drawn => drawn

/-- A request ends with its reply. -/
def program : Task → Io (Option Reply)
  | .tick gated claim => do
    Worker.tick gated claim
    return none
  | .request options request drawn => do
    let reply ← handle options drawn request
    return some reply

abbrev Running := Thread program

structure System where
  db : Db := {}
  kube : Cluster := {}
  threads : List Running := []
  /-- The next identifier that `randomUUID` draws. -/
  fresh : Nat := 0

/-- A platform without instances: accounts and projects may be there. -/
structure Start (s : System) : Prop where
  bindings : s.db.bindings = ∅
  operations : s.db.operations = ∅
  credentials : s.db.credentials = []
  audit : s.db.audit = []
  objects : s.kube.objects = {}
  writes : s.kube.writes = []
  threads : s.threads = []

/-- A status that refuses a request without saying anything about the object. -/
abbrev Refusal := { code : Option Nat // code ≠ some 404 ∧ code ≠ some 409 }

/-- How a call goes: as it should, refused without an effect, or with its answer
    lost after it took effect. -/
inductive Fault where
  | delivered
  | refused (code : Refusal)
  | lost (code : Refusal)

/-- The state and the answer after a call that would do `outcome`. -/
def answered {S V : Type} (fault : Fault) (failure : Refusal → Failure) (s : S) (outcome : Except Failure (S × V)) :
    S × Except Failure V :=
  match fault,outcome with
  | .delivered,.ok (after,v) => (after,.ok v)
  | .delivered,.error e => (s,.error e)
  | .refused code,_ => (s,.error (failure code))
  | .lost code,.ok (after,_) => (after,.error (failure code))
  | .lost code,.error _ => (s,.error (failure code))

/-- Makes a call. An error of the database carries no status. -/
def perform (fault : Fault) (pick : Pick) (c : Call) (world : Db × Cluster) : (Db × Cluster) × c.Answer :=
  match c with
  | .kube call =>
    let (after,x) := answered fault (fun code => .api code.1) world.2 (serve world.2 call)
    ((world.1,after),x)
  | .db call =>
    let (after,x) := answered fault (fun _ => .api none) world.1 (transact pick world.1 call)
    ((after,world.2),x)
  | .clock => (world,.ok pick.clock)

/-- Any answers at all to calls of Kubernetes: a value, or an error with a status. -/
abbrev Forgery := (call : KubeCall) → Except (Option Nat) call.Value
def forged (forgery : Forgery) (c : Call) (world : Db × Cluster) : Option ((Db × Cluster) × c.Answer) :=
  match c with
  | .kube call => some (world,(forgery call).mapError .api)
  | _ => none

inductive Label where
  | tick (gated : Bool)
  | request (options : Options) (request : Request)
  | run (thread : Nat) (fault : Fault) (pick : Pick)
  /-- Kubernetes answers a call in any way. -/
  | forge (thread : Nat) (forgery : Forgery)
  | wait (seconds : Nat)
  | accounts (users : Table UserId User) (members : Table (ProjectId × UserId) Role)
  | act (a : Act)

def System.spawn (s : System) (task : Task) : System :=
  { s with threads := s.threads ++ [Thread.spawn task], fresh := s.fresh + 1 }

/-- Lets one thread make its next call. -/
def System.advance (s : System) (i : Nat) (answer : (c : Call) → Db × Cluster → Option ((Db × Cluster) × c.Answer)) :
    Option System := do
  let t ← s.threads[i]?
  let (world,t') ← t.advance answer (s.db,s.kube)
  return { s with db := world.1, kube := world.2, threads := s.threads.set i t' }

def step : Label → System → Option System
  | .tick gated,s => some (s.spawn (.tick gated s.fresh))
  | .request options request,s => some (s.spawn (.request options request s.fresh))
  | .run i fault pick,s => s.advance i (fun c world => some (perform fault pick c world))
  | .forge i forgery,s => s.advance i (forged forgery)
  | .wait seconds,s => some { s with db := { s.db with now := s.db.now + seconds } }
  | .accounts users members,s => some { s with db := { s.db with users := users, members := members } }
  | .act a,s => (act s.kube a).map (fun kube => { s with kube := kube })

/-! ### What a step can do -/

/-- A thread makes a call, with its answer, between two states. -/
structure Makes (s s' : System) (t : Running) (c : Call) (x : c.Answer) : Prop where
  member : t ∈ s.threads
  next : ∃ next, t.rest = .request c next
  others : ∀ t' ∈ s'.threads, t' ∈ s.threads ∨ (t'.tag = t.tag ∧ t'.history = ⟨c,x⟩ :: t.history)
  fresh : s'.fresh = s.fresh

theorem advance_cases {s s' : System} {i : Nat} {answer : (c : Call) → Db × Cluster → Option ((Db × Cluster) × c.Answer)}
    (moved : s.advance i answer = some s') :
    ∃ t c x, Makes s s' t c x ∧ s.threads[i]? = some t ∧ answer c (s.db,s.kube) = some ((s'.db,s'.kube),x) := by
  simp only [System.advance,Option.bind_eq_bind,Option.bind_eq_some_iff,Option.pure_def,Option.some.injEq] at moved
  obtain ⟨t,found,⟨world,t'⟩,moved,rfl⟩ := moved
  obtain ⟨c,next,x,left,answered,tag,history,_⟩ := Thread.advance_some moved
  refine ⟨t,c,x,⟨List.mem_of_getElem? found,⟨next,left⟩,?_,rfl⟩,found,answered⟩
  intro other member
  rcases List.mem_or_eq_of_mem_set member with member | rfl
  · exact .inl member
  · exact .inr ⟨tag,history⟩

/-- What a step is. -/
inductive Steps (s : System) : Label → System → Prop where
  | spawned {l : Label} (task : Task) (drawn : task.drawn = s.fresh) : Steps s l (s.spawn task)
  | called {s' : System} {t : Running} {c : Call} {x : c.Answer} {i : Nat} {fault : Fault} {pick : Pick}
      (at_index : s.threads[i]? = some t) (makes : Makes s s' t c x)
      (performed : perform fault pick c (s.db,s.kube) = ((s'.db,s'.kube),x)) : Steps s (.run i fault pick) s'
  | forged {s' : System} {t : Running} {call : KubeCall} {i : Nat} {forgery : Forgery}
      (makes : Makes s s' t (.kube call) ((forgery call).mapError .api)) (db : s'.db = s.db) (kube : s'.kube = s.kube) :
      Steps s (.forge i forgery) s'
  | waited (seconds : Nat) : Steps s (.wait seconds) { s with db := { s.db with now := s.db.now + seconds } }
  | accounts (users : Table UserId User) (members : Table (ProjectId × UserId) Role) :
      Steps s (.accounts users members) { s with db := { s.db with users := users, members := members } }
  | acted {a : Act} {kube : Cluster} (acts : act s.kube a = some kube) : Steps s (.act a) { s with kube := kube }

theorem step_cases {l : Label} {s s' : System} (moved : step l s = some s') : Steps s l s' := by
  cases l with
  | tick gated => cases moved; exact .spawned (.tick gated s.fresh) rfl
  | request options request => cases moved; exact .spawned (.request options request s.fresh) rfl
  | run i fault pick =>
    obtain ⟨t,c,x,makes,found,performed⟩ := advance_cases moved
    exact .called found makes (Option.some.inj performed)
  | forge i forgery =>
    obtain ⟨t,c,x,makes,_,performed⟩ := advance_cases moved
    cases c with
    | kube call =>
      simp only [forged,Option.some.injEq,Prod.mk.injEq] at performed
      obtain ⟨⟨db,kube⟩,rfl⟩ := performed
      exact .forged makes db.symm kube.symm
    | db call => cases performed
    | clock => cases performed
  | wait seconds => cases moved; exact .waited seconds
  | accounts users members => cases moved; exact .accounts users members
  | act a =>
    obtain ⟨kube,acts,rfl⟩ := Option.map_eq_some_iff.mp moved
    exact .acted acts

/-- How a call went: done, thrown, refused, or done with its answer lost. -/
inductive Outcome {S V : Type} (failure : Refusal → Failure) (s s' : S) (outcome : Except Failure (S × V))
    (x : Except Failure V) : Prop where
  | done (v : V) (ok : outcome = .ok (s',v)) (answer : x = .ok v)
  | threw (e : Failure) (error : outcome = .error e) (same : s' = s) (answer : x = .error e)
  | refused (code : Refusal) (same : s' = s) (answer : x = .error (failure code))
  | lost (v : V) (code : Refusal) (ok : outcome = .ok (s',v)) (answer : x = .error (failure code))

theorem answered_cases {S V : Type} {fault : Fault} {failure : Refusal → Failure} {s s' : S}
    {outcome : Except Failure (S × V)} {x : Except Failure V} (performed : answered fault failure s outcome = (s',x)) :
    Outcome failure s s' outcome x := by
  cases fault with
  | delivered =>
    cases outcome with
    | ok r => cases performed; exact .done r.2 rfl rfl
    | error e => cases performed; exact .threw e rfl rfl rfl
  | refused code => cases performed; exact .refused code rfl rfl
  | lost code =>
    cases outcome with
    | ok r => cases performed; exact .lost r.2 code rfl rfl
    | error e => cases performed; exact .refused code rfl rfl

theorem perform_kube {fault : Fault} {pick : Pick} {call : KubeCall} {db db' : Db} {kube kube' : Cluster}
    {x : Except Failure call.Value} (performed : perform fault pick (.kube call) (db,kube) = ((db',kube'),x)) :
    db' = db ∧ Outcome (fun code => .api code.1) kube kube' (serve kube call) x := by
  simp only [perform,Prod.mk.injEq] at performed
  obtain ⟨⟨rfl,rfl⟩,rfl⟩ := performed
  exact ⟨rfl,answered_cases rfl⟩

theorem perform_db {fault : Fault} {pick : Pick} {call : DbCall} {db db' : Db} {kube kube' : Cluster}
    {x : Except Failure call.Value} (performed : perform fault pick (.db call) (db,kube) = ((db',kube'),x)) :
    kube' = kube ∧ Outcome (fun _ => .api none) db db' (transact pick db call) x := by
  simp only [perform,Prod.mk.injEq] at performed
  obtain ⟨⟨rfl,rfl⟩,rfl⟩ := performed
  exact ⟨rfl,answered_cases rfl⟩

/-- The step lets a thread make a call that reaches its service. -/
def Executes (s : System) (l : Label) (t : Running) (c : Call) : Prop :=
  ∃ i fault pick next, l = .run i fault pick ∧ (∀ code, fault ≠ .refused code) ∧ s.threads[i]? = some t ∧
    t.rest = .request c next

/-- What the answer of a call says about the service. -/
inductive Heard (s : System) (l : Label) (s' : System) (t : Running) : (c : Call) → c.Answer → Prop where
  | transacted {call : DbCall} {pick : Pick} {v : call.Value} {x : Except Failure call.Value}
      (executes : Executes s l t (.db call)) (ran : transact pick s.db call = .ok (s'.db,v)) (kube : s'.kube = s.kube)
      (answer : x = .ok v ∨ x = .error (.api none)) : Heard s l s' t (.db call) x
  | aborted {call : DbCall} {e : Failure} (db : s'.db = s.db) (kube : s'.kube = s.kube)
      (why : (∃ pick, transact pick s.db call = .error e) ∨ e = .api none) : Heard s l s' t (.db call) (.error e)
  | served {call : KubeCall} {v : call.Value} {x : Except Failure call.Value}
      (executes : Executes s l t (.kube call)) (ran : serve s.kube call = .ok (s'.kube,v)) (db : s'.db = s.db)
      (answer : x = .ok v ∨ ∃ code : Refusal, x = .error (.api code.1)) : Heard s l s' t (.kube call) x
  | rejected {call : KubeCall} {e : Failure} (db : s'.db = s.db) (kube : s'.kube = s.kube)
      (why : serve s.kube call = .error e ∨ ∃ code : Refusal, e = .api code.1) :
      Heard s l s' t (.kube call) (.error e)
  | forged {call : KubeCall} {i : Nat} {forgery : Forgery} (label : l = .forge i forgery) (db : s'.db = s.db)
      (kube : s'.kube = s.kube) : Heard s l s' t (.kube call) ((forgery call).mapError .api)
  | clock {now : Nat} (db : s'.db = s.db) (kube : s'.kube = s.kube) : Heard s l s' t .clock (.ok now)

/-- Nothing but time and accounts changes. -/
structure Idle (db db' : Db) : Prop where
  operations : db'.operations = db.operations
  bindings : db'.bindings = db.bindings
  projects : db'.projects = db.projects
  credentials : db'.credentials = db.credentials
  retries : db'.retries = db.retries
  audit : db'.audit = db.audit
  now : db.now ≤ db'.now

theorem Idle.of_eq {db db' : Db} (same : db' = db) : Idle db db' := by
  subst same
  exact ⟨rfl,rfl,rfl,rfl,rfl,rfl,Nat.le_refl _⟩

/-- A step by what it is to the threads. -/
inductive Moves (s : System) (l : Label) (s' : System) : Prop where
  | idle (idle : Idle s.db s'.db) (kube : s'.kube = s.kube)
      (threads : ∀ t ∈ s'.threads, t ∈ s.threads ∨ (∃ task, t = Thread.spawn task ∧ task.drawn = s.fresh ∧
        s'.fresh = s.fresh + 1)) (fresh : s.fresh ≤ s'.fresh)
  | heard {t : Running} {c : Call} {x : c.Answer} (makes : Makes s s' t c x) (heard : Heard s l s' t c x)
  | acted {a : Act} (label : l = .act a) (acts : act s.kube a = some s'.kube) (db : s'.db = s.db)
      (threads : s'.threads = s.threads) (fresh : s'.fresh = s.fresh)

theorem perform_heard {s s' : System} {t : Running} {c : Call} {x : c.Answer} {i : Nat} {fault : Fault} {pick : Pick}
    (found : s.threads[i]? = some t) (makes : Makes s s' t c x)
    (performed : perform fault pick c (s.db,s.kube) = ((s'.db,s'.kube),x)) :
    Heard s (.run i fault pick) s' t c x := by
  obtain ⟨next,left⟩ := makes.next
  -- a call that was refused has done nothing
  have executes : (∀ code, fault ≠ .refused code) → Executes s (.run i fault pick) t c :=
    fun reached => ⟨i,fault,pick,next,rfl,reached,found,left⟩
  cases c with
  | kube call =>
    obtain ⟨db,outcome⟩ := perform_kube performed
    by_cases refused : ∃ code, fault = .refused code
    · obtain ⟨code,rfl⟩ := refused
      simp only [perform,answered,Prod.mk.injEq] at performed
      obtain ⟨⟨_,kube⟩,rfl⟩ := performed
      exact .rejected db kube.symm (.inr ⟨code,rfl⟩)
    · have reached := executes (fun code same => refused ⟨code,same⟩)
      cases outcome with
      | done v ok answer => exact .served reached ok db (.inl answer)
      | threw e error same answer => rw [answer]; exact .rejected db same (.inl error)
      | refused code same answer => rw [answer]; exact .rejected db same (.inr ⟨code,rfl⟩)
      | lost v code ok answer => exact .served reached ok db (.inr ⟨code,answer⟩)
  | db call =>
    obtain ⟨kube,outcome⟩ := perform_db performed
    by_cases refused : ∃ code, fault = .refused code
    · obtain ⟨code,rfl⟩ := refused
      simp only [perform,answered,Prod.mk.injEq] at performed
      obtain ⟨⟨db,_⟩,rfl⟩ := performed
      exact .aborted db.symm kube (.inr rfl)
    · have reached := executes (fun code same => refused ⟨code,same⟩)
      cases outcome with
      | done v ok answer => exact .transacted reached ok kube (.inl answer)
      | threw e error same answer => rw [answer]; exact .aborted same kube (.inl ⟨pick,error⟩)
      | refused code same answer => rw [answer]; exact .aborted same kube (.inr rfl)
      | lost v code ok answer => exact .transacted reached ok kube (.inr answer)
  | clock =>
    simp only [perform,Prod.mk.injEq] at performed
    obtain ⟨⟨db,kube⟩,rfl⟩ := performed
    exact .clock db.symm kube.symm

/-- What a step of a thread is, where its next call is known. -/
theorem executes_heard {l : Label} {s s' : System} {t : Running} {c : Call} (executes : Executes s l t c)
    (moved : step l s = some s') : ∃ x, Makes s s' t c x ∧ Heard s l s' t c x := by
  obtain ⟨i,fault,pick,next,rfl,_,found,left⟩ := executes
  obtain ⟨t',c',x,makes,found',performed⟩ := advance_cases moved
  rw [found] at found'
  cases found'
  obtain ⟨next',left'⟩ := makes.next
  rw [left] at left'
  cases left'
  exact ⟨x,makes,perform_heard found makes (Option.some.inj performed)⟩

theorem step_moves {l : Label} {s s' : System} (moved : step l s = some s') : Moves s l s' := by
  cases step_cases moved with
  | spawned task drawn =>
    refine .idle (Idle.of_eq rfl) rfl (fun t member => ?_) (Nat.le_succ _)
    rcases List.mem_append.mp member with member | member
    · exact .inl member
    · exact .inr ⟨task,List.mem_singleton.mp member,drawn,rfl⟩
  | called found makes performed => exact .heard makes (perform_heard found makes performed)
  | forged makes db kube => exact .heard makes (.forged rfl db kube)
  | waited seconds =>
    exact .idle ⟨rfl,rfl,rfl,rfl,rfl,rfl,Nat.le_add_right _ _⟩ rfl (fun t member => .inl member) (Nat.le_refl _)
  | accounts users members =>
    exact .idle ⟨rfl,rfl,rfl,rfl,rfl,rfl,Nat.le_refl _⟩ rfl (fun t member => .inl member) (Nat.le_refl _)
  | acted acts => exact .acted rfl acts rfl rfl rfl

/-- What a step does to the database. -/
theorem step_db {l : Label} {s s' : System} (moved : step l s = some s') :
    Idle s.db s'.db ∨ ∃ t c x pick v, Makes s s' t (.db c) x ∧ Executes s l t (.db c) ∧
      transact pick s.db c = .ok (s'.db,v) := by
  cases step_moves moved with
  | idle idle kube threads fresh => exact .inl idle
  | heard makes heard =>
    cases heard with
    | transacted executes ran kube answer => exact .inr ⟨_,_,_,_,_,makes,executes,ran⟩
    | aborted db kube why | served executes ran db answer | rejected db kube why | forged label db kube
    | clock db kube => exact .inl (Idle.of_eq db)
  | acted label acts db threads fresh => exact .inl (Idle.of_eq db)

/-- A call of the database leaves the cluster alone. -/
theorem executes_db_kube {l : Label} {s s' : System} {t : Running} {c : DbCall} (executes : Executes s l t (.db c))
    (moved : step l s = some s') : s'.kube = s.kube := by
  obtain ⟨x,_,heard⟩ := executes_heard executes moved
  cases heard with
  | transacted executes ran kube answer => exact kube
  | aborted db kube why => exact kube

/-- A call of Kubernetes leaves the database alone. -/
theorem executes_kube_db {l : Label} {s s' : System} {t : Running} {c : KubeCall} (executes : Executes s l t (.kube c))
    (moved : step l s = some s') : s'.db = s.db := by
  obtain ⟨x,_,heard⟩ := executes_heard executes moved
  cases heard with
  | served executes ran db answer => exact db
  | rejected db kube why | forged label db kube => exact db

/-! ### Facts about threads -/

/-- What every thread knows from its past holds after a step if it stays true and
    is true of whatever a thread learns in the step. -/
theorem threads_step {s s' : System} {l : Label} (Fact : System → Task → Past → Prop) (moved : step l s = some s')
    (holds : ∀ t ∈ s.threads, Fact s t.tag t.history) (start : ∀ task, Fact s' task [])
    (stable : ∀ t ∈ s.threads, Fact s t.tag t.history → Fact s' t.tag t.history)
    (learned : ∀ t c x, Makes s s' t c x → Heard s l s' t c x → Fact s t.tag t.history →
      Fact s' t.tag (⟨c,x⟩ :: t.history)) :
    ∀ t ∈ s'.threads, Fact s' t.tag t.history := by
  intro t member
  cases step_moves moved with
  | idle idle kube threads fresh =>
    rcases threads t member with member | ⟨task,rfl,_⟩
    · exact stable t member (holds t member)
    · exact start task
  | heard makes heard =>
    rcases makes.others t member with member | ⟨tag,history⟩
    · exact stable t member (holds t member)
    · rw [tag,history]
      exact learned _ _ _ makes heard (holds _ makes.member)
  | acted label acts db threads fresh =>
    rw [threads] at member
    exact stable t member (holds t member)

/-! ### A small platform, to run -/

/-- One ready project, one administrator. -/
def small : System :=
  { db := { users := (∅ : Table UserId User).insert 7 ⟨true,true⟩
            projects := (∅ : Table ProjectId Project).insert 1 { ns := ⟨1⟩, state := .ready } }
    fresh := 100 }

theorem small_start : Start small := ⟨rfl,rfl,rfl,rfl,rfl,rfl,rfl⟩

def smallInput : InstanceInput :=
  { template := .bazelRemote, name := "cache", storageGiB := 10, cpuMillis := 500, memoryMiB := 512, cacheGiB := 5
    exposure := .clusterInternal, desiredState := .running, deletionPolicy := .delete, readOnly := false
    storageBounds := by decide, cpuBounds := by decide, memoryBounds := by decide, cacheBounds := by decide }
def smallOptions : Options := { storageClass := some "fast" }
/-- The administrator, under an idempotency key. -/
def administrator (key : String) : Caller := ⟨7,1,key⟩

/-- Lets a thread make its next calls, all of them answered. -/
def calls (thread count : Nat) (pick : Pick := {}) : List Label := List.replicate count (.run thread .delivered pick)

/-- The call that a step lets a thread make. -/
def calling (s : System) : Label → Option Call
  | .run i _ _ => (s.threads[i]?).bind (fun t => match t.rest with
    | .request c _ => some c
    | _ => none)
  | _ => none

theorem executes_calling {s : System} {l : Label} {t : Running} {c : Call} (executes : Executes s l t c) :
    calling s l = some c := by
  obtain ⟨i,fault,pick,next,rfl,_,found,left⟩ := executes
  simp [calling,found,left]

/-- The next call of a thread that is run reaches its service. -/
theorem executes_of_calling {s : System} {i : Nat} {pick : Pick} {c : Call}
    (next : calling s (.run i .delivered pick) = some c) : ∃ t, Executes s (.run i .delivered pick) t c := by
  simp only [calling,Option.bind_eq_some_iff] at next
  obtain ⟨t,found,next⟩ := next
  split at next
  · rename_i c' rest left
    cases next
    exact ⟨t,i,.delivered,pick,rest,rfl,by simp,found,left⟩
  · cases next

/-- Where the object of the first instance is. -/
def smallKey : Key := (⟨1⟩,⟨100⟩)
/-- The operator reports the `Ready` condition. -/
def reports (generation : Nat) (status reason : String) : Label :=
  .act (.status smallKey { observedGeneration := some generation,
                           conditions := [⟨"Ready",status,reason,some generation⟩] })

/-- An instance is created: its request is admitted, and a first tick makes the
    object and the binding. -/
def admitting : List Label :=
  [.request smallOptions (.createInstance (administrator "create") smallInput)] ++ calls 0 2
def creating : List Label := admitting ++ [.tick false] ++ calls 1 11 { operation := 100 }
/-- The operator rejects its configuration, and the creation fails. -/
def failing : List Label :=
  creating ++ [reports 1 "False" "InvalidConfiguration",.wait 3,.tick false] ++ calls 2 5 { operation := 100 }
/-- The creation is retried. -/
def retrying : List Label :=
  failing ++ [.request smallOptions (.retryOperation (administrator "retry") 100)] ++ calls 3 2
/-- Its volume, which never was, is deleted. -/
def releasing : List Label :=
  failing ++ [.request smallOptions (.deleteRetainedVolume (administrator "volume") 100 0)] ++ calls 3 2 ++
    [.tick false] ++ calls 4 6 { operation := 103 }
/-- It is deleted instead: a first tick deletes the object, and a second one finds it
    missing. -/
def deleting : List Label :=
  failing ++ [.request smallOptions (.deleteInstance (administrator "delete") 100)] ++ calls 3 2 ++
    [.tick false] ++ calls 4 6 { operation := 103 } ++ [.wait 3,.tick false] ++ calls 5 7 { operation := 103 }

/-- The instance becomes ready, and the creation succeeds. -/
def activating : List Label :=
  creating ++ [reports 1 "True" "Ready",.wait 3,.tick false] ++ calls 2 5 { operation := 100 }
/-- Its credentials are rotated, up to the call that deletes the old Secret. -/
def rotating : List Label :=
  activating ++ [.request smallOptions (.rotateCredentials (administrator "rotate") 100 ⟨some 0,some 1⟩)] ++ calls 3 5 ++
    [.tick false] ++ calls 4 8 { operation := 103 } ++ [reports 2 "True" "Ready",.wait 3,.tick false] ++
    calls 5 6 { operation := 103 }

/-- An instance that keeps its volume. -/
def keptInput : InstanceInput := { smallInput with deletionPolicy := .retain }
def keptVolume : Claim :=
  { uid := 9, resourceVersion := 1, labels := ⟨true,some 1,some 100,some 0⟩, storageClass := "fast", phase := "Bound"
    capacity := "10Gi", allocatedCapacity := "10Gi" }
/-- It is created and deleted again: one worker finds the object missing and stalls,
    another one finishes. -/
def detaching : List Label :=
  [.request smallOptions (.createInstance (administrator "create") keptInput)] ++ calls 0 2 ++
    [.tick false] ++ calls 1 11 { operation := 100 } ++
    [reports 1 "True" "Ready",.wait 3,.tick false] ++ calls 2 5 { operation := 100 } ++
    [.request smallOptions (.deleteInstance (administrator "delete") 100)] ++ calls 3 2 ++
    [.tick false] ++ calls 4 6 { operation := 103 } ++ [.wait 3,.tick false] ++ calls 5 3 { operation := 103 } ++
    [.wait 31,.tick false] ++ calls 6 7 { operation := 103 }
/-- Its volume is reclaimed: the request is admitted, and a tick makes the object. -/
def reclaiming : List Label :=
  detaching ++ [.act (.claim smallKey (some keptVolume)),
    .request smallOptions (.reclaimRetainedVolume (administrator "reclaim") 100 9 keptInput)] ++ calls 7 7 ++
    [.tick false] ++ calls 8 16 { operation := 107 }

end Expbuild.Platform
