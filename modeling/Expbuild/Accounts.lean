import Expbuild.Locks
import Expbuild.Runs
import Expbuild.Schema

/-!
Accounts, sessions and memberships, one SQL statement at a time. A route runs
its statements over a pool or in a transaction (`transaction`). PostgreSQL runs
at READ COMMITTED: a statement sees what is committed when it runs, with the
writes of its own transaction, and these become visible to others at COMMIT.
Everything that these routes do not look at (instances, operations, quotas) is
one type `R`, on which a statement may do anything.
-/
namespace Expbuild.Accounts
open Expbuild.Contract Expbuild.Schema Expbuild.Tables Expbuild.Programs Expbuild.Runs Expbuild.Locks

/-! ### The tables -/

/-- What `token()` draws. The tables hold digests, which stand for the token. -/
abbrev Token := Nat
abbrev PasswordHash := String

/-- A row of `users`. -/
structure Account where
  email : String
  passwordHash : PasswordHash
  platformAdmin : Bool := false
  active : Bool := true
  deriving DecidableEq,Repr

/-- A row of `sessions`. -/
structure Session where
  user : UserId
  csrf : Token
  expiresAt : Nat
  deriving DecidableEq,Repr

/-- A row of `audit_events` that an account route writes; `user` is in its details. -/
structure AuditRow where
  actor : UserId
  action : String
  project : Option ProjectId := none
  user : Option UserId := none
  deriving DecidableEq,Repr

structure Db (R : Type) where
  users : Table UserId Account := ∅
  sessions : Table Token Session := ∅
  /-- A project with the user that created it. -/
  projects : Table ProjectId UserId := ∅
  members : Table (ProjectId × UserId) Role := ∅
  audit : List AuditRow := []
  rest : R
  now : Nat := 0

variable {R : Type}

/-- What `user` knows about who makes a request. -/
structure Actor where
  id : UserId
  platformAdmin : Bool
  csrf : Token
  deriving DecidableEq,Repr

/-! ### Statements -/

inductive Query where
  /-- The session of a token with its active user (`user`). -/
  | session (token : Token)
  /-- The project with the role of a user (`projectAccess`). -/
  | access (project : ProjectId) (user : UserId)
  | accountOf (email : String)
  | account (user : UserId) (forUpdate : Bool)
  /-- The account, joined with its session, where that has not expired at `now()`. -/
  | signed (user : UserId) (token : Token) (now : Nat)
  /-- The account with its role in a project. -/
  | member (user : UserId) (project : ProjectId)
  | project (project : ProjectId)
  /-- The projects whose only active administrator is the user. -/
  | orphaned (user : UserId)
  /-- The active platform administrators besides the user. -/
  | otherAdmins (user : UserId)
  /-- The active administrators of a project. -/
  | projectAdmins (project : ProjectId)

@[reducible] def Query.Value : Query → Type
  | .session _ => Option Actor
  | .access _ _ => Option (Option Role)
  | .accountOf _ => Option (UserId × Account)
  | .account _ _ | .signed _ _ _ => Option Account
  | .member _ _ => Option (Account × Option Role)
  | .project _ => Bool
  | .orphaned _ => List ProjectId
  | .otherAdmins _ | .projectAdmins _ => List UserId

inductive Write (R : Type) where
  | deleteSession (token : Token)
  | insertSession (token : Token) (session : Session)
  | setPassword (user : UserId) (hash : PasswordHash)
  | deleteSessions (user : UserId)
  | setActive (user : UserId) (active : Bool)
  | insertUser (id : UserId) (account : Account)
  | insertProject (id : ProjectId) (createdBy : UserId)
  | insertMember (project : ProjectId) (user : UserId) (role : Role)
  /-- `INSERT ... ON CONFLICT DO UPDATE`. -/
  | putMember (project : ProjectId) (user : UserId) (role : Role)
  | deleteMember (project : ProjectId) (user : UserId)
  | audit (row : AuditRow)
  /-- Any statement on the other tables. -/
  | other (change : R → R)

/-- What a write answers: the rows that it deleted, or what it saw. -/
@[reducible] def Write.Value : Write R → Type
  | .deleteSessions _ => List Token
  | .other _ => R
  | _ => Unit

inductive Statement (R : Type) where
  | read (q : Query)
  | write (w : Write R)
  /-- `BEGIN`, which answers the `now()` of the transaction. -/
  | begin
  /-- `SELECT pg_advisory_xact_lock(73942102)`. -/
  | lock
  | commit
  | rollback
  /-- A write outside of a transaction. -/
  | single (w : Write R)

@[reducible] def Statement.Value : Statement R → Type
  | .read q => q.Value
  | .write w => w.Value
  | .begin => Nat
  | .lock | .commit | .rollback | .single _ => Unit
abbrev Answers (R : Type) (s : Statement R) : Type := Except Failure s.Value
abbrev Io (R : Type) := Prog (Statement R) (Answers R) Failure
abbrev Past (R : Type) := History (Answers R)

/-! ### What a statement reads and writes -/

def isActive (db : Db R) (user : UserId) : Bool := (db.users.lookup user).any (fun a => a.active)

/-- Whether a row of `project_members` is of an active administrator. -/
def administers (db : Db R) (user : UserId) (role : Role) : Bool := role = .admin && isActive db user

/-- Whether a project has an active administrator besides the user. -/
def managedWithout (db : Db R) (project : ProjectId) (user : UserId) : Bool :=
  anyRow (fun (row : ProjectId × UserId) role => row.1 = project && row.2 ≠ user && administers db row.2 role) db.members

def select (db : Db R) : (q : Query) → q.Value
  | .session token =>
    match db.sessions.lookup token with
    | none => none
    | some s =>
      match db.users.lookup s.user with
      | none => none
      | some a => if db.now < s.expiresAt ∧ a.active then some ⟨s.user,a.platformAdmin,s.csrf⟩ else none
  | .access project user => (db.projects.lookup project).map (fun _ => db.members.lookup (project,user))
  | .accountOf email => (db.users.entries.find? (fun row => row.2.email = email)).map (fun row => (row.1,row.2))
  | .account user _ => db.users.lookup user
  | .signed user token now =>
    if (db.sessions.lookup token).any (fun s => s.user = user && now < s.expiresAt) then db.users.lookup user else none
  | .member user project => (db.users.lookup user).map (fun a => (a,db.members.lookup (project,user)))
  | .project project => (db.projects.lookup project).isSome
  | .orphaned user => (db.members.entries.filter (fun row =>
      row.1.2 = user && row.2 = .admin && !managedWithout db row.1.1 user)).map (fun row => row.1.1)
  | .otherAdmins user => (db.users.entries.filter (fun row =>
      row.2.platformAdmin && row.2.active && row.1 ≠ user)).map (fun row => row.1)
  | .projectAdmins project => (db.members.entries.filter (fun row =>
      row.1.1 = project && administers db row.1.2 row.2)).map (fun row => row.1.2)

/-- The rows that a write finds, or what it sees. -/
def seen (db : Db R) : (w : Write R) → w.Value
  | .deleteSessions user => (db.sessions.entries.filter (fun row => row.2.user = user)).map (fun row => row.1)
  | .other _ => db.rest
  | .deleteSession _ | .insertSession _ _ | .setPassword _ _ | .setActive _ _ | .insertUser _ _ | .insertProject _ _
  | .insertMember _ _ _ | .putMember _ _ _ | .deleteMember _ _ | .audit _ => ()

/-- What a write that has answered does to the tables; `none` where it violates a
    unique constraint or a foreign key to `users`. -/
def apply (db : Db R) : (w : Write R) → w.Value → Option (Db R)
  | .deleteSession token,_ => some { db with sessions := db.sessions.erase token }
  | .insertSession token session,_ =>
    if db.sessions.lookup token = none ∧ (db.users.lookup session.user).isSome then
      some { db with sessions := db.sessions.insert token session }
    else none
  | .setPassword user hash,_ =>
    some { db with users := modify user (fun a => { a with passwordHash := hash }) db.users }
  | .deleteSessions _,tokens => some { db with sessions := tokens.foldr (fun token rows => rows.erase token) db.sessions }
  | .setActive user active,_ => some { db with users := modify user (fun a => { a with active := active }) db.users }
  | .insertUser id account,_ =>
    if db.users.lookup id = none ∧ anyRow (fun _ a => a.email = account.email) db.users = false then
      some { db with users := db.users.insert id account }
    else none
  | .insertProject id createdBy,_ =>
    if db.projects.lookup id = none ∧ (db.users.lookup createdBy).isSome then
      some { db with projects := db.projects.insert id createdBy }
    else none
  | .insertMember project user role,_ =>
    if db.members.lookup (project,user) = none ∧ (db.users.lookup user).isSome then
      some { db with members := db.members.insert (project,user) role }
    else none
  | .putMember project user role,_ =>
    if (db.users.lookup user).isSome then some { db with members := db.members.insert (project,user) role } else none
  | .deleteMember project user,_ => some { db with members := db.members.erase (project,user) }
  | .audit row,_ => some { db with audit := row :: db.audit }
  | .other change,_ => some { db with rest := change db.rest }

/-! ### Locks and transactions -/

inductive Lock where
  /-- The advisory lock `73942102`. -/
  | authorization
  /-- `FOR UPDATE` of a row of `users`. -/
  | row (user : UserId)
  /-- `FOR KEY SHARE` of a row of `users`: what a foreign key to it takes. -/
  | reference (user : UserId)
  deriving DecidableEq,Repr

def Lock.conflicts : Lock → Lock → Bool
  | .authorization,.authorization => true
  | .row u,.row v | .row u,.reference v | .reference u,.row v => u = v
  | _,_ => false

/-- The foreign keys to `users` of the rows that a write inserts. -/
def Write.refers : Write R → List UserId
  | .insertSession _ session => [session.user]
  | .insertProject _ createdBy => [createdBy]
  | .insertMember _ user _ | .putMember _ user _ => [user]
  | .audit row => [row.actor]
  | _ => []

def Statement.takes : Statement R → List Lock
  | .lock => [.authorization]
  | .read (.account user true) => [.row user]
  | .write w => w.refers.map .reference
  | _ => []

/-- The value that an answer holds. -/
def valueOf {α : Type} : Except Failure α → Option α
  | .ok v => some v
  | .error _ => none

/-- The statements that begin or end a transaction. -/
def Statement.bounds : Statement R → Bool
  | .begin | .commit | .rollback => true
  | _ => false

/-- Whether an event begins or ends a transaction. A statement that fails aborts it. -/
def endsTransaction (e : Event (Answers R)) : Bool := e.1.bounds || (valueOf e.2).isNone

def discipline : Discipline (Answers R) Lock where
  takes := Statement.takes
  ends := endsTransaction
  conflicts := Lock.conflicts
  symmetric := by
    intro k k'
    cases k <;> cases k' <;> simp [Lock.conflicts,eq_comm]

/-- A write with its answer. -/
abbrev Written (R : Type) := (w : Write R) × w.Value

def Statement.wrote : (s : Statement R) → s.Value → Option (Written R)
  | .write w,v => some ⟨w,v⟩
  | _,_ => none

def writtenBy (e : Event (Answers R)) : Option (Written R) := (valueOf e.2).bind e.1.wrote

/-- The writes of the open transaction, the newest first. -/
def pending (history : Past R) : List (Written R) := (current discipline history).filterMap writtenBy

@[simp] theorem valueOf_ok {α : Type} (v : α) : valueOf (.ok v) = some v := rfl
@[simp] theorem valueOf_error {α : Type} (e : Failure) : valueOf (.error e : Except Failure α) = none := rfl
@[simp] theorem wrote_read (q : Query) (v : q.Value) : (Statement.read (R := R) q).wrote v = none := rfl
@[simp] theorem wrote_write (w : Write R) (v : w.Value) : (Statement.write w).wrote v = some ⟨w,v⟩ := rfl
@[simp] theorem wrote_lock (v : Unit) : (Statement.lock (R := R)).wrote v = none := rfl

@[simp] theorem current_event (e : Event (Answers R)) (history : Past R) :
    current discipline (e :: history) = bif endsTransaction e then [] else e :: current discipline history := rfl

@[simp] theorem pending_event (e : Event (Answers R)) (history : Past R) :
    pending (e :: history) = bif endsTransaction e then [] else (writtenBy e).toList ++ pending history := by
  cases ends : endsTransaction e with
  | true => simp [pending,ends]
  | false =>
    cases wrote : writtenBy e with
    | none => simp [pending,ends,wrote]
    | some w => simp [pending,ends,wrote]

@[simp] theorem held_event (k : Lock) (e : Event (Answers R)) (history : Past R) :
    k ∈ held discipline (e :: history) ↔ endsTransaction e = false ∧ (k ∈ e.1.takes ∨ k ∈ held discipline history) := by
  cases ends : endsTransaction e with
  | true => simp [held,ends]
  | false =>
    rw [held,current_event,ends,cond_false,List.flatMap_cons,List.mem_append]
    exact (and_iff_right rfl).symm

attribute [simp] endsTransaction writtenBy Statement.bounds

@[simp] theorem current_nil : current discipline ([] : Past R) = [] := rfl
@[simp] theorem pending_nil : pending ([] : Past R) = [] := rfl
@[simp] theorem held_nil (k : Lock) : ¬k ∈ held discipline ([] : Past R) := by simp [held]

/-- A write of the open transaction is one of its events. -/
theorem mem_pending {history : Past R} {w : Written R} (member : w ∈ pending history) :
    ⟨.write w.1,.ok w.2⟩ ∈ current discipline history := by
  obtain ⟨⟨r,x⟩,event,wrote⟩ := List.mem_filterMap.mp member
  cases r with
  | write v =>
    cases x with
    | ok seen => cases wrote; exact event
    | error e => cases wrote
  | _ => cases x <;> cases wrote

/-- The tables with writes applied to them, the oldest first. -/
def settle (writes : List (Written R)) (db : Db R) : Option (Db R) :=
  match writes with
  | [] => some db
  | w :: earlier => (settle earlier db).bind (fun before => apply before w.1 w.2)

/-- How a statement goes: as it should, with an error, or with its answer lost
    after it took effect. -/
inductive Fault where
  | delivered | failed | lost
  deriving DecidableEq,Repr

def unavailable : Failure := .api none
def alreadyExists : Failure := .http 409 "Resource already exists"

/-- What a statement answers on the tables its transaction sees; a write that
    violates a constraint fails at once. -/
def answer (view : Db R) : (s : Statement R) → Answers R s
  | .read q => .ok (select view q)
  | .write w => if (apply view w (seen view w)).isSome then .ok (seen view w) else .error alreadyExists
  | .begin => .ok view.now
  | .lock | .commit | .rollback | .single _ => .ok ()

/-- The committed tables after a statement of a thread with this history. -/
def committed (history : Past R) (db : Db R) : Statement R → Option (Db R)
  | .commit => settle (pending history) db
  | .single w => apply db w (seen db w)
  | _ => some db

/-- Makes a statement. A constraint may also be violated by what was committed
    since. -/
def perform (fault : Fault) (history : Past R) (s : Statement R) (db : Db R) : Db R × Answers R s :=
  match fault,committed history db s,settle (pending history) db with
  | .failed,_,_ => (db,.error unavailable)
  | .delivered,some after,some view => (after,answer view s)
  | .lost,some after,some _ => (after,.error unavailable)
  | _,_,_ => (db,.error alreadyExists)

end Expbuild.Accounts
