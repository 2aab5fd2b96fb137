import Expbuild.Accounts

/-!
The routes that change accounts, sessions, members and projects, and the frame
of every route that changes something in a project: how it authorises its actor
and under which lock it checks again. What a route of instances or quotas does
in its transaction once its actor is checked is any program of statements on the
other tables (`Work`).
-/
namespace Expbuild.AccountRoutes
open Expbuild.Contract Expbuild.Schema Expbuild.Programs Expbuild.Runs Expbuild.Locks Expbuild.Accounts

variable {R : Type}

/-- `security.ts`: the hash of a password under a random salt, and the check. -/
structure Security where
  hashPassword : String → Nat → PasswordHash
  verifyPassword : String → PasswordHash → Bool
  dummyHash : PasswordHash

def statement (s : Statement R) : Io R s.Value := .ask s
def query (q : Query) : Io R q.Value := statement (.read q)
def write (w : Write R) : Io R w.Value := statement (.write w)
def audit (row : AuditRow) : Io R Unit := write (.audit row)
def require (condition : Prop) [Decidable condition] (e : Failure) : Io R Unit := .require condition e
def present {α : Type} (value : Option α) (e : Failure) : Io R α := .present value e

/-- `run` takes the `now()` of its transaction. -/
def transaction {α : Type} (run : Nat → Io R α) : Io R α :=
  tryCatch (statement .begin >>= fun now => run now >>= fun result => statement .commit >>= fun _ => pure result)
    (fun error => statement .rollback >>= fun _ => throw error)

/-- The cookie and the `x-csrf-token` header of a request. -/
structure Credentials where
  cookie : Option Token
  csrf : Option Token
  deriving DecidableEq,Repr

def user (c : Credentials) : Io R Actor := do
  let token ← present c.cookie (.http 401 "Authentication required")
  let found ← query (.session token)
  let actor ← present found (.http 401 "Authentication required")
  require (c.csrf = some actor.csrf) (.http 403 "Invalid CSRF token")
  return actor

def platformAdmin (actor : Actor) : Io R Unit :=
  require (actor.platformAdmin = true) (.http 403 "Platform administrator required")

def projectAccess (c : Credentials) (project : ProjectId) (allowed : List Role) : Io R Actor := do
  let actor ← user c
  let row ← query (.access project actor.id)
  let role ← present row (.http 404 "Project not found")
  require (actor.platformAdmin = true ∨ role.isSome) (.http 404 "Project not found")
  require (actor.platformAdmin = true ∨ ∃ r ∈ role, r ∈ allowed) (.http 403 "Permission denied")
  return actor

/-! ### Accounts -/

/-- A session is good for 24 hours. -/
def sessionSeconds : Nat := 86400

def login (security : Security) (cookie : Option Token) (email password : String) (sessionToken csrf : Nat) :
    Io R Unit := do
  let found ← query (.accountOf email)
  let valid := security.verifyPassword password ((found.map (fun row => row.2.passwordHash)).getD security.dummyHash)
  let (id,account) ← present found (.http 401 "Invalid credentials")
  require (account.active = true ∧ valid = true) (.http 401 "Invalid credentials")
  transaction fun now => do
    statement .lock
    let fresh ← query (.account id false)
    let current ← present fresh (.http 401 "Credentials changed; sign in again")
    require (current.active = true ∧ current.passwordHash = account.passwordHash)
      (.http 401 "Credentials changed; sign in again")
    match cookie with
    | some old => write (.deleteSession old)
    | none => pure ()
    write (.insertSession sessionToken ⟨id,csrf,now + sessionSeconds⟩)
    audit ⟨id,"auth.login",none,none⟩

def logout (c : Credentials) : Io R Unit := do
  let _ ← user c
  match c.cookie with
  | some token => statement (.single (.deleteSession token))
  | none => pure ()

def updatePassword (security : Security) (c : Credentials) (target : UserId) (password : String)
    (currentPassword : Option String) (salt : Nat) : Io R Unit := do
  let actor ← user c
  require (target = actor.id ∨ actor.platformAdmin = true) (.http 403 "Platform administrator required")
  let hash := security.hashPassword password salt
  let token ← present c.cookie (.http 401 "Authentication required")
  transaction fun now => do
    statement .lock
    let fresh ← query (.signed actor.id token now)
    let current ← present fresh (.http 403 "Permission denied")
    require (current.active = true ∧ (target = actor.id ∨ current.platformAdmin = true)) (.http 403 "Permission denied")
    let row ← query (.account target true)
    let account ← present row (.http 404 "User not found")
    require (target = actor.id → ∃ p ∈ currentPassword, security.verifyPassword p account.passwordHash = true)
      (.http 403 "Current password is incorrect")
    write (.setPassword target hash)
    let _ ← write (.deleteSessions target)
    audit ⟨actor.id,if target = actor.id then "auth.password.change" else "user.password.reset",none,some target⟩

/-- `POST /v1/auth/password`. -/
def changePassword (security : Security) (c : Credentials) (currentPassword password : String) (salt : Nat) :
    Io R Unit := do
  let actor ← user c
  updatePassword security c actor.id password (some currentPassword) salt

/-- `POST /v1/users/:userId/password`. -/
def resetPassword (security : Security) (c : Credentials) (target : UserId) (password : String) (salt : Nat) :
    Io R Unit := do
  let actor ← user c
  platformAdmin actor
  require (target ≠ actor.id) (.http 400 "Use the account password change endpoint")
  updatePassword security c target password none salt

def createUser (security : Security) (c : Credentials) (email password : String) (id salt : Nat) : Io R Unit := do
  let actor ← user c
  platformAdmin actor
  transaction fun _ => do
    write (.insertUser id ⟨email,security.hashPassword password salt,false,true⟩)
    audit ⟨actor.id,"user.create",none,some id⟩

/-- `PATCH /v1/users/:userId`. -/
def updateUser (c : Credentials) (target : UserId) (active : Bool) : Io R Unit := do
  let actor ← user c
  platformAdmin actor
  require (target ≠ actor.id ∨ active = true) (.http 409 "Cannot disable your own account")
  transaction fun _ => do
    statement .lock
    let row ← query (.account target true)
    let account ← present row (.http 404 "User not found")
    if active = true then pure () else do
      -- Disabling a project administrator must not leave a project unmanaged.
      let orphaned ← query (.orphaned target)
      require (orphaned = []) (.http 409 "Transfer project administration before disabling this account")
      let admins ← query (.otherAdmins target)
      require (account.platformAdmin = true → admins ≠ []) (.http 409 "Platform must retain an administrator")
      let _ ← write (.deleteSessions target)
      pure ()
    write (.setActive target active)
    audit ⟨actor.id,"user.update",none,some target⟩

/-- `operation` inserts the `project.create` operation. -/
def createProject (c : Credentials) (id : ProjectId) (operation : R → R) : Io R Unit := do
  let actor ← user c
  platformAdmin actor
  transaction fun _ => do
    write (.insertProject id actor.id)
    write (.insertMember id actor.id .admin)
    let _ ← write (.other operation)
    audit ⟨actor.id,"project.create",some id,none⟩

/-- `bootstrap.ts`. -/
def bootstrap (security : Security) (email password : String) (id salt : Nat) : Io R Unit :=
  statement (.single (.insertUser id ⟨email,security.hashPassword password salt,true,true⟩))

/-! ### Projects -/

inductive Target where
  | id (user : UserId)
  | email (email : String)
  deriving DecidableEq,Repr

def findTarget : Target → Io R (Option (UserId × Account))
  | .id user => do
    let found ← query (.account user false)
    return found.map (fun account => (user,account))
  | .email email => query (.accountOf email)

/-- Whether an account with a role may do what needs one of the roles. -/
def entitled (account : Account) (role : Option Role) (roles : List Role) : Bool :=
  account.active && (account.platformAdmin || role.any (fun r => r ∈ roles))

def changeMember (c : Credentials) (project : ProjectId) (target : Target) (role : Option Role) : Io R Unit := do
  let actor ← projectAccess c project [.admin]
  transaction fun _ => do
    statement .lock
    let _ ← query (.project project)
    let fresh ← query (.member actor.id project)
    let (account,held) ← present fresh (.http 403 "Permission denied")
    require (entitled account held [.admin]) (.http 403 "Permission denied")
    let found ← findTarget target
    let (member,row) ← present found (.http 404 "Active user not found")
    require (role = none ∨ row.active = true) (.http 404 "Active user not found")
    let admins ← query (.projectAdmins project)
    require (role = some .admin ∨ admins ≠ [member]) (.http 409 "Project must retain an administrator")
    match role with
    | none => write (.deleteMember project member)
    | some r => write (.putMember project member r)
    audit ⟨actor.id,if role = none then "member.remove" else "member.update",some project,some member⟩

/-- What a transaction does after its checks: statements on the other tables, each
    of which sees these tables. It says whether the request is answered. -/
abbrev Work (R : Type) := Prog (R → R) (fun _ => R) Failure Bool

def carryOut : Work R → Io R Bool
  | .pure done => .pure done
  | .throw e => .throw e
  | .request change next => .request (.write (.other change)) (fun
    | .ok seen => carryOut (next seen)
    | .error e => .throw e)

def lockProject (project : ProjectId) (actor : Actor) (roles : List Role) : Io R Unit := do
  statement .lock
  let there ← query (.project project)
  let fresh ← query (.member actor.id project)
  let (account,role) ← present fresh (.http 403 "Permission denied")
  require (entitled account role roles) (.http 403 "Permission denied")
  require (there = true) (.http 404 "Project not found")

/-- The routes of `instance-routes.ts` that change something. -/
inductive Route where
  | createInstance | updateInstance | rotateCredentials | deleteInstance | deleteRetainedVolume | reclaimRetainedVolume
  | retryOperation
  deriving DecidableEq,Repr

def Route.roles : Route → List Role
  | .createInstance | .updateInstance => [.admin,.maintainer]
  | _ => [.admin]

/-- Whether the route looks for a replay in a transaction of its own first. -/
def Route.looksFirst : Route → Bool
  | .updateInstance | .rotateCredentials | .reclaimRetainedVolume => true
  | _ => false

def instanceRoute (route : Route) (c : Credentials) (project : ProjectId) (first last : Work R) : Io R Unit := do
  let actor ← projectAccess c project route.roles
  let answered ← if route.looksFirst then
      transaction (fun _ => lockProject project actor route.roles >>= fun _ => carryOut first)
    else pure false
  if answered then pure () else do
    let _ ← transaction (fun _ => lockProject project actor route.roles >>= fun _ => carryOut last)
    pure ()

def retryProject (c : Credentials) (project : ProjectId) (work : Work R) : Io R Unit := do
  let actor ← projectAccess c project [.admin]
  let _ ← transaction fun _ => do
    lockProject project actor [.admin]
    carryOut work

/-- The transaction of a route that only platform administrators may use. -/
def platformRoute (c : Credentials) (project : ProjectId) (work : Work R) : Io R Unit := do
  let actor ← projectAccess c project [.admin]
  platformAdmin actor
  let _ ← transaction fun _ => do
    statement .lock
    let _ ← query (.project project)
    let fresh ← query (.account actor.id false)
    let account ← present fresh (.http 403 "Platform administrator required")
    require (account.active = true ∧ account.platformAdmin = true) (.http 403 "Platform administrator required")
    carryOut work

def updateQuota (c : Credentials) (project : ProjectId) (work : Work R) : Io R Unit := platformRoute c project work
def reconcileReservation (c : Credentials) (project : ProjectId) (work : Work R) : Io R Unit := platformRoute c project work

/-! ### The system -/

inductive Request (R : Type) where
  | login (cookie : Option Token) (email password : String)
  | logout (c : Credentials)
  | changePassword (c : Credentials) (currentPassword password : String)
  | resetPassword (c : Credentials) (target : UserId) (password : String)
  | createUser (c : Credentials) (email password : String)
  | updateUser (c : Credentials) (target : UserId) (active : Bool)
  | createProject (c : Credentials) (operation : R → R)
  | bootstrap (email password : String)
  | changeMember (c : Credentials) (project : ProjectId) (target : Target) (role : Option Role)
  | onInstance (route : Route) (c : Credentials) (project : ProjectId) (first last : Work R)
  | retryProject (c : Credentials) (project : ProjectId) (work : Work R)
  | updateQuota (c : Credentials) (project : ProjectId) (work : Work R)
  | reconcileReservation (c : Credentials) (project : ProjectId) (work : Work R)

/-- A request with what it draws at random. -/
structure Job (R : Type) where
  request : Request R
  drawn : Nat

def handle (security : Security) (job : Job R) : Io R Unit :=
  match job.request with
  | .login cookie email password => login security cookie email password job.drawn job.drawn
  | .logout c => logout c
  | .changePassword c currentPassword password => changePassword security c currentPassword password job.drawn
  | .resetPassword c target password => resetPassword security c target password job.drawn
  | .createUser c email password => createUser security c email password job.drawn job.drawn
  | .updateUser c target active => updateUser c target active
  | .createProject c operation => createProject c job.drawn operation
  | .bootstrap email password => bootstrap security email password job.drawn job.drawn
  | .changeMember c project target role => changeMember c project target role
  | .onInstance route c project first last => instanceRoute route c project first last
  | .retryProject c project work => retryProject c project work
  | .updateQuota c project work => updateQuota c project work
  | .reconcileReservation c project work => reconcileReservation c project work

abbrev Running (R : Type) (security : Security) := Thread (@handle R security)

structure System (R : Type) (security : Security) where
  db : Db R
  threads : List (Running R security) := []
  fresh : Nat := 0

inductive Label (R : Type) where
  | request (r : Request R)
  | run (thread : Nat) (fault : Fault)
  | wait (seconds : Nat)
  /-- Something else happens to the other tables. -/
  | elsewhere (change : R → R)

/-- Lets one thread make its next statement, unless it waits for a lock. -/
def System.advance {security : Security} (s : System R security) (i : Nat) (fault : Fault) : Option (System R security) := do
  let t ← s.threads[i]?
  let (db,t') ← t.advance (fun r db =>
    if available discipline s.threads i r then some (perform fault t.history r db) else none) s.db
  return { s with db := db, threads := s.threads.set i t' }

def step {security : Security} : Label R → System R security → Option (System R security)
  | .request r,s => some { s with threads := s.threads ++ [Thread.spawn ⟨r,s.fresh⟩], fresh := s.fresh + 1 }
  | .run i fault,s => s.advance i fault
  | .wait seconds,s => some { s with db := { s.db with now := s.db.now + seconds } }
  | .elsewhere change,s => some { s with db := { s.db with rest := change s.db.rest } }

end Expbuild.AccountRoutes
