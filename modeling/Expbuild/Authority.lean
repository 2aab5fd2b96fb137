import Expbuild.AccountRoutes

/-!
What the account routes respect, whatever is answered to them. A route reads what
it decides on under the authorization lock before it writes, and commits only
what that reading allows (`Concluded`). These are rules about the history of one
thread (`handle_licensed`); what they mean for the tables depends on the other
threads and is the subject of `Revocation`.
-/
namespace Expbuild.Authority
open Expbuild.Contract Expbuild.Schema Expbuild.Programs Expbuild.Locks Expbuild.Accounts Expbuild.AccountRoutes

variable {R : Type}

/-- The locks that a history holds. -/
abbrev holds (history : Past R) (k : Lock) : Prop := k ∈ held discipline history

/-- The open transaction has read this. -/
def Reads (history : Past R) (q : Query) (v : q.Value) : Prop := ⟨.read q,.ok v⟩ ∈ current discipline history

/-- Some statement was answered so. -/
def Answered (history : Past R) (q : Query) (v : q.Value) : Prop := ⟨.read q,.ok v⟩ ∈ history

/-- The request was authorised as the actor, and as no other. -/
structure Only (history : Past R) (actor : Actor) : Prop where
  authorised : ∃ token, Answered history (.session token) (some actor)
  unique : ∀ token other, Answered history (.session token) (some other) → other = actor

/-- A write that does not touch sessions. -/
def rehashes : Write R → Bool
  | .setPassword _ _ => true
  | _ => false

/-- The queries that are only made under the lock. -/
def asksLocked : Query → Bool
  | .signed _ _ _ | .member _ _ | .orphaned _ | .otherAdmins _ | .projectAdmins _ => true
  | _ => false

/-- What every statement but a `COMMIT` respects. -/
def Proper (history : Past R) : Statement R → Prop
  | .read q => (asksLocked q = true → holds history .authorization) ∧ pending history = [] ∧
      (∀ user, q = .orphaned user → holds history (.row user)) ∧
      (∀ project, q = .projectAdmins project → ∃ user role, Answered history (.access project user) (some role))
  | .write (.deleteSessions _) => holds history .authorization ∧ ∀ w ∈ pending history, rehashes w.1 = true
  | .lock => current discipline history = []
  | .single w => ¬holds history .authorization ∧ ((∃ token, w = .deleteSession token) ∨ ∃ id account, w = .insertUser id account)
  | _ => True

/-! ### What is committed -/

/-- A login has verified the password of the account and found it unchanged. -/
structure SignsIn (security : Security) (cookie : Option Token) (email password : String) (token : Token)
    (history : Past R) (id : UserId) (account fresh : Account) (session : Session) : Prop where
  found : Answered history (.accountOf email) (some (id,account))
  verified : security.verifyPassword password account.passwordHash = true
  read : Reads history (.account id false) (some fresh)
  active : fresh.active = true
  unchanged : fresh.passwordHash = account.passwordHash
  user : session.user = id
  first : ∀ x, ⟨.commit,x⟩ ∉ history
  writes : pending history = ⟨.audit ⟨id,"auth.login",none,none⟩,()⟩ :: ⟨.insertSession token session,()⟩ ::
    cookie.toList.map (fun old => ⟨.deleteSession old,()⟩)

/-- A password is set for the target, by itself or by a platform administrator. -/
structure Rehashes (cookie : Option Token) (history : Past R) (target : UserId) (actor : Actor) (token : Token) (now : Nat)
    (fresh account : Account) (row : AuditRow) (tokens : List Token) (hash : PasswordHash) : Prop where
  cookie : cookie = some token
  authorised : Answered history (.session token) (some actor)
  signed : Reads history (.signed actor.id token now) (some fresh)
  active : fresh.active = true
  allowed : target = actor.id ∨ fresh.platformAdmin = true
  read : Reads history (.account target true) (some account)
  deleted : ⟨.write (.deleteSessions target),.ok tokens⟩ ∈ current discipline history
  writes : pending history = [⟨.audit row,()⟩,⟨.deleteSessions target,tokens⟩,⟨.setPassword target hash,()⟩]

/-- An account is disabled that no project and not the platform depends on. -/
structure Disables (history : Past R) (target : UserId) (account : Account) (admins : List UserId) (row : AuditRow)
    (tokens : List Token) : Prop where
  read : Reads history (.account target true) (some account)
  orphaned : Reads history (.orphaned target) []
  others : Reads history (.otherAdmins target) admins
  retained : account.platformAdmin = true → admins ≠ []
  deleted : ⟨.write (.deleteSessions target),.ok tokens⟩ ∈ current discipline history
  writes : pending history = [⟨.audit row,()⟩,⟨.setActive target false,()⟩,⟨.deleteSessions target,tokens⟩]

/-- The write of a change of a member. -/
def memberWrite (project : ProjectId) (member : UserId) : Option Role → Written R
  | none => ⟨.deleteMember project member,()⟩
  | some role => ⟨.putMember project member role,()⟩

/-- A member is changed by an actor that may do so, and the project keeps an
    administrator. -/
structure Changes (project : ProjectId) (role : Option Role) (history : Past R) (actor : Actor) (account : Account)
    (kept : Option Role) (member : UserId) (row : Account) (admins : List UserId) (event : AuditRow) : Prop where
  only : Only history actor
  read : Reads history (.member actor.id project) (some (account,kept))
  entitled : entitled account kept [.admin] = true
  target : Reads history (.account member false) (some row) ∨ ∃ email, Reads history (.accountOf email) (some (member,row))
  active : role = none ∨ row.active = true
  listed : Reads history (.projectAdmins project) admins
  retained : role = some .admin ∨ admins ≠ [member]
  writes : pending history = [⟨.audit event,()⟩,memberWrite project member role]

/-- The open transaction has written only the other tables. -/
def WritesElsewhere (history : Past R) : Prop := ∀ w ∈ pending history, ∃ change seen, w = ⟨.other change,seen⟩

/-- Only the other tables are written, for an actor with one of the roles. -/
structure Works (project : ProjectId) (roles : List Role) (history : Past R) (actor : Actor) (account : Account)
    (role : Option Role) : Prop where
  only : Only history actor
  read : Reads history (.member actor.id project) (some (account,role))
  entitled : entitled account role roles = true
  writes : WritesElsewhere history

/-- Only the other tables are written, for a platform administrator. -/
structure Administers (history : Past R) (actor : Actor) (account : Account) : Prop where
  only : Only history actor
  read : Reads history (.account actor.id false) (some account)
  active : account.active = true
  admin : account.platformAdmin = true
  writes : WritesElsewhere history

/-- What a history allows a request to commit. -/
def Concluded (security : Security) (job : Job R) (history : Past R) : Prop :=
  match job.request with
  | .login cookie email password => holds history .authorization ∧ ∃ id account fresh session,
      SignsIn security cookie email password job.drawn history id account fresh session
  | .changePassword c _ _ => holds history .authorization ∧ ∃ target actor token now fresh account row tokens hash,
      Rehashes c.cookie history target actor token now fresh account row tokens hash
  | .resetPassword c target _ => holds history .authorization ∧ ∃ actor token now fresh account row tokens hash,
      Rehashes c.cookie history target actor token now fresh account row tokens hash
  | .createUser _ _ _ => ∃ row account, pending history = [⟨.audit row,()⟩,⟨.insertUser job.drawn account,()⟩]
  | .updateUser _ target true => holds history .authorization ∧
      ∃ row, pending history = [⟨.audit row,()⟩,⟨.setActive target true,()⟩]
  | .updateUser _ target false => holds history .authorization ∧
      ∃ account admins row tokens, Disables history target account admins row tokens
  | .createProject _ operation => ∃ actor row seen, Only history actor ∧ pending history =
      [⟨.audit row,()⟩,⟨.other operation,seen⟩,⟨.insertMember job.drawn actor.id .admin,()⟩,⟨.insertProject job.drawn actor.id,()⟩]
  | .changeMember _ project _ role => holds history .authorization ∧ ∃ actor account kept member row admins event,
      Changes project role history actor account kept member row admins event
  | .onInstance route _ project _ _ => holds history .authorization ∧ ∃ actor account role,
      Works project route.roles history actor account role
  | .retryProject _ project _ => holds history .authorization ∧ ∃ actor account role,
      Works project [.admin] history actor account role
  | .updateQuota _ _ _ | .reconcileReservation _ _ _ => holds history .authorization ∧
      ∃ actor account, Administers history actor account
  | .logout _ | .bootstrap _ _ => False

/-- The session that a request is made with. -/
def cookieOf : Request R → Option Token
  | .logout c | .changePassword c _ _ | .resetPassword c _ _ | .createUser c _ _ | .updateUser c _ _ | .createProject c _
  | .changeMember c _ _ _ | .onInstance _ c _ _ _ | .retryProject c _ _ | .updateQuota c _ _ | .reconcileReservation c _ _ => c.cookie
  | .login _ _ _ | .bootstrap _ _ => none

def licence (security : Security) (job : Job R) (history : Past R) : Statement R → Prop
  | .commit => Concluded security job history
  | .read q => (∀ token, q = .session token → cookieOf job.request = some token) ∧ Proper history (.read q)
  | s => Proper history s

/-! ### Rules -/

section
variable {α : Type} {rule : Past R → Statement R → Prop} {post : Past R → Except Failure α → Prop} {past : Past R}

theorem licensed_statement (s : Statement R) (next : s.Value → Io R α) :
    Licensed rule post past (statement s >>= next) ↔ rule past s ∧
      (∀ v, Licensed rule post (⟨s,.ok v⟩ :: past) (next v)) ∧ ∀ e, post (⟨s,.error e⟩ :: past) (.error e) :=
  licensed_ask s next

/-- A statement at the end of a transaction. -/
theorem licensed_last {s : Statement R} (may : rule past s) (returns : ∀ v, rule (⟨s,.ok v⟩ :: past) .commit) :
    Licensed rule (fun later result => True ∧ ∀ a, result = .ok a → rule later .commit) past (statement s) := by
  refine licensed_ask_only.mpr ⟨may,?_⟩
  rintro (e | v)
  · exact ⟨trivial,by simp⟩
  · exact ⟨trivial,fun _ _ => returns v⟩

/-- A transaction commits what its statements license, and leaves alone what no
    statement of it can change. -/
theorem licensed_transaction {keeps : Past R → Prop} {run : Nat → Io R α}
    (begins : ∀ history, rule history .begin) (aborts : ∀ history, rule history .rollback) (base : keeps past)
    (stable : ∀ history e, (∀ token, e.1 ≠ .read (.session token)) → keeps history → keeps (e :: history))
    (body : ∀ now, Licensed rule (fun later result => keeps later ∧ ∀ a, result = .ok a → rule later .commit)
      (⟨.begin,.ok now⟩ :: past) (run now)) :
    Licensed rule (fun later _ => keeps later) past (transaction run) := by
  -- an error leads to a rollback, from wherever it comes
  have undone : ∀ later e, keeps later →
      Licensed rule (fun later _ => keeps later) later (statement .rollback >>= fun _ => (throw e : Io R α)) := by
    intro later e kept
    rw [licensed_statement]
    exact ⟨aborts later,fun _ => stable _ _ (by simp) kept,fun _ => stable _ _ (by simp) kept⟩
  unfold transaction
  rw [licensed_tryCatch,licensed_statement]
  refine ⟨begins past,fun now => ?_,fun e => undone _ e (stable _ _ (by simp) base)⟩
  rw [licensed_bind]
  refine (body now).mono (fun _ _ _ may => may) ?_
  intro later result _ ends
  cases result with
  | error e => exact undone later e ends.1
  | ok a =>
    change Licensed _ _ _ _
    rw [licensed_statement]
    refine ⟨ends.2 a rfl,fun _ => stable _ _ (by simp) ends.1,fun e => undone _ e (stable _ _ (by simp) ends.1)⟩

end

/-! ### The routes -/

section
variable {security : Security} {job : Job R} {past : Past R}

theorem licensed_user {c : Credentials} {post : Past R → Except Failure Actor → Prop} (whose : cookieOf job.request = c.cookie)
    (quiet : pending past = []) (throws : ∀ later e, post later (.error e))
    (returns : ∀ token actor, c.cookie = some token → post (⟨.read (.session token),.ok (some actor)⟩ :: past) (.ok actor)) :
    Licensed (licence security job) post past (user c) := by
  unfold user present require query
  rw [Prog.licensed_present]
  refine ⟨fun token cookie => ?_,fun _ => throws _ _⟩
  rw [licensed_statement]
  refine ⟨by simp [licence,Proper,asksLocked,quiet,whose,cookie],fun found => ?_,fun e => throws _ _⟩
  rw [Prog.licensed_present]
  refine ⟨?_,fun _ => throws _ _⟩
  rintro actor rfl
  rw [Prog.licensed_require]
  exact ⟨fun _ => returns token actor cookie,fun _ => throws _ _⟩

theorem login_licensed {cookie : Option Token} {email password : String}
    (request : job.request = .login cookie email password) :
    Licensed (licence security job) (fun _ _ => True) [] (login security cookie email password job.drawn job.drawn) := by
  unfold login present require query audit write
  rw [licensed_statement]
  refine ⟨by simp [licence,Proper,asksLocked],fun found => ?_,fun e => trivial⟩
  simp only []
  rw [Prog.licensed_present]
  refine ⟨?_,fun _ => trivial⟩
  rintro ⟨id,account⟩ rfl
  rw [Prog.licensed_require]
  refine ⟨fun ok => ?_,fun _ => trivial⟩
  refine licensed_transaction (fun _ => trivial) (fun _ => trivial) trivial (fun _ _ _ _ => trivial) (fun now => ?_)
  rw [licensed_statement]
  refine ⟨by simp [licence,Proper],fun _ => ?_,fun e => ⟨trivial,by simp⟩⟩
  rw [licensed_statement]
  refine ⟨by simp [licence,Proper,asksLocked],fun fresh => ?_,fun e => ⟨trivial,by simp⟩⟩
  rw [Prog.licensed_present]
  refine ⟨?_,fun _ => ⟨trivial,by simp⟩⟩
  rintro fresh rfl
  rw [Prog.licensed_require]
  refine ⟨fun same => ?_,fun _ => ⟨trivial,by simp⟩⟩
  have concludes : ∀ later : Past R, Concluded security job later → licence security job later .commit := fun _ done => done
  cases cookie with
  | none =>
    rw [licensed_statement]
    refine ⟨by simp [licence,Proper],fun _ => ?_,fun e => ⟨trivial,by simp⟩⟩
    refine licensed_last (by simp [licence,Proper]) (fun _ => concludes _ ?_)
    simp only [Concluded,request]
    exact ⟨by simp [Statement.takes],id,account,fresh,⟨id,job.drawn,now + sessionSeconds⟩,by simp [Answered],ok.2,
      by simp [Reads],same.1,same.2,rfl,by simp,by simp⟩
  | some old =>
    rw [licensed_statement]
    refine ⟨by simp [licence,Proper],fun _ => ?_,fun e => ⟨trivial,by simp⟩⟩
    rw [licensed_statement]
    refine ⟨by simp [licence,Proper],fun _ => ?_,fun e => ⟨trivial,by simp⟩⟩
    refine licensed_last (by simp [licence,Proper]) (fun _ => concludes _ ?_)
    simp only [Concluded,request]
    exact ⟨by simp [Statement.takes],id,account,fresh,⟨id,job.drawn,now + sessionSeconds⟩,by simp [Answered],ok.2,
      by simp [Reads],same.1,same.2,rfl,by simp,by simp⟩

theorem logout_licensed {c : Credentials} (request : job.request = .logout c) :
    Licensed (licence security job) (fun _ _ => True) [] (logout c) := by
  unfold logout
  rw [licensed_bind]
  refine licensed_user (by rw [request]; rfl) (by simp) (fun _ _ => trivial) (fun token actor cookie => ?_)
  change Licensed _ _ _ _
  rw [cookie]
  refine licensed_ask_only.mpr ⟨?_,fun _ => trivial⟩
  simp [licence,Proper,Statement.takes]

/-- The transaction of `updatePassword`, for a request that says with what it
    concludes. -/
theorem updatePassword_licensed {c : Credentials} {target : UserId} {password : String} {current : Option String} {salt : Nat}
    (whose : cookieOf job.request = c.cookie) (quiet : pending past = [])
    (concludes : ∀ later, holds later .authorization → (∃ actor token now fresh account row tokens hash,
      Rehashes c.cookie later target actor token now fresh account row tokens hash) → Concluded security job later) :
    Licensed (licence security job) (fun _ _ => True) past (updatePassword security c target password current salt) := by
  unfold updatePassword
  rw [licensed_bind]
  refine licensed_user whose quiet (fun _ _ => trivial) (fun token actor cookie => ?_)
  change Licensed _ _ _ _
  unfold present require query audit write
  rw [Prog.licensed_require]
  refine ⟨fun _ => ?_,fun _ => trivial⟩
  simp only []
  rw [Prog.licensed_present]
  refine ⟨?_,fun _ => trivial⟩
  intro token' same
  obtain rfl : token = token' := by rw [cookie] at same; exact Option.some.inj same
  refine licensed_transaction (fun _ => trivial) (fun _ => trivial) trivial (fun _ _ _ _ => trivial) (fun now => ?_)
  rw [licensed_statement]
  refine ⟨by simp [licence,Proper],fun _ => ?_,fun e => ⟨trivial,by simp⟩⟩
  rw [licensed_statement]
  refine ⟨by simp [licence,Proper,asksLocked,Statement.takes],fun fresh => ?_,fun e => ⟨trivial,by simp⟩⟩
  rw [Prog.licensed_present]
  refine ⟨?_,fun _ => ⟨trivial,by simp⟩⟩
  rintro fresh rfl
  rw [Prog.licensed_require]
  refine ⟨fun allowed => ?_,fun _ => ⟨trivial,by simp⟩⟩
  rw [licensed_statement]
  refine ⟨by simp [licence,Proper,asksLocked],fun row => ?_,fun e => ⟨trivial,by simp⟩⟩
  rw [Prog.licensed_present]
  refine ⟨?_,fun _ => ⟨trivial,by simp⟩⟩
  rintro account rfl
  rw [Prog.licensed_require]
  refine ⟨fun _ => ?_,fun _ => ⟨trivial,by simp⟩⟩
  rw [licensed_statement]
  refine ⟨by simp [licence,Proper],fun _ => ?_,fun e => ⟨trivial,by simp⟩⟩
  rw [licensed_statement]
  refine ⟨by simp [licence,Proper,rehashes,Statement.takes],fun tokens => ?_,fun e => ⟨trivial,by simp⟩⟩
  refine licensed_last (by simp [licence,Proper]) (fun _ => ?_)
  refine concludes _ (by simp [Statement.takes]) ⟨actor,token,now,fresh,account,
    ⟨actor.id,if target = actor.id then "auth.password.change" else "user.password.reset",none,some target⟩,tokens,
    security.hashPassword password salt,?_⟩
  exact ⟨cookie,by simp [Answered],by simp [Reads],allowed.1,allowed.2,by simp [Reads],by simp,by simp⟩

theorem changePassword_licensed {c : Credentials} {current password : String}
    (request : job.request = .changePassword c current password) :
    Licensed (licence security job) (fun _ _ => True) [] (changePassword security c current password job.drawn) := by
  unfold changePassword
  rw [licensed_bind]
  refine licensed_user (by rw [request]; rfl) (by simp) (fun _ _ => trivial) (fun token actor cookie => ?_)
  refine updatePassword_licensed (by rw [request]; rfl) (by simp) (fun later locked rehashes => ?_)
  simp only [Concluded,request]
  exact ⟨locked,actor.id,rehashes⟩

theorem resetPassword_licensed {c : Credentials} {target : UserId} {password : String}
    (request : job.request = .resetPassword c target password) :
    Licensed (licence security job) (fun _ _ => True) [] (resetPassword security c target password job.drawn) := by
  unfold resetPassword platformAdmin require
  rw [licensed_bind]
  refine licensed_user (by rw [request]; rfl) (by simp) (fun _ _ => trivial) (fun token actor cookie => ?_)
  change Licensed _ _ _ _
  rw [Prog.licensed_require]
  refine ⟨fun _ => ?_,fun _ => trivial⟩
  rw [Prog.licensed_require]
  refine ⟨fun _ => ?_,fun _ => trivial⟩
  refine updatePassword_licensed (by rw [request]; rfl) (by simp) (fun later locked rehashes => ?_)
  simp only [Concluded,request]
  exact ⟨locked,rehashes⟩

theorem createUser_licensed {c : Credentials} {email password : String}
    (request : job.request = .createUser c email password) :
    Licensed (licence security job) (fun _ _ => True) [] (createUser security c email password job.drawn job.drawn) := by
  unfold createUser platformAdmin require audit write
  rw [licensed_bind]
  refine licensed_user (by rw [request]; rfl) (by simp) (fun _ _ => trivial) (fun token actor cookie => ?_)
  change Licensed _ _ _ _
  rw [Prog.licensed_require]
  refine ⟨fun _ => ?_,fun _ => trivial⟩
  refine licensed_transaction (fun _ => trivial) (fun _ => trivial) trivial (fun _ _ _ _ => trivial) (fun now => ?_)
  rw [licensed_statement]
  refine ⟨by simp [licence,Proper],fun _ => ?_,fun e => ⟨trivial,by simp⟩⟩
  refine licensed_last (by simp [licence,Proper]) (fun _ => ?_)
  simp only [licence,Concluded,request]
  exact ⟨⟨actor.id,"user.create",none,some job.drawn⟩,⟨email,security.hashPassword password job.drawn,false,true⟩,by simp⟩

theorem updateUser_licensed {c : Credentials} {target : UserId} {active : Bool}
    (request : job.request = .updateUser c target active) :
    Licensed (licence security job) (fun _ _ => True) [] (updateUser c target active) := by
  unfold updateUser platformAdmin present require query audit write
  rw [licensed_bind]
  refine licensed_user (by rw [request]; rfl) (by simp) (fun _ _ => trivial) (fun token actor cookie => ?_)
  change Licensed _ _ _ _
  rw [Prog.licensed_require]
  refine ⟨fun _ => ?_,fun _ => trivial⟩
  rw [Prog.licensed_require]
  refine ⟨fun _ => ?_,fun _ => trivial⟩
  refine licensed_transaction (fun _ => trivial) (fun _ => trivial) trivial (fun _ _ _ _ => trivial) (fun now => ?_)
  rw [licensed_statement]
  refine ⟨by simp [licence,Proper],fun _ => ?_,fun e => ⟨trivial,by simp⟩⟩
  rw [licensed_statement]
  refine ⟨by simp [licence,Proper,asksLocked],fun row => ?_,fun e => ⟨trivial,by simp⟩⟩
  rw [Prog.licensed_present]
  refine ⟨?_,fun _ => ⟨trivial,by simp⟩⟩
  rintro account rfl
  cases active with
  | true =>
    simp only [if_true]
    change Licensed _ _ _ (statement _ >>= _)
    rw [licensed_statement]
    refine ⟨by simp [licence,Proper],fun _ => ?_,fun e => ⟨trivial,by simp⟩⟩
    refine licensed_last (by simp [licence,Proper]) (fun _ => ?_)
    simp only [licence,Concluded,request]
    exact ⟨by simp [Statement.takes],⟨actor.id,"user.update",none,some target⟩,by simp⟩
  | false =>
    simp only [Bool.false_eq_true,if_false]
    rw [licensed_statement]
    refine ⟨by simp [licence,Proper,asksLocked,Statement.takes],fun orphaned => ?_,fun e => ⟨trivial,by simp⟩⟩
    rw [Prog.licensed_require]
    refine ⟨?_,fun _ => ⟨trivial,by simp⟩⟩
    rintro rfl
    rw [licensed_statement]
    refine ⟨by simp [licence,Proper,asksLocked,Statement.takes],fun admins => ?_,fun e => ⟨trivial,by simp⟩⟩
    rw [Prog.licensed_require]
    refine ⟨fun retained => ?_,fun _ => ⟨trivial,by simp⟩⟩
    rw [licensed_statement]
    refine ⟨by simp [licence,Proper,Statement.takes],fun tokens => ?_,fun e => ⟨trivial,by simp⟩⟩
    change Licensed _ _ _ (statement _ >>= _)
    rw [licensed_statement]
    refine ⟨by simp [licence,Proper],fun _ => ?_,fun e => ⟨trivial,by simp⟩⟩
    refine licensed_last (by simp [licence,Proper]) (fun _ => ?_)
    simp only [licence,Concluded,request]
    exact ⟨by simp [Statement.takes],account,admins,⟨actor.id,"user.update",none,some target⟩,tokens,by simp [Reads],
      by simp [Reads],by simp [Reads],retained,by simp,by simp⟩

theorem createProject_licensed {c : Credentials} {operation : R → R}
    (request : job.request = .createProject c operation) :
    Licensed (licence security job) (fun _ _ => True) [] (createProject c job.drawn operation) := by
  unfold createProject platformAdmin require audit write
  rw [licensed_bind]
  refine licensed_user (by rw [request]; rfl) (by simp) (fun _ _ => trivial) (fun token actor cookie => ?_)
  change Licensed _ _ _ _
  rw [Prog.licensed_require]
  refine ⟨fun _ => ?_,fun _ => trivial⟩
  refine licensed_transaction (fun _ => trivial) (fun _ => trivial) trivial (fun _ _ _ _ => trivial) (fun now => ?_)
  rw [licensed_statement]
  refine ⟨by simp [licence,Proper],fun _ => ?_,fun e => ⟨trivial,by simp⟩⟩
  rw [licensed_statement]
  refine ⟨by simp [licence,Proper],fun _ => ?_,fun e => ⟨trivial,by simp⟩⟩
  rw [licensed_statement]
  refine ⟨by simp [licence,Proper],fun seen => ?_,fun e => ⟨trivial,by simp⟩⟩
  refine licensed_last (by simp [licence,Proper]) (fun _ => ?_)
  simp only [licence,Concluded,request]
  refine ⟨actor,⟨actor.id,"project.create",some job.drawn,none⟩,seen,⟨⟨token,by simp [Answered]⟩,?_⟩,by simp⟩
  intro token' other answered
  simp [Answered] at answered
  exact answered.2

theorem bootstrap_licensed (email password : String) :
    Licensed (licence security job) (fun _ _ => True) [] (bootstrap security email password job.drawn job.drawn) := by
  refine licensed_ask_only.mpr ⟨?_,fun _ => trivial⟩
  simp [licence,Proper]

theorem licensed_projectAccess {c : Credentials} {project : ProjectId} {allowed : List Role}
    {post : Past R → Except Failure Actor → Prop} (whose : cookieOf job.request = c.cookie)
    (throws : ∀ later e, post later (.error e)) (returns : ∀ token actor role, post [⟨.read (.access project actor.id),.ok (some role)⟩,
      ⟨.read (.session token),.ok (some actor)⟩] (.ok actor)) :
    Licensed (licence security job) post [] (projectAccess c project allowed) := by
  unfold projectAccess present require query
  rw [licensed_bind]
  refine licensed_user whose (by simp) (fun _ _ => throws _ _) (fun token actor cookie => ?_)
  change Licensed _ _ _ _
  rw [licensed_statement]
  refine ⟨by simp [licence,Proper,asksLocked,Statement.takes],fun row => ?_,fun e => throws _ _⟩
  rw [Prog.licensed_present]
  refine ⟨?_,fun _ => throws _ _⟩
  rintro role rfl
  rw [Prog.licensed_require]
  refine ⟨fun _ => ?_,fun _ => throws _ _⟩
  rw [Prog.licensed_require]
  exact ⟨fun _ => returns token actor role,fun _ => throws _ _⟩

theorem Only.cons {actor : Actor} (only : Only past actor) {e : Event (Answers R)}
    (other : ∀ token, e.1 ≠ .read (.session token)) : Only (e :: past) actor := by
  obtain ⟨token,answered⟩ := only.authorised
  refine ⟨⟨token,List.mem_cons_of_mem _ answered⟩,fun token actor' answered => ?_⟩
  rcases List.mem_cons.mp answered with same | before
  · rw [← same] at other
    exact absurd rfl (other token)
  · exact only.unique token actor' before

theorem only_access {project : ProjectId} {token : Token} {actor : Actor} {role : Option Role} :
    Only (R := R) [⟨.read (.access project actor.id),.ok (some role)⟩,⟨.read (.session token),.ok (some actor)⟩] actor := by
  refine ⟨⟨token,by simp [Answered]⟩,fun token' other answered => ?_⟩
  simp [Answered] at answered
  exact answered.2

theorem findTarget_licensed {target : Target} {post : Past R → Except Failure (Option (UserId × Account)) → Prop}
    (unwritten : pending past = []) (throws : ∀ later e, post later (.error e))
    (returns : ∀ q v found, (∀ token, q ≠ Query.session token) →
      (∀ member row, found = some (member,row) → (⟨.read q,.ok v⟩ : Event (Answers R)) = ⟨.read (.account member false),.ok (some row)⟩ ∨
        ∃ email, (⟨.read q,.ok v⟩ : Event (Answers R)) = ⟨.read (.accountOf email),.ok (some (member,row))⟩) →
      post (⟨.read q,.ok v⟩ :: past) (.ok found)) :
    Licensed (licence security job) post past (findTarget target) := by
  cases target with
  | id user =>
    unfold findTarget query
    rw [licensed_statement]
    refine ⟨by simp [licence,Proper,asksLocked,unwritten],fun row => ?_,fun e => throws _ _⟩
    refine returns (.account user false) row (row.map (fun account => (user,account))) (by simp) ?_
    intro member account same
    obtain ⟨_,rfl,same⟩ := Option.map_eq_some_iff.mp same
    cases same
    exact .inl rfl
  | email email =>
    unfold findTarget query
    refine licensed_ask_only.mpr ⟨by simp [licence,Proper,asksLocked,unwritten],?_⟩
    rintro (e | found)
    · exact throws _ _
    · refine returns (.accountOf email) found found (by simp) ?_
      rintro member account rfl
      exact .inr ⟨email,rfl⟩

theorem changeMember_licensed {c : Credentials} {project : ProjectId} {target : Target} {role : Option Role}
    (request : job.request = .changeMember c project target role) :
    Licensed (licence security job) (fun _ _ => True) [] (changeMember c project target role) := by
  unfold changeMember
  rw [licensed_bind]
  refine licensed_projectAccess (by rw [request]; rfl) (fun _ _ => trivial) (fun token actor joined => ?_)
  unfold present require query audit write
  refine licensed_transaction (fun _ => trivial) (fun _ => trivial) trivial (fun _ _ _ _ => trivial) (fun now => ?_)
  rw [licensed_statement]
  refine ⟨by simp [licence,Proper],fun _ => ?_,fun e => ⟨trivial,by simp⟩⟩
  rw [licensed_statement]
  refine ⟨by simp [licence,Proper,asksLocked],fun there => ?_,fun e => ⟨trivial,by simp⟩⟩
  rw [licensed_statement]
  refine ⟨by simp [licence,Proper,Statement.takes],fun fresh => ?_,fun e => ⟨trivial,by simp⟩⟩
  rw [Prog.licensed_present]
  refine ⟨?_,fun _ => ⟨trivial,by simp⟩⟩
  rintro ⟨account,kept⟩ rfl
  rw [Prog.licensed_require]
  refine ⟨fun may => ?_,fun _ => ⟨trivial,by simp⟩⟩
  rw [licensed_bind]
  refine findTarget_licensed (by simp) (fun _ _ => ⟨trivial,by simp⟩) (fun q v found other whose => ?_)
  change Licensed _ _ _ _
  rw [Prog.licensed_present]
  refine ⟨?_,fun _ => ⟨trivial,by simp⟩⟩
  rintro ⟨member,row⟩ rfl
  rw [Prog.licensed_require]
  refine ⟨fun active => ?_,fun _ => ⟨trivial,by simp⟩⟩
  rw [licensed_statement]
  refine ⟨⟨by simp,by simp [Statement.takes],by simp,by simp,fun _ same => ?_⟩,fun admins => ?_,fun e => ⟨trivial,by simp⟩⟩
  · cases same
    exact ⟨actor.id,joined,by simp [Answered]⟩
  rw [Prog.licensed_require]
  refine ⟨fun retained => ?_,fun _ => ⟨trivial,by simp⟩⟩
  -- what was read stays read while the member and the event are written
  have concludes : ∀ w : Written R, w = memberWrite project member role → ∀ event, Concluded security job
      (⟨.write (.audit event),.ok ()⟩ :: ⟨.write w.1,.ok w.2⟩ :: ⟨.read (.projectAdmins project),.ok admins⟩ ::
        ⟨.read q,.ok v⟩ :: ⟨.read (.member actor.id project),.ok (some (account,kept))⟩ ::
        ⟨.read (.project project),.ok there⟩ :: ⟨.lock,.ok ()⟩ :: ⟨.begin,.ok now⟩ ::
        [⟨.read (.access project actor.id),.ok (some joined)⟩,⟨.read (.session token),.ok (some actor)⟩]) := by
    intro w same event
    simp only [Concluded,request]
    refine ⟨by simp [Statement.takes],actor,account,kept,member,row,admins,event,?_,by simp [Reads],may,?_,active,
      by simp [Reads],retained,by simp [same]⟩
    · refine ((((((((only_access.cons ?_).cons ?_).cons ?_).cons ?_).cons ?_).cons ?_).cons ?_).cons ?_) <;> simp [other]
    · rcases whose member row rfl with same | ⟨email,same⟩
      · exact .inl (by simp [Reads,same])
      · exact .inr ⟨email,by simp [Reads,same]⟩
  cases role with
  | none =>
    rw [licensed_statement]
    refine ⟨by simp [licence,Proper],fun _ => ?_,fun e => ⟨trivial,by simp⟩⟩
    exact licensed_last (by simp [licence,Proper]) (fun _ => concludes ⟨.deleteMember project member,()⟩ rfl _)
  | some r =>
    rw [licensed_statement]
    refine ⟨by simp [licence,Proper],fun _ => ?_,fun e => ⟨trivial,by simp⟩⟩
    exact licensed_last (by simp [licence,Proper]) (fun _ => concludes ⟨.putMember project member r,()⟩ rfl _)

theorem transaction_only {α : Type} {actor : Actor} {run : Nat → Io R α} (only : Only past actor)
    (body : ∀ now, Licensed (licence security job)
      (fun later result => Only later actor ∧ ∀ a, result = .ok a → licence security job later .commit)
      (⟨.begin,.ok now⟩ :: past) (run now)) :
    Licensed (licence security job) (fun later _ => Only later actor) past (transaction run) :=
  licensed_transaction (fun _ => trivial) (fun _ => trivial) only (fun _ _ other kept => kept.cons other) body

/-- The work of a transaction keeps what its checks have established, so it may
    commit whenever it ends. -/
theorem licensed_carryOut {ready : Past R → Prop} {actor : Actor} (work : Work R)
    (only : ∀ {later}, ready later → Only later actor)
    (stays : ∀ {later} change seen, ready later → ready (⟨.write (.other change),.ok seen⟩ :: later))
    (concludes : ∀ {later}, ready later → Concluded security job later) (base : ready past) :
    Licensed (licence security job) (fun later result => Only later actor ∧ ∀ a, result = .ok a → licence security job later .commit)
      past (carryOut work) := by
  induction work generalizing past with
  | pure done => exact ⟨only base,fun _ _ => concludes base⟩
  | throw e => exact ⟨only base,fun _ same => by cases same⟩
  | request change next ih =>
    unfold carryOut
    refine ⟨trivial,?_⟩
    rintro (e | seen)
    · exact ⟨(only base).cons (by simp),fun _ same => by cases same⟩
    · exact ih seen (stays change seen base)

theorem WritesElsewhere.cons (elsewhere : WritesElsewhere past) (change : R → R) (seen : R) :
    WritesElsewhere (⟨.write (.other change),.ok seen⟩ :: past) := by
  intro w member
  simp only [pending_event,endsTransaction,Statement.bounds,valueOf_ok,Option.isNone_some,Bool.or_self,cond_false,
    writtenBy,Option.bind_some,wrote_write,Option.toList_some,List.singleton_append,List.mem_cons] at member
  rcases member with rfl | older
  · exact ⟨change,seen,rfl⟩
  · exact elsewhere w older

/-- A transaction that begins with `lockProject` and does any work. -/
theorem licensed_lockProject {project : ProjectId} {actor : Actor} {roles : List Role} {work : Work R}
    (only : Only past actor)
    (concludes : ∀ later, holds later .authorization → (∃ account role, Works project roles later actor account role) →
      Concluded security job later) :
    Licensed (licence security job) (fun later _ => Only later actor) past
      (transaction (fun _ => lockProject project actor roles >>= fun _ => carryOut work)) := by
  unfold lockProject present require query
  refine transaction_only only (fun now => ?_)
  have started : Only (⟨.begin,.ok now⟩ :: past) actor := only.cons (by simp)
  rw [licensed_bind,licensed_statement]
  refine ⟨by simp [licence,Proper],fun _ => ?_,fun e => ⟨started.cons (by simp),by simp⟩⟩
  rw [licensed_statement]
  refine ⟨by simp [licence,Proper,asksLocked],fun there => ?_,fun e => ⟨(started.cons (by simp)).cons (by simp),by simp⟩⟩
  have asked := (started.cons (e := ⟨.lock,.ok ()⟩) (by simp)).cons (e := ⟨.read (.project project),.ok there⟩) (by simp)
  rw [licensed_statement]
  refine ⟨by simp [licence,Proper,Statement.takes],fun fresh => ?_,fun e => ⟨asked.cons (by simp),by simp⟩⟩
  rw [Prog.licensed_present]
  refine ⟨?_,fun _ => ⟨asked.cons (by simp),by simp⟩⟩
  rintro ⟨account,role⟩ rfl
  rw [Prog.licensed_require]
  refine ⟨fun may => ?_,fun _ => ⟨asked.cons (by simp),by simp⟩⟩
  unfold Prog.require
  split
  · refine @licensed_carryOut R security job _ (fun later => holds later .authorization ∧ Works project roles later actor account role)
      actor work (fun ready => ready.2.only) ?_ (fun ready => concludes _ ready.1 ⟨account,role,ready.2⟩) ?_
    · rintro later change seen ⟨locked,works⟩
      exact ⟨by simp [locked],works.only.cons (by simp),by simpa [Reads] using works.read,works.entitled,works.writes.cons _ _⟩
    · exact ⟨by simp [Statement.takes],asked.cons (by simp),by simp [Reads],may,by simp [WritesElsewhere]⟩
  · exact ⟨asked.cons (by simp),by simp⟩

theorem instanceRoute_licensed {route : Route} {c : Credentials} {project : ProjectId} {first last : Work R}
    (request : job.request = .onInstance route c project first last) :
    Licensed (licence security job) (fun _ _ => True) [] (instanceRoute route c project first last) := by
  unfold instanceRoute
  rw [licensed_bind]
  refine licensed_projectAccess (by rw [request]; rfl) (fun _ _ => trivial) (fun token actor joined => ?_)
  change Licensed _ _ _ _
  have concludes : ∀ later, holds later .authorization → (∃ account role, Works project route.roles later actor account role) →
      Concluded security job later := by
    intro later locked works
    simp only [Concluded,request]
    exact ⟨locked,actor,works⟩
  -- the transaction that decides may follow any history of this actor
  have decides : ∀ later, Only later actor → Licensed (licence security job) (fun _ _ => True) later
      (transaction (fun _ => lockProject project actor route.roles >>= fun _ => carryOut last) >>= fun _ => pure ()) := by
    intro later only
    rw [licensed_bind]
    refine (licensed_lockProject only concludes).mono (fun _ _ _ may => may) ?_
    intro _ result _ _
    cases result with
    | ok _ => exact trivial
    | error _ => exact trivial
  cases looks : route.looksFirst with
  | false =>
    simp only [Bool.false_eq_true,if_false]
    exact decides _ only_access
  | true =>
    simp only [if_true]
    rw [licensed_bind]
    refine (licensed_lockProject only_access concludes).mono (fun _ _ _ may => may) ?_
    intro later result _ only
    cases result with
    | error e => exact trivial
    | ok answered =>
      change Licensed _ _ _ _
      cases answered with
      | true => exact trivial
      | false => exact decides later only

theorem retryProject_licensed {c : Credentials} {project : ProjectId} {work : Work R}
    (request : job.request = .retryProject c project work) :
    Licensed (licence security job) (fun _ _ => True) [] (retryProject c project work) := by
  unfold retryProject
  rw [licensed_bind]
  refine licensed_projectAccess (by rw [request]; rfl) (fun _ _ => trivial) (fun token actor joined => ?_)
  change Licensed _ _ _ _
  rw [licensed_bind]
  refine (licensed_lockProject only_access ?_).mono (fun _ _ _ may => may) ?_
  · intro later locked works
    simp only [Concluded,request]
    exact ⟨locked,actor,works⟩
  · intro _ result _ _
    cases result with
    | ok _ => exact trivial
    | error _ => exact trivial

theorem platformRoute_licensed {c : Credentials} {project : ProjectId} {work : Work R} (whose : cookieOf job.request = c.cookie)
    (concludes : ∀ later, holds later .authorization → (∃ actor account, Administers later actor account) →
      Concluded security job later) :
    Licensed (licence security job) (fun _ _ => True) [] (platformRoute c project work) := by
  unfold platformRoute platformAdmin
  rw [licensed_bind]
  refine licensed_projectAccess whose (fun _ _ => trivial) (fun token actor joined => ?_)
  change Licensed _ _ _ _
  unfold present require query
  rw [Prog.licensed_require]
  refine ⟨fun _ => ?_,fun _ => trivial⟩
  rw [licensed_bind]
  have only : Only [⟨.read (.access project actor.id),.ok (some joined)⟩,⟨.read (.session token),.ok (some actor)⟩] actor :=
    only_access (R := R)
  refine (transaction_only only (fun now => ?_)).mono (fun _ _ _ may => may) ?_
  · have started := only.cons (e := ⟨.begin,.ok now⟩) (by simp)
    rw [licensed_statement]
    refine ⟨by simp [licence,Proper],fun _ => ?_,fun e => ⟨started.cons (by simp),by simp⟩⟩
    rw [licensed_statement]
    refine ⟨by simp [licence,Proper,asksLocked],fun there => ?_,fun e => ⟨(started.cons (by simp)).cons (by simp),by simp⟩⟩
    have asked := (started.cons (e := ⟨.lock,.ok ()⟩) (by simp)).cons (e := ⟨.read (.project project),.ok there⟩) (by simp)
    rw [licensed_statement]
    refine ⟨by simp [licence,Proper,asksLocked],fun fresh => ?_,fun e => ⟨asked.cons (by simp),by simp⟩⟩
    rw [Prog.licensed_present]
    refine ⟨?_,fun _ => ⟨asked.cons (by simp),by simp⟩⟩
    rintro account rfl
    rw [Prog.licensed_require]
    refine ⟨fun may => ?_,fun _ => ⟨asked.cons (by simp),by simp⟩⟩
    refine @licensed_carryOut R security job _ (fun later => holds later .authorization ∧ Administers later actor account)
      actor work (fun ready => ready.2.only) ?_ (fun ready => concludes _ ready.1 ⟨actor,account,ready.2⟩) ?_
    · rintro later change seen ⟨locked,works⟩
      exact ⟨by simp [locked],works.only.cons (by simp),by simpa [Reads] using works.read,works.active,works.admin,
        works.writes.cons _ _⟩
    · exact ⟨by simp [Statement.takes],asked.cons (by simp),by simp [Reads],may.1,may.2,by simp [WritesElsewhere]⟩
  · intro _ result _ _
    cases result with
    | ok _ => exact trivial
    | error _ => exact trivial

theorem handle_licensed (security : Security) (job : Job R) :
    Licensed (licence security job) (fun _ _ => True) [] (handle security job) := by
  unfold handle
  cases request : job.request with
  | login cookie email password => exact login_licensed request
  | logout c => exact logout_licensed request
  | changePassword c current password => exact changePassword_licensed request
  | resetPassword c target password => exact resetPassword_licensed request
  | createUser c email password => exact createUser_licensed request
  | updateUser c target active => exact updateUser_licensed request
  | createProject c operation => exact createProject_licensed request
  | bootstrap email password => exact bootstrap_licensed email password
  | changeMember c project target role => exact changeMember_licensed request
  | onInstance route c project first last => exact instanceRoute_licensed request
  | retryProject c project work => exact retryProject_licensed request
  | updateQuota c project work =>
    refine platformRoute_licensed (by rw [request]; rfl) (fun later locked administers => ?_)
    simp only [Concluded,request]
    exact ⟨locked,administers⟩
  | reconcileReservation c project work =>
    refine platformRoute_licensed (by rw [request]; rfl) (fun later locked administers => ?_)
    simp only [Concluded,request]
    exact ⟨locked,administers⟩

end
end Expbuild.Authority
