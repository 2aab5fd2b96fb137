import Expbuild.Authority

/-!
What the authorization lock is for. While a thread holds it, no other thread can
disable a user, change a password or a member, or add a session, so what the
thread has read since stays so until it commits (`Certain`, `Sound.step`). Only
new users, new projects and deleted sessions may appear in the meantime
(`Grows`). What a commit does to the tables is then a matter of what its own
transaction has read (`Effect`).
-/
namespace Expbuild.Revocation
open Expbuild.Contract Expbuild.Schema Expbuild.Tables Expbuild.Programs Expbuild.Runs Expbuild.Locks Expbuild.Accounts
open Expbuild.AccountRoutes Expbuild.Authority

variable {R : Type} {security : Security}

/-! ### Steps -/

/-- What a step is. -/
inductive Steps (s : System R security) : Label R → System R security → Prop where
  | spawned (r : Request R) : Steps s (.request r)
      { s with threads := s.threads ++ [Thread.spawn ⟨r,s.fresh⟩], fresh := s.fresh + 1 }
  | made {i : Nat} {fault : Fault} {t t' : Running R security} {r : Statement R} {x : Answers R r} {db : Db R}
      {next : Answers R r → Io R Unit} (found : s.threads[i]? = some t) (rest : t.rest = .request r next)
      (free : available discipline s.threads i r = true) (performed : perform fault t.history r s.db = (db,x))
      (tag : t'.tag = t.tag) (history : t'.history = ⟨r,x⟩ :: t.history) :
      Steps s (.run i fault) { s with db := db, threads := s.threads.set i t' }
  | waited (seconds : Nat) : Steps s (.wait seconds) { s with db := { s.db with now := s.db.now + seconds } }
  | elsewhere (change : R → R) : Steps s (.elsewhere change) { s with db := { s.db with rest := change s.db.rest } }

theorem step_cases {l : Label R} {s s' : System R security} (moved : step l s = some s') : Steps s l s' := by
  cases l with
  | request r => cases moved; exact .spawned r
  | run i fault =>
    simp only [step,System.advance,Option.bind_eq_bind,Option.bind_eq_some_iff,Option.pure_def,Option.some.injEq] at moved
    obtain ⟨t,found,⟨db,t'⟩,moved,rfl⟩ := moved
    obtain ⟨r,next,x,rest,answered,tag,history,_⟩ := Thread.advance_some moved
    split at answered
    · rename_i free
      exact .made found rest free (Option.some.inj answered) tag history
    · cases answered
  | wait seconds => cases moved; exact .waited seconds
  | elsewhere change => cases moved; exact .elsewhere change

/-- How a statement went: with an error and without an effect, or done, with the
    answer or without it. -/
inductive Outcome (history : Past R) (r : Statement R) (db db' : Db R) : Answers R r → Prop where
  | failed (e : Failure) (same : db' = db) : Outcome history r db db' (.error e)
  | lost (e : Failure) (done : committed history db r = some db') : Outcome history r db db' (.error e)
  | done {view : Db R} (seen : settle (pending history) db = some view) (done : committed history db r = some db') :
      Outcome history r db db' (answer view r)

theorem perform_cases {fault : Fault} {history : Past R} {r : Statement R} {db db' : Db R} {x : Answers R r}
    (performed : perform fault history r db = (db',x)) : Outcome history r db db' x := by
  unfold perform at performed
  split at performed
  · cases performed; exact .failed _ rfl
  · cases performed; exact .done ‹_› ‹_›
  · cases performed; exact .lost _ ‹_›
  · cases performed; exact .failed _ rfl

/-! ### What stays true under the lock -/

/-- What an event of a transaction that holds the lock means for the tables. -/
structure Certain (db : Db R) (e : Event (Answers R)) : Prop where
  account : ∀ user forUpdate a, e = ⟨.read (.account user forUpdate),.ok (some a)⟩ → db.users.lookup user = some a
  accountOf : ∀ email user a, e = ⟨.read (.accountOf email),.ok (some (user,a))⟩ → db.users.lookup user = some a
  signed : ∀ user token now a, e = ⟨.read (.signed user token now),.ok (some a)⟩ → db.users.lookup user = some a
  member : ∀ user project a role, e = ⟨.read (.member user project),.ok (some (a,role))⟩ →
    db.users.lookup user = some a ∧ ∀ r, role = some r → db.members.lookup (project,user) = some r
  orphaned : ∀ user, e = ⟨.read (.orphaned user),.ok []⟩ →
    ∀ project, db.members.lookup (project,user) = some .admin → managedWithout db project user = true
  others : ∀ user admins, e = ⟨.read (.otherAdmins user),.ok admins⟩ →
    ∀ v ∈ admins, v ≠ user ∧ ∃ a, db.users.lookup v = some a ∧ a.platformAdmin = true ∧ a.active = true
  admins : ∀ project admins, e = ⟨.read (.projectAdmins project),.ok admins⟩ →
    (db.projects.lookup project).isSome = true ∧ admins.Nodup ∧
      ∀ v, v ∈ admins ↔ db.members.lookup (project,v) = some .admin ∧ isActive db v = true
  sessions : ∀ user tokens, e = ⟨.write (.deleteSessions user),.ok tokens⟩ →
    ∀ token s, db.sessions.lookup token = some s → s.user = user → token ∈ tokens

/-- What may happen to the tables without the lock: users and sessions go and
    come only this way, and a new project has its creator as only member. -/
structure Grows (creator : Option UserId) (db db' : Db R) : Prop where
  users : ∀ u a, db.users.lookup u = some a → db'.users.lookup u = some a
  sessions : ∀ token s, db'.sessions.lookup token = some s → db.sessions.lookup token = some s
  projects : ∀ p, (db.projects.lookup p).isSome = true → (db'.projects.lookup p).isSome = true
  members : ∀ p u r, db.members.lookup (p,u) = some r → db'.members.lookup (p,u) = some r
  joined : ∀ p u r, db'.members.lookup (p,u) = some r →
    db.members.lookup (p,u) = some r ∨ db.projects.lookup p = none ∧ creator = some u

theorem isActive_iff {db : Db R} {u : UserId} :
    isActive db u = true ↔ ∃ a, db.users.lookup u = some a ∧ a.active = true := by
  simp [isActive,Option.any_eq_true]

theorem managedWithout_iff {db : Db R} {p : ProjectId} {u : UserId} : managedWithout db p u = true ↔
    ∃ v, v ≠ u ∧ db.members.lookup (p,v) = some .admin ∧ isActive db v = true := by
  rw [managedWithout,anyRow_iff]
  constructor
  · rintro ⟨⟨p',v⟩,role,found,holds⟩
    simp only [administers,Bool.and_eq_true,decide_eq_true_eq] at holds
    obtain ⟨⟨rfl,other⟩,rfl,active⟩ := holds
    exact ⟨v,other,found,active⟩
  · rintro ⟨v,other,found,active⟩
    exact ⟨(p,v),.admin,found,by simp [administers,other,active]⟩

section
variable {db db' : Db R} {e : Event (Answers R)}

/-- Who is active stays so, and nobody that is known becomes active. -/
theorem Grows.active {creator : Option UserId} (grows : Grows creator db db') {u : UserId}
    (known : (db.users.lookup u).isSome = true) : isActive db' u = isActive db u := by
  obtain ⟨a,found⟩ := Option.isSome_iff_exists.mp known
  simp [isActive,found,grows.users u a found]

theorem Certain.grows {creator : Option UserId} (certain : Certain db e) (grows : Grows creator db db')
    (foreign : ∀ p u r, db.members.lookup (p,u) = some r → (db.users.lookup u).isSome = true)
    (other : ∀ user, e = ⟨.read (.orphaned user),.ok []⟩ → creator ≠ some user) : Certain db' e where
  account user forUpdate a same := grows.users _ _ (certain.account user forUpdate a same)
  accountOf email user a same := grows.users _ _ (certain.accountOf email user a same)
  signed user token now a same := grows.users _ _ (certain.signed user token now a same)
  member user project a role same := by
    obtain ⟨row,kept⟩ := certain.member user project a role same
    exact ⟨grows.users _ _ row,fun r held => grows.members _ _ _ (kept r held)⟩
  orphaned user same project admin := by
    rcases grows.joined project user .admin admin with before | ⟨_,created⟩
    · obtain ⟨v,apart,found,active⟩ := managedWithout_iff.mp (certain.orphaned user same project before)
      refine managedWithout_iff.mpr ⟨v,apart,grows.members _ _ _ found,?_⟩
      rw [grows.active (foreign _ _ _ found)]
      exact active
    · exact absurd created (other user same)
  others user admins same v member := by
    obtain ⟨apart,a,found,holds⟩ := certain.others user admins same v member
    exact ⟨apart,a,grows.users _ _ found,holds⟩
  admins project admins same := by
    obtain ⟨there,distinct,exactly⟩ := certain.admins project admins same
    refine ⟨grows.projects _ there,distinct,fun v => (exactly v).trans ⟨?_,?_⟩⟩
    · rintro ⟨found,active⟩
      refine ⟨grows.members _ _ _ found,?_⟩
      rw [grows.active (foreign _ _ _ found)]
      exact active
    · rintro ⟨found,active⟩
      rcases grows.joined _ _ _ found with before | ⟨missing,_⟩
      · rw [grows.active (foreign _ _ _ before)] at active
        exact ⟨before,active⟩
      · rw [missing] at there
        cases there
  sessions user tokens same token session found := certain.sessions user tokens same token session (grows.sessions _ _ found)

/-- An event that neither reads nor deletes means nothing. -/
theorem certain_other (reads : ∀ q v, e ≠ ⟨.read q,.ok v⟩)
    (deletes : ∀ user tokens, e ≠ ⟨.write (.deleteSessions user),.ok tokens⟩) : Certain db e where
  account _ _ _ same := absurd same (reads _ _)
  accountOf _ _ _ same := absurd same (reads _ _)
  signed _ _ _ _ same := absurd same (reads _ _)
  member _ _ _ _ same := absurd same (reads _ _)
  orphaned _ same := absurd same (reads _ _)
  others _ _ same := absurd same (reads _ _)
  admins _ _ same := absurd same (reads _ _)
  sessions _ _ same := absurd same (deletes _ _)

theorem certain_deletes {user : UserId} {tokens : List Token}
    (covers : ∀ token s, db.sessions.lookup token = some s → s.user = user → token ∈ tokens) :
    Certain db (⟨.write (.deleteSessions user),.ok tokens⟩ : Event (Answers R)) where
  account _ _ _ same := by cases same
  accountOf _ _ _ same := by cases same
  signed _ _ _ _ same := by cases same
  member _ _ _ _ same := by cases same
  orphaned _ same := by cases same
  others _ _ same := by cases same
  admins _ _ same := by cases same
  sessions _ _ same := by cases same; exact covers

/-- What a read answers, if it is the query in question. -/
theorem select_of_same {q q' : Query} {v : q'.Value}
    (same : (⟨.read q,.ok (select db q)⟩ : Event (Answers R)) = ⟨.read q',.ok v⟩) : q = q' ∧ select db q' = v := by
  have query : Statement.read (R := R) q = .read q' := congrArg Sigma.fst same
  cases query
  cases same
  exact ⟨rfl,rfl⟩

theorem projectAdmins_nodup (db : Db R) (project : ProjectId) : (select db (.projectAdmins project)).Nodup := by
  have keys : ((db.members.entries.filter (fun row => row.1.1 = project && administers db row.1.2 row.2)).map Sigma.fst).Nodup :=
    List.NodupKeys.sublist List.filter_sublist db.members.nodupKeys
  have users := keys.map_on (f := Prod.snd) (by
    intro x first y second same
    obtain ⟨row,member,rfl⟩ := List.mem_map.mp first
    obtain ⟨row',member',rfl⟩ := List.mem_map.mp second
    have here := (List.mem_filter.mp member).2
    have here' := (List.mem_filter.mp member').2
    simp only [Bool.and_eq_true,decide_eq_true_eq] at here here'
    exact Prod.ext (here.1.trans here'.1.symm) same)
  rwa [List.map_map] at users

theorem mem_projectAdmins {project : ProjectId} {v : UserId} : v ∈ select db (.projectAdmins project) ↔
    db.members.lookup (project,v) = some .admin ∧ isActive db v = true := by
  constructor
  · intro member
    obtain ⟨⟨⟨p,u⟩,role⟩,row,rfl⟩ := List.mem_map.mp member
    obtain ⟨entry,holds⟩ := List.mem_filter.mp row
    simp only [administers,Bool.and_eq_true,decide_eq_true_eq] at holds
    obtain ⟨rfl,rfl,active⟩ := holds
    exact ⟨lookup_iff_entry.mpr entry,active⟩
  · rintro ⟨found,active⟩
    refine List.mem_map.mpr ⟨⟨(project,v),.admin⟩,List.mem_filter.mpr ⟨lookup_iff_entry.mp found,?_⟩,rfl⟩
    simp [administers,active]

/-- What is read holds. -/
theorem certain_read {q : Query} (known : ∀ p, q = .projectAdmins p → (db.projects.lookup p).isSome = true) :
    Certain db (⟨.read q,.ok (select db q)⟩ : Event (Answers R)) where
  account _ _ _ same := (select_of_same same).2
  accountOf _ _ _ same := by
    obtain ⟨_,answer⟩ := select_of_same same
    obtain ⟨row,found,pair⟩ := Option.map_eq_some_iff.mp answer
    cases pair
    exact lookup_iff_entry.mpr (List.mem_of_find?_eq_some found)
  signed _ _ _ _ same := by
    obtain ⟨_,found⟩ := select_of_same same
    simp only [select] at found
    split at found
    · exact found
    · cases found
  member _ _ _ _ same := by
    obtain ⟨_,found⟩ := select_of_same same
    obtain ⟨account,row,pair⟩ := Option.map_eq_some_iff.mp found
    cases pair
    exact ⟨row,fun _ held => held⟩
  orphaned user same project admin := by
    obtain ⟨_,none⟩ := select_of_same same
    cases managed : managedWithout db project user with
    | true => rfl
    | false =>
      have listed : project ∈ select db (.orphaned user) := by
        refine List.mem_map.mpr ⟨⟨(project,user),.admin⟩,List.mem_filter.mpr ⟨lookup_iff_entry.mp admin,?_⟩,rfl⟩
        simp [managed]
      rw [none] at listed
      cases listed
  others user _ same v member := by
    obtain ⟨_,rfl⟩ := select_of_same same
    obtain ⟨⟨u,a⟩,row,rfl⟩ := List.mem_map.mp member
    obtain ⟨entry,holds⟩ := List.mem_filter.mp row
    simp only [Bool.and_eq_true,decide_eq_true_eq] at holds
    exact ⟨holds.2,a,lookup_iff_entry.mpr entry,holds.1⟩
  admins project _ same := by
    obtain ⟨query,rfl⟩ := select_of_same same
    exact ⟨known project query,projectAdmins_nodup db project,fun v => mem_projectAdmins⟩
  sessions user tokens same := by
    have kind : Statement.read (R := R) q = .write (.deleteSessions user) := congrArg Sigma.fst same
    cases kind

end
/-! ### What a commit does -/

/-- The tables without some sessions. -/
def signOut (tokens : List Token) (db : Db R) : Db R :=
  { db with sessions := tokens.foldr (fun token rows => rows.erase token) db.sessions }
def editUser (user : UserId) (edit : Account → Account) (db : Db R) : Db R := { db with users := modify user edit db.users }
def logEvent (row : AuditRow) (db : Db R) : Db R := { db with audit := row :: db.audit }
def enterMember (project : ProjectId) (user : UserId) : Option Role → Db R → Db R
  | none,db => { db with members := db.members.erase (project,user) }
  | some role,db => { db with members := db.members.insert (project,user) role }

/-- All sessions of the user are among the tokens. -/
def Covers (db : Db R) (user : UserId) (tokens : List Token) : Prop :=
  ∀ token session, db.sessions.lookup token = some session → session.user = user → token ∈ tokens

/-- What a statement of a thread does to the tables. Where the thread holds the
    lock, what it has read is said of the tables as they are. -/
inductive Effect (db : Db R) (t : Running R security) : Db R → Prop where
  | nothing : Effect db t db
  | loggedOut (token : Token) : Effect db t (signOut [token] db)
  | registered {id : UserId} {account : Account} {audit : List AuditRow} (fresh : db.users.lookup id = none) :
      Effect db t { db with users := db.users.insert id account, audit := audit }
  | founded {c : Credentials} {operation : R → R} {actor : Actor} {row : AuditRow}
      (commits : ∃ next, t.rest = .request .commit next) (request : t.tag.request = .createProject c operation)
      (only : Only t.history actor) (shares : holds t.history (.reference actor.id)) (fresh : db.projects.lookup t.tag.drawn = none)
      (apart : db.members.lookup (t.tag.drawn,actor.id) = none) (known : (db.users.lookup actor.id).isSome = true) :
      Effect db t (logEvent row { db with projects := db.projects.insert t.tag.drawn actor.id, rest := operation db.rest, members := db.members.insert (t.tag.drawn,actor.id) .admin })
  | signedIn {cookie : Option Token} {email password : String} {id : UserId} {account fresh : Account} {session : Session}
      {row : AuditRow} (commits : ∃ next, t.rest = .request .commit next) (locked : holds t.history .authorization)
      (request : t.tag.request = .login cookie email password)
      (signs : SignsIn security cookie email password t.tag.drawn t.history id account fresh session)
      (current : db.users.lookup id = some fresh) (unused : (signOut cookie.toList db).sessions.lookup t.tag.drawn = none) :
      Effect db t (logEvent row { signOut cookie.toList db with
        sessions := (signOut cookie.toList db).sessions.insert t.tag.drawn session })
  | rehashed {c : Credentials} {target : UserId} {actor : Actor} {token : Token} {now : Nat} {fresh account : Account} {row : AuditRow}
      {tokens : List Token} {hash : PasswordHash} (locked : holds t.history .authorization)
      (request : (∃ current password, t.tag.request = .changePassword c current password) ∨
        ∃ password, t.tag.request = .resetPassword c target password)
      (rehashes : Rehashes c.cookie t.history target actor token now fresh account row tokens hash)
      (covers : Covers db target tokens) :
      Effect db t (logEvent row (signOut tokens (editUser target (fun a => { a with passwordHash := hash }) db)))
  | enabled {c : Credentials} {target : UserId} {row : AuditRow} (locked : holds t.history .authorization)
      (request : t.tag.request = .updateUser c target true) :
      Effect db t (logEvent row (editUser target (fun a => { a with active := true }) db))
  | disabled {c : Credentials} {target : UserId} {account : Account} {admins : List UserId} {row : AuditRow}
      {tokens : List Token} (commits : ∃ next, t.rest = .request .commit next) (locked : holds t.history .authorization)
      (request : t.tag.request = .updateUser c target false)
      (disables : Disables t.history target account admins row tokens) (current : db.users.lookup target = some account)
      (managed : ∀ project, db.members.lookup (project,target) = some .admin → managedWithout db project target = true)
      (others : ∀ v ∈ admins, v ≠ target ∧ ∃ a, db.users.lookup v = some a ∧ a.platformAdmin = true ∧ a.active = true)
      (covers : Covers db target tokens) :
      Effect db t (logEvent row (editUser target (fun a => { a with active := false }) (signOut tokens db)))
  | changed {c : Credentials} {project : ProjectId} {target : Target} {role : Option Role} {actor : Actor} {account : Account}
      {kept : Option Role} {member : UserId} {found : Account} {admins : List UserId} {event : AuditRow}
      (locked : holds t.history .authorization) (request : t.tag.request = .changeMember c project target role)
      (changes : Changes project role t.history actor account kept member found admins event)
      (current : db.users.lookup member = some found) (distinct : admins.Nodup)
      (listed : ∀ v, v ∈ admins ↔ db.members.lookup (project,v) = some .admin ∧ isActive db v = true) :
      Effect db t (logEvent event (enterMember project member role db))
  | worked {rest : R} (locked : holds t.history .authorization) : Effect db t { db with rest := rest }

section
variable {db db' : Db R} {t : Running R security}

/-- Writes to the other tables leave the accounts alone. -/
theorem settle_elsewhere {writes : List (Written R)} (elsewhere : ∀ w ∈ writes, ∃ change seen, w = ⟨.other change,seen⟩)
    (done : settle writes db = some db') : ∃ rest, db' = { db with rest := rest } := by
  induction writes generalizing db' with
  | nil => cases done; exact ⟨db.rest,rfl⟩
  | cons w earlier ih =>
    obtain ⟨before,settled,applied⟩ := Option.bind_eq_some_iff.mp done
    obtain ⟨rest,rfl⟩ := ih (fun v member => elsewhere v (List.mem_cons_of_mem _ member)) settled
    obtain ⟨change,seen,rfl⟩ := elsewhere w List.mem_cons_self
    cases applied
    exact ⟨change rest,rfl⟩

theorem settle_signOut {tokens : List Token} (done : settle (tokens.map (fun old => ⟨.deleteSession old,()⟩)) db = some db') :
    db' = signOut tokens db := by
  induction tokens generalizing db' with
  | nil => cases done; rfl
  | cons old rest ih =>
    obtain ⟨before,settled,applied⟩ := Option.bind_eq_some_iff.mp done
    obtain rfl := ih settled
    cases applied
    rfl

/-- A transaction holds the rows that what it has written refers to. -/
theorem reference_held {history : Past R} {w : Written R} {u : UserId} (member : w ∈ pending history)
    (refers : u ∈ w.1.refers) : holds history (.reference u) :=
  mem_held.mpr ⟨_,mem_pending member,List.mem_map.mpr ⟨u,refers,rfl⟩⟩

theorem effect_commit {next : Answers R .commit → Io R Unit} (rest : t.rest = .request .commit next)
    (certain : holds t.history .authorization → ∀ e ∈ current discipline t.history, Certain db e) (concluded : Concluded security t.tag t.history) (done : settle (pending t.history) db = some db') : Effect db t db' := by
  unfold Concluded at concluded
  split at concluded
  · rename_i cookie email password request
    obtain ⟨locked,id,account,fresh,session,signs⟩ := concluded
    rw [signs.writes] at done
    obtain ⟨_,settled,applied⟩ := Option.bind_eq_some_iff.mp done
    cases applied
    obtain ⟨before,settled,applied⟩ := Option.bind_eq_some_iff.mp settled
    obtain rfl := settle_signOut settled
    simp only [apply] at applied
    split at applied
    · rename_i constraints
      cases applied
      exact .signedIn ⟨next,rest⟩ locked request signs ((certain locked _ signs.read).account _ _ _ rfl) constraints.1
    · cases applied
  · rename_i c current password request
    obtain ⟨locked,target,actor,token,now,fresh,account,row,tokens,hash,rehashes⟩ := concluded
    rw [rehashes.writes] at done
    cases done
    exact .rehashed locked (.inl ⟨current,password,request⟩) rehashes ((certain locked _ rehashes.deleted).sessions _ _ rfl)
  · rename_i c target password request
    obtain ⟨locked,actor,token,now,fresh,account,row,tokens,hash,rehashes⟩ := concluded
    rw [rehashes.writes] at done
    cases done
    exact .rehashed locked (.inr ⟨password,request⟩) rehashes ((certain locked _ rehashes.deleted).sessions _ _ rfl)
  · rename_i c email password request
    obtain ⟨row,account,writes⟩ := concluded
    rw [writes] at done
    obtain ⟨_,settled,applied⟩ := Option.bind_eq_some_iff.mp done
    cases applied
    simp only [settle,Option.bind_some,apply] at settled
    split at settled
    · rename_i constraints
      cases settled
      exact .registered constraints.1
    · cases settled
  · rename_i c target request
    obtain ⟨locked,row,writes⟩ := concluded
    rw [writes] at done
    cases done
    exact .enabled locked request
  · rename_i c target request
    obtain ⟨locked,account,admins,row,tokens,disables⟩ := concluded
    rw [disables.writes] at done
    cases done
    exact .disabled ⟨next,rest⟩ locked request disables ((certain locked _ disables.read).account _ _ _ rfl)
      ((certain locked _ disables.orphaned).orphaned _ rfl) ((certain locked _ disables.others).others _ _ rfl)
      ((certain locked _ disables.deleted).sessions _ _ rfl)
  · rename_i c operation request
    obtain ⟨actor,row,seen,only,writes⟩ := concluded
    have shares : holds t.history (.reference actor.id) :=
      reference_held (writes ▸ List.mem_cons_of_mem _ (List.mem_cons_of_mem _ List.mem_cons_self)) List.mem_cons_self
    rw [writes] at done
    obtain ⟨third,done,logs⟩ := Option.bind_eq_some_iff.mp done
    obtain ⟨second,done,works⟩ := Option.bind_eq_some_iff.mp done
    obtain ⟨first,done,joins⟩ := Option.bind_eq_some_iff.mp done
    obtain ⟨constraints,same⟩ := Option.ite_none_right_eq_some.mp (done : apply db (.insertProject t.tag.drawn actor.id) () = _)
    obtain rfl := Option.some.inj same
    obtain ⟨constraints',same⟩ := Option.ite_none_right_eq_some.mp joins
    obtain rfl := Option.some.inj same
    obtain rfl := Option.some.inj works
    obtain rfl := Option.some.inj logs
    exact .founded ⟨next,rest⟩ request only shares constraints.1 constraints'.1 constraints'.2
  · rename_i c project target role request
    obtain ⟨locked,actor,account,kept,member,row,admins,event,changes⟩ := concluded
    have current : db.users.lookup member = some row := by
      rcases changes.target with read | ⟨email,read⟩
      · exact (certain locked _ read).account _ _ _ rfl
      · exact (certain locked _ read).accountOf _ _ _ rfl
    obtain ⟨_,distinct,listed⟩ := (certain locked _ changes.listed).admins _ _ rfl
    rw [changes.writes] at done
    cases role with
    | none =>
      cases done
      exact .changed locked request changes current distinct listed
    | some r =>
      obtain ⟨_,settled,applied⟩ := Option.bind_eq_some_iff.mp done
      cases applied
      simp only [memberWrite,settle,Option.bind_some,apply,current,Option.isSome_some,if_true,Option.some.injEq] at settled
      cases settled
      exact .changed locked request changes current distinct listed
  · obtain ⟨locked,_,_,_,works⟩ := concluded
    obtain ⟨rest,rfl⟩ := settle_elsewhere works.writes done
    exact .worked locked
  · obtain ⟨locked,_,_,_,works⟩ := concluded
    obtain ⟨rest,rfl⟩ := settle_elsewhere works.writes done
    exact .worked locked
  · obtain ⟨locked,_,_,works⟩ := concluded
    obtain ⟨rest,rfl⟩ := settle_elsewhere works.writes done
    exact .worked locked
  · obtain ⟨locked,_,_,works⟩ := concluded
    obtain ⟨rest,rfl⟩ := settle_elsewhere works.writes done
    exact .worked locked
  · cases concluded
  · cases concluded

theorem effect_made {r : Statement R} {next : Answers R r → Io R Unit} (rest : t.rest = .request r next)
    (certain : holds t.history .authorization → ∀ e ∈ current discipline t.history, Certain db e)
    (may : licence security t.tag t.history r) (done : committed t.history db r = some db') : Effect db t db' := by
  cases r with
  | commit => exact effect_commit rest certain may done
  | single w =>
    obtain ⟨_,⟨token,rfl⟩ | ⟨id,account,rfl⟩⟩ := may
    · cases done
      exact .loggedOut token
    · obtain ⟨constraints,same⟩ := Option.ite_none_right_eq_some.mp done
      obtain rfl := Option.some.inj same
      exact .registered constraints.1
  | read q => cases done; exact .nothing
  | write w => cases done; exact .nothing
  | begin => cases done; exact .nothing
  | lock => cases done; exact .nothing
  | rollback => cases done; exact .nothing

theorem lookup_signOut {tokens : List Token} {token : Token} {session : Session}
    (found : (signOut tokens db).sessions.lookup token = some session) :
    db.sessions.lookup token = some session ∧ token ∉ tokens := by
  induction tokens with
  | nil => exact ⟨found,by simp⟩
  | cons old rest ih =>
    change ((signOut rest db).sessions.erase old).lookup token = _ at found
    rw [lookup_erase] at found
    by_cases same : token = old
    · simp [same] at found
    · simp only [same,if_false] at found
      obtain ⟨before,other⟩ := ih found
      exact ⟨before,by simp [same,other]⟩

theorem Grows.refl : Grows (R := R) none db db where
  users _ _ found := found
  sessions _ _ found := found
  projects _ found := found
  members _ _ _ found := found
  joined _ _ _ found := .inl found

theorem isSome_modify {K V : Type} [DecidableEq K] {table : Table K V} {k j : K} {f : V → V} :
    ((modify k f table).lookup j).isSome = (table.lookup j).isSome := by
  rw [lookup_modify]
  split
  · simp
  · rfl

theorem isSome_insert {K V : Type} [DecidableEq K] {table : Table K V} {k j : K} {v : V} (there : (table.lookup j).isSome = true) :
    ((table.insert k v).lookup j).isSome = true := by
  rw [lookup_insert]
  split
  · rfl
  · exact there

theorem grows_registered {id : UserId} {account : Account} {audit : List AuditRow} (fresh : db.users.lookup id = none) :
    Grows (R := R) none db { db with users := db.users.insert id account, audit := audit } where
  users u a found := by
    have other : u ≠ id := by
      rintro rfl
      rw [fresh] at found
      cases found
    rw [lookup_insert,if_neg other]
    exact found
  sessions _ _ found := found
  projects _ found := found
  members _ _ _ found := found
  joined _ _ _ found := .inl found

theorem grows_founded {project : ProjectId} {creator : UserId} {rest : R} {row : AuditRow}
    (fresh : db.projects.lookup project = none) (apart : db.members.lookup (project,creator) = none) :
    Grows (some creator) db (logEvent row { db with
      projects := db.projects.insert project creator, rest := rest, members := db.members.insert (project,creator) .admin }) where
  users _ _ found := found
  sessions _ _ found := found
  projects _ there := isSome_insert there
  members p u r found := by
    have other : (p,u) ≠ (project,creator) := by
      intro same
      rw [same,apart] at found
      cases found
    exact (AList.lookup_insert_ne other).trans found
  joined p u r found := by
    change (db.members.insert _ _).lookup (p,u) = some r at found
    rw [lookup_insert] at found
    split at found
    · rename_i same
      cases same
      exact .inr ⟨fresh,rfl⟩
    · exact .inl found

/-- What a thread without the lock does. -/
theorem Effect.grows (effect : Effect db t db') : holds t.history .authorization ∨
    ∃ creator, Grows creator db db' ∧ ∀ u, creator = some u → holds t.history (.reference u) := by
  cases effect with
  | nothing => exact .inr ⟨none,.refl,by simp⟩
  | loggedOut token => exact .inr ⟨none,{ Grows.refl with sessions := fun _ _ found => (lookup_signOut found).1 },by simp⟩
  | registered fresh => exact .inr ⟨none,grows_registered fresh,by simp⟩
  | @founded c operation actor row commits request only shares fresh apart known =>
    exact .inr ⟨some actor.id,grows_founded fresh apart,fun u same => Option.some.inj same ▸ shares⟩
  | signedIn commits locked => exact .inl locked
  | rehashed locked => exact .inl locked
  | enabled locked => exact .inl locked
  | disabled commits locked => exact .inl locked
  | changed locked => exact .inl locked
  | worked locked => exact .inl locked

@[simp] theorem enterMember_users (project : ProjectId) (user : UserId) (role : Option Role) (db : Db R) :
    (enterMember project user role db).users = db.users := by cases role <;> rfl
@[simp] theorem enterMember_sessions (project : ProjectId) (user : UserId) (role : Option Role) (db : Db R) :
    (enterMember project user role db).sessions = db.sessions := by cases role <;> rfl
@[simp] theorem enterMember_projects (project : ProjectId) (user : UserId) (role : Option Role) (db : Db R) :
    (enterMember project user role db).projects = db.projects := by cases role <;> rfl

theorem lookup_enterMember {project p : ProjectId} {user u : UserId} {role : Option Role} :
    (enterMember project user role db).members.lookup (p,u) =
      if (p,u) = (project,user) then role else db.members.lookup (p,u) := by
  cases role with
  | none => exact lookup_erase _ _ _
  | some r => exact lookup_insert _ _ _ _

/-- Users are never deleted. -/
theorem Effect.users (effect : Effect db t db') {u : UserId} (there : (db.users.lookup u).isSome = true) :
    (db'.users.lookup u).isSome = true := by
  cases effect with
  | registered => exact isSome_insert there
  | rehashed | enabled | disabled => exact (isSome_modify).trans there
  | changed => simpa [logEvent] using there
  | nothing | loggedOut | founded | signedIn | worked => exact there

/-- Projects are never deleted. -/
theorem Effect.projects (effect : Effect db t db') {p : ProjectId} (there : (db.projects.lookup p).isSome = true) :
    (db'.projects.lookup p).isSome = true := by
  cases effect with
  | founded => exact isSome_insert there
  | changed => simpa [logEvent] using there
  | registered | rehashed | enabled | disabled | nothing | loggedOut | signedIn | worked => exact there

/-- The members of projects are users. -/
def Foreign (db : Db R) : Prop := ∀ p u r, db.members.lookup (p,u) = some r → (db.users.lookup u).isSome = true

theorem Effect.foreign (effect : Effect db t db') (foreign : Foreign db) : Foreign db' := by
  intro p u r found
  have kept : db.members.lookup (p,u) = some r → (db'.users.lookup u).isSome = true :=
    fun before => effect.users (foreign p u r before)
  cases effect with
  | @founded c operation actor row commits request only shares fresh apart known =>
    change (db.members.insert _ _).lookup (p,u) = some r at found
    rw [lookup_insert] at found
    split at found
    · rename_i same
      cases same
      exact known
    · exact kept found
  | @changed c project target role actor account held member row admins event locked request changes current =>
    change (enterMember project member role db).members.lookup (p,u) = some r at found
    rw [lookup_enterMember] at found
    split at found
    · rename_i same
      cases same
      simp [logEvent,current]
    · exact kept found
  | registered | rehashed | enabled | disabled | nothing | loggedOut | signedIn | worked => exact kept found

end

/-! ### What holds in every state -/

/-- What the lock guarantees. -/
structure Sound (s : System R security) : Prop where
  exclusive : Exclusive discipline s.threads
  certain : ∀ t ∈ s.threads, holds t.history .authorization → ∀ e ∈ current discipline t.history, Certain s.db e
  foreign : Foreign s.db
  known : ∀ t ∈ s.threads, ∀ p u r, Answered t.history (.access p u) (some r) → (s.db.projects.lookup p).isSome = true

section
variable {s s' : System R security}

/-- What a thread may do next. -/
theorem thread_licence {t : Running R security} {r : Statement R} {next : Answers R r → Io R Unit}
    (rest : t.rest = .request r next) : licence security t.tag t.history r :=
  (rest ▸ t.ran).licensed (handle_licensed security t.tag)

/-- The writes of a transaction that has written nothing. -/
theorem settle_nil {history : Past R} {db view : Db R} (none : pending history = [])
    (seen : settle (pending history) db = some view) : view = db := by
  rw [none] at seen
  exact (Option.some.inj seen).symm

theorem settle_rehashes {writes : List (Written R)} {db view : Db R} (only : ∀ w ∈ writes, rehashes w.1 = true)
    (seen : settle writes db = some view) : view.sessions = db.sessions := by
  induction writes generalizing view with
  | nil => cases seen; rfl
  | cons w earlier ih =>
    obtain ⟨before,settled,applied⟩ := Option.bind_eq_some_iff.mp seen
    have kept := ih (fun v member => only v (List.mem_cons_of_mem _ member)) settled
    have first := only w List.mem_cons_self
    obtain ⟨w,v⟩ := w
    cases w with
    | setPassword user hash => cases applied; exact kept
    | _ => cases first

/-- What a thread is answered is certain. -/
theorem certain_made {history : Past R} {r : Statement R} {db view : Db R} (may : Proper history r)
    (seen : settle (pending history) db = some view)
    (known : ∀ p u role, Answered history (.access p u) (some role) → (db.projects.lookup p).isSome = true) :
    Certain db (⟨r,answer view r⟩ : Event (Answers R)) := by
  cases r with
  | read q =>
    obtain ⟨_,unwritten,_,accessed⟩ := may
    obtain rfl := settle_nil unwritten seen
    refine certain_read (fun p same => ?_)
    obtain ⟨u,role,answered⟩ := accessed p same
    exact known p u role answered
  | write w =>
    by_cases deletes : ∃ user, w = .deleteSessions user
    · obtain ⟨user,rfl⟩ := deletes
      refine certain_deletes (fun token session found owner => ?_)
      have same := settle_rehashes may.2 seen
      refine List.mem_map.mpr ⟨⟨token,session⟩,List.mem_filter.mpr ⟨lookup_iff_entry.mp ?_,by simp [owner]⟩,rfl⟩
      rw [same]
      exact found
    · refine certain_other (fun q v same => ?_) (fun user tokens same => ?_)
      · cases (congrArg Sigma.fst same : Statement.write w = .read q)
      · cases (congrArg Sigma.fst same : Statement.write w = .write (.deleteSessions user))
        exact deletes ⟨user,rfl⟩
  | lock => exact certain_other (fun q v same => by cases same) (fun user tokens same => by cases same)
  | begin => exact certain_other (fun q v same => by cases same) (fun user tokens same => by cases same)
  | commit => exact certain_other (fun q v same => by cases same) (fun user tokens same => by cases same)
  | rollback => exact certain_other (fun q v same => by cases same) (fun user tokens same => by cases same)
  | single w => exact certain_other (fun q v same => by cases same) (fun user tokens same => by cases same)

/-- An orphan check is made with the row of the user locked. -/
theorem orphaned_held {t : Running R security} {user : UserId} {v : List ProjectId}
    (member : ⟨.read (.orphaned user),.ok v⟩ ∈ current discipline t.history) : holds t.history (.row user) := by
  refine t.ran.history (fun history => ∀ user v,
    ⟨.read (.orphaned user),.ok v⟩ ∈ current discipline history → holds history (.row user))
    (handle_licensed security t.tag) (by simp) ?_ user v member
  intro history r x before may user v member
  cases ends : endsTransaction ⟨r,x⟩ with
  | true => simp [-endsTransaction,ends] at member
  | false =>
    rw [current_event,ends,cond_false] at member
    refine (held_event _ _ _).mpr ⟨ends,.inr ?_⟩
    rcases List.mem_cons.mp member with same | older
    · cases (congrArg Sigma.fst same : Statement.read (.orphaned user) = r)
      exact may.2.2.2.1 user rfl
    · exact before user v older

theorem licence_proper {job : Job R} {history : Past R} {r : Statement R} (may : licence security job history r)
    (other : r ≠ .commit) : Proper history r := by
  cases r with
  | commit => exact absurd rfl other
  | read q => exact may.2
  | _ => exact may

/-- What a statement does to the tables. -/
theorem Sound.effect (sound : Sound s) {t : Running R security} {r : Statement R} {next : Answers R r → Io R Unit} {fault : Fault}
    {db : Db R} {x : Answers R r} (member : t ∈ s.threads) (rest : t.rest = .request r next)
    (performed : perform fault t.history r s.db = (db,x)) : Effect s.db t db := by
  cases perform_cases performed with
  | failed e same => rw [same]; exact .nothing
  | lost e done => exact effect_made rest (sound.certain t member) (thread_licence rest) done
  | done seen done => exact effect_made rest (sound.certain t member) (thread_licence rest) done

theorem takes_authorization {r : Statement R} (takes : Lock.authorization ∈ r.takes) : r = .lock := by
  unfold Statement.takes at takes
  split at takes
  · rfl
  · simp at takes
  · simp at takes
  · simp at takes

/-- The events of the transaction of a thread that has made a statement. -/
theorem certain_own (sound : Sound s) {t t' : Running R security} {r : Statement R} {next : Answers R r → Io R Unit} {fault : Fault}
    {db : Db R} {x : Answers R r} (member : t ∈ s.threads) (rest : t.rest = .request r next)
    (performed : perform fault t.history r s.db = (db,x)) (history : t'.history = ⟨r,x⟩ :: t.history)
    (locked : holds t'.history .authorization) : ∀ e ∈ current discipline t'.history, Certain db e := by
  rw [history] at locked ⊢
  obtain ⟨ends,held⟩ := (held_event _ _ _).mp locked
  rw [current_event,ends,cond_false]
  -- a statement that is still in the transaction has not changed the tables
  have open_ : r.bounds = false ∧ (valueOf x).isNone = false := by simpa using ends
  have may := licence_proper (thread_licence rest) (by rintro rfl; cases open_.1)
  cases perform_cases performed with
  | failed e same => cases open_.2
  | lost e done => cases open_.2
  | @done view seen done =>
    have same : db = s.db := by
      cases r with
      | single w =>
        rcases held with takes | before
        · cases takes
        · exact absurd before may.1
      | commit => cases open_.1
      | read q => cases done; rfl
      | write w => cases done; rfl
      | begin => cases open_.1
      | lock => cases done; rfl
      | rollback => cases open_.1
    subst same
    intro e event
    rcases List.mem_cons.mp event with rfl | older
    · exact certain_made may seen (sound.known t member)
    · rcases held with takes | before
      · -- the lock is the first statement of its transaction
        obtain rfl := takes_authorization takes
        rw [show current discipline t.history = [] from may] at older
        cases older
      · exact sound.certain t member before e older

/-- The events of the transaction of another thread. -/
theorem certain_others (sound : Sound s) {i j : Nat} {t u : Running R security} {db : Db R} (found : s.threads[i]? = some t)
    (there : s.threads[j]? = some u) (other : j ≠ i) (effect : Effect s.db t db) (locked : holds u.history .authorization) :
    ∀ e ∈ current discipline u.history, Certain db e := by
  intro e event
  have certain := sound.certain u (List.mem_of_getElem? there) locked e event
  rcases effect.grows with both | ⟨creator,grows,shares⟩
  · have apart := sound.exclusive i j t u found there (Ne.symm other) _ both _ locked
    cases apart
  · refine certain.grows grows sound.foreign (fun user same created => ?_)
    rw [same] at event
    have apart := sound.exclusive j i u t there found other _ (orphaned_held event) _ (shares user created)
    simp [discipline,Lock.conflicts] at apart

theorem known_made (sound : Sound s) {t t' : Running R security} {r : Statement R} {next : Answers R r → Io R Unit} {fault : Fault}
    {db : Db R} {x : Answers R r} (member : t ∈ s.threads) (rest : t.rest = .request r next)
    (performed : perform fault t.history r s.db = (db,x)) (history : t'.history = ⟨r,x⟩ :: t.history)
    {p : ProjectId} {u : UserId} {role : Option Role} (answered : Answered t'.history (.access p u) (some role)) :
    (s.db.projects.lookup p).isSome = true := by
  rw [Answered,history] at answered
  rcases List.mem_cons.mp answered with same | before
  · cases (congrArg Sigma.fst same : Statement.read (.access p u) = r)
    obtain ⟨_,_,unwritten,_⟩ := thread_licence rest
    cases perform_cases performed with
    | failed e _ => cases same
    | lost e _ => cases same
    | done seen _ =>
      obtain rfl := settle_nil unwritten seen
      obtain ⟨_,answer⟩ := select_of_same same.symm
      obtain ⟨creator,found,_⟩ := Option.map_eq_some_iff.mp answer
      simp [found]
  · exact sound.known t member p u role before

/-- Steps of nobody. -/
theorem Sound.quiet (sound : Sound s) {db : Db R} (grows : Grows none s.db db) (foreign : Foreign db) :
    Sound { s with db := db } := by
  refine ⟨sound.exclusive,fun t member locked e event => ?_,foreign,fun t member p u role answered => ?_⟩
  · exact (sound.certain t member locked e event).grows grows sound.foreign (by simp)
  · exact grows.projects p (sound.known t member p u role answered)

theorem Sound.step {l : Label R} (sound : Sound s) (moved : step l s = some s') : Sound s' := by
  cases step_cases moved with
  | spawned r =>
    refine ⟨sound.exclusive.spawn _,?_,sound.foreign,?_⟩
    · intro t member locked
      rcases List.mem_append.mp member with old | new
      · exact sound.certain t old locked
      · obtain rfl := List.mem_singleton.mp new
        simp [Thread.spawn] at locked
    · intro t member p u role answered
      rcases List.mem_append.mp member with old | new
      · exact sound.known t old p u role answered
      · obtain rfl := List.mem_singleton.mp new
        cases answered
  | @made i fault t t' r x db next found rest free performed tag history =>
    have member := List.mem_of_getElem? found
    have effect := sound.effect member rest performed
    refine ⟨sound.exclusive.step found free history,?_,effect.foreign sound.foreign,?_⟩
    · intro u there locked
      obtain ⟨j,at_index⟩ := List.mem_iff_getElem?.mp there
      rw [List.getElem?_set] at at_index
      by_cases same : i = j
      · subst same
        obtain rfl : t' = u := by simp at at_index; exact at_index.2
        exact certain_own sound member rest performed history locked
      · simp only [same,if_false] at at_index
        exact certain_others sound found at_index (Ne.symm same) effect locked
    · intro u there p v role answered
      rcases List.mem_or_eq_of_mem_set there with old | rfl
      · exact effect.projects (sound.known u old p v role answered)
      · exact effect.projects (known_made sound member rest performed history answered)
  | waited seconds => exact sound.quiet ⟨fun _ _ found => found,fun _ _ found => found,fun _ found => found,
      fun _ _ _ found => found,fun _ _ _ found => .inl found⟩ sound.foreign
  | elsewhere change => exact sound.quiet ⟨fun _ _ found => found,fun _ _ found => found,fun _ found => found,
      fun _ _ _ found => found,fun _ _ _ found => .inl found⟩ sound.foreign

/-- Nothing runs, and members are users. -/
structure Start (s : System R security) : Prop where
  threads : s.threads = []
  foreign : Foreign s.db

theorem Start.sound (start : Start s) : Sound s where
  exclusive := by rw [start.threads]; exact .nil
  certain t member := by rw [start.threads] at member; cases member
  foreign := start.foreign
  known t member := by rw [start.threads] at member; cases member

theorem sound_reached {allowed : System R security → Label R → Prop} (start : Start s) (reached : Reaches step allowed s s') :
    Sound s' :=
  reached.invariant start.sound (fun sound _ moved => sound.step moved)

end
end Expbuild.Revocation
