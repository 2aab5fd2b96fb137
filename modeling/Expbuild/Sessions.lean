import Expbuild.Revocation

/-!
Sessions do not outlive the credentials that they were issued for. A login
verifies a password long before it inserts its session, so the point is what it
checks again under the authorization lock, and that everything that takes an
account or a password away deletes its sessions under the same lock.
-/
namespace Expbuild.Sessions
open Expbuild.Contract Expbuild.Schema Expbuild.Tables Expbuild.Programs Expbuild.Runs Expbuild.Locks Expbuild.Accounts
open Expbuild.AccountRoutes Expbuild.Authority Expbuild.Revocation

variable {R : Type} {security : Security} {s s' : System R security}

/-- A login has verified a password against the hash and inserted the session. -/
structure LogsIn (t : Running R security) (token : Token) (session : Session) (hash : PasswordHash) : Prop where
  drawn : t.tag.drawn = token
  inserted : ⟨.write (.insertSession token session),.ok ()⟩ ∈ t.history
  verified : ∃ cookie email password account, t.tag.request = .login cookie email password ∧
    Answered t.history (.accountOf email) (some (session.user,account)) ∧
    security.verifyPassword password account.passwordHash = true ∧ account.passwordHash = hash

/-- The session belongs to an active user and was issued by a login that verified
    a password against the hash that the user has now. -/
def Issued (s : System R security) (token : Token) (session : Session) : Prop :=
  ∃ row, s.db.users.lookup session.user = some row ∧ row.active = true ∧
    ∃ t ∈ s.threads, LogsIn t token session row.passwordHash

/-- All that was so far stays in the history. -/
theorem LogsIn.later {t t' : Running R security} {token : Token} {session : Session} {hash : PasswordHash}
    (logsIn : LogsIn t token session hash) (tag : t'.tag = t.tag) (suffix : ∀ e ∈ t.history, e ∈ t'.history) :
    LogsIn t' token session hash := by
  obtain ⟨cookie,email,password,account,request,found,verified⟩ := logsIn.verified
  exact ⟨tag ▸ logsIn.drawn,suffix _ logsIn.inserted,cookie,email,password,account,tag ▸ request,suffix _ found,verified⟩

/-- A thread that was there is there still, perhaps further on. -/
theorem thread_later {i : Nat} {t t' u : Running R security} {r : Statement R} {x : Answers R r} {threads : List (Running R security)}
    (found : threads[i]? = some t) (tag : t'.tag = t.tag) (history : t'.history = ⟨r,x⟩ :: t.history) (member : u ∈ threads) :
    ∃ u' ∈ threads.set i t', u'.tag = u.tag ∧ ∀ e ∈ u.history, e ∈ u'.history := by
  obtain ⟨j,there⟩ := List.mem_iff_getElem?.mp member
  by_cases same : i = j
  · subst same
    obtain rfl : t = u := Option.some.inj (found.symm.trans there)
    have small : i < threads.length := (List.getElem?_eq_some_iff.mp found).1
    refine ⟨t',List.mem_of_getElem? (i := i) ?_,tag,fun e event => ?_⟩
    · simp [small]
    · rw [history]
      exact List.mem_cons_of_mem _ event
  · refine ⟨u,List.mem_of_getElem? (i := j) ?_,rfl,fun _ event => event⟩
    rw [List.getElem?_set_ne same]
    exact there

/-- A session that was issued stays so where its user keeps its hash and stays
    active. -/
theorem Issued.kept {i : Nat} {t t' : Running R security} {r : Statement R} {x : Answers R r} {db : Db R} {token : Token}
    {session : Session} (issued : Issued s token session) (found : s.threads[i]? = some t) (tag : t'.tag = t.tag)
    (history : t'.history = ⟨r,x⟩ :: t.history)
    (users : ∀ row, s.db.users.lookup session.user = some row → row.active = true →
      ∃ row', db.users.lookup session.user = some row' ∧ row'.active = true ∧ row'.passwordHash = row.passwordHash) :
    Issued { s with db := db, threads := s.threads.set i t' } token session := by
  obtain ⟨row,there,active,u,member,logsIn⟩ := issued
  obtain ⟨row',there',active',same⟩ := users row there active
  obtain ⟨u',member',tag',suffix⟩ := thread_later found tag history member
  refine ⟨row',there',active',u',member',?_⟩
  rw [same]
  exact logsIn.later tag' suffix

/-- What happens to the account of a session that is still there. -/
theorem Effect.account {t : Running R security} {db db' : Db R} {token : Token} {session : Session} {row : Account}
    (effect : Effect db t db') (before : db.sessions.lookup token = some session)
    (after : db'.sessions.lookup token = some session) (there : db.users.lookup session.user = some row)
    (active : row.active = true) :
    ∃ row', db'.users.lookup session.user = some row' ∧ row'.active = true ∧ row'.passwordHash = row.passwordHash := by
  -- a session that survives is of another user than the one whose sessions were deleted
  have apart : ∀ {target tokens} {edited : Db R}, Covers db target tokens →
      (signOut tokens edited).sessions.lookup token = some session → session.user ≠ target := by
    intro target tokens edited covers kept same
    exact (lookup_signOut kept).2 (covers token session before same)
  cases effect with
  | @registered id account audit fresh =>
    refine ⟨row,?_,active,rfl⟩
    have other : session.user ≠ id := by
      intro same
      rw [same,fresh] at there
      cases there
    rw [lookup_insert,if_neg other]
    exact there
  | rehashed _ _ _ covers =>
    refine ⟨row,?_,active,rfl⟩
    exact (lookup_modify_ne (apart covers after) _ _).trans there
  | disabled _ _ _ _ _ _ _ covers =>
    refine ⟨row,?_,active,rfl⟩
    have gone : (signOut _ db).sessions.lookup token = some session := after
    exact (lookup_modify_ne (apart covers gone) _ _).trans there
  | @enabled c target =>
    by_cases same : session.user = target
    · refine ⟨{ row with active := true },?_,rfl,rfl⟩
      change (modify target _ db.users).lookup session.user = _
      rw [lookup_modify,if_pos same,there]
      rfl
    · exact ⟨row,(lookup_modify_ne same _ _).trans there,active,rfl⟩
  | changed => exact ⟨row,by simpa [logEvent] using there,active,rfl⟩
  | nothing | loggedOut | founded | signedIn | worked => exact ⟨row,there,active,rfl⟩

/-- A session that appears is inserted by the first commit of a login. -/
theorem Effect.session {t : Running R security} {db db' : Db R} {token : Token} {session : Session}
    (effect : Effect db t db') (after : db'.sessions.lookup token = some session) :
    db.sessions.lookup token = some session ∨
      ((∃ next, t.rest = .request .commit next) ∧ (∀ x, ⟨.commit,x⟩ ∉ t.history) ∧
        ∃ row, db'.users.lookup session.user = some row ∧ row.active = true ∧ LogsIn t token session row.passwordHash) := by
  cases effect with
  | loggedOut => exact .inl (lookup_signOut after).1
  | rehashed => exact .inl (lookup_signOut after).1
  | disabled => exact .inl (lookup_signOut after).1
  | changed => exact .inl (by simpa [logEvent] using after)
  | @signedIn cookie email password id account fresh session' row commits locked request signs current unused =>
    change ((signOut cookie.toList db).sessions.insert t.tag.drawn session').lookup token = _ at after
    rw [lookup_insert] at after
    split at after
    · rename_i same
      obtain rfl := Option.some.inj after
      obtain rfl := signs.user
      refine .inr ⟨commits,signs.first,fresh,current,signs.active,same.symm,?_,cookie,email,password,account,request,signs.found,signs.verified,
        signs.unchanged.symm⟩
      have wrote : (⟨.insertSession t.tag.drawn session',()⟩ : Written R) ∈ pending t.history := by
        rw [signs.writes]
        simp
      rw [same]
      exact mem_current (mem_pending wrote)
    · exact .inl (lookup_signOut after).1
  | nothing | registered | founded | enabled | worked => exact .inl after

/-- Every session was issued. -/
def Authentic (s : System R security) : Prop :=
  ∀ token session, s.db.sessions.lookup token = some session → Issued s token session

theorem Authentic.step {l : Label R} (authentic : Authentic s) (sound : Sound s) (moved : step l s = some s') :
    Authentic s' := by
  intro token session after
  cases step_cases moved with
  | spawned r =>
    obtain ⟨row,there,active,t,member,logsIn⟩ := authentic token session after
    exact ⟨row,there,active,t,List.mem_append_left _ member,logsIn⟩
  | @made i fault t t' r x db next found rest free performed tag history =>
    have effect := sound.effect (List.mem_of_getElem? found) rest performed
    rcases Effect.session effect after with before | ⟨_,_,row,there,active,logsIn⟩
    · refine (authentic token session before).kept found tag history (fun row there active => ?_)
      exact Effect.account effect before after there active
    · obtain ⟨u,member,tag',suffix⟩ := thread_later found tag history (List.mem_of_getElem? found)
      exact ⟨row,there,active,u,member,logsIn.later tag' suffix⟩
  | waited seconds => exact authentic token session after
  | elsewhere change => exact authentic token session after

/-- In every state that requests and statements lead to, in any order, each
    session belongs to an active user and was issued by a login that verified a
    password against the user's current hash. -/
theorem sessions_current (start : Start s) (none : s.db.sessions = ∅) (reached : Reaches step (fun _ _ => True) s s')
    {token : Token} {session : Session} (stored : s'.db.sessions.lookup token = some session) :
    Issued s' token session := by
  have both : Sound s' ∧ Authentic s' := by
    refine reached.invariant (I := fun s => Sound s ∧ Authentic s) ⟨start.sound,?_⟩ (fun holds _ moved => ?_)
    · intro token session found
      rw [none] at found
      cases found
    · exact ⟨holds.1.step moved,holds.2.step holds.1 moved⟩
  exact both.2 token session stored

/-! ### An office -/

/-- Passwords that are their own hash. -/
def plain : Security := ⟨fun password _ => password,fun password hash => password = hash,""⟩

/-- Two platform administrators that nobody has signed in as. -/
def office : System Nat plain where
  db := { users := AList.insert 1 ⟨"a@office","first",true,true⟩ (AList.insert 2 ⟨"b@office","second",true,true⟩ ∅), rest := 0 }
  fresh := 10

theorem office_start : Start office := ⟨rfl,fun _ _ _ found => by cases found⟩

/-- A thread makes some statements, one after the other. -/
def goesOn (thread statements : Nat) : List (Label Nat) := List.replicate statements (.run thread .delivered)

/-- Both administrators sign in, and the second resets the password of the first. -/
def resetting : List (Label Nat) :=
  [.request (.login none "a@office" "first")] ++ goesOn 0 7 ++ [.request (.login none "b@office" "second")] ++ goesOn 1 7 ++
    [.request (.resetPassword ⟨some 11,some 11⟩ 1 "third")] ++ goesOn 2 10

theorem sessions_current_reset : ∃ s : System Nat plain, Reaches step (fun _ _ => True) office s ∧
    s.db.sessions.lookup 10 = none ∧ Issued s 11 ⟨2,11,86400⟩ := by
  obtain ⟨s,reached,holds⟩ := reaches_of_run (fun _ _ _ => trivial)
    (show (run step (fun _ _ => true) resetting office).any (fun s => s.db.sessions.lookup 10 = none &&
      s.db.sessions.lookup 11 = some ⟨2,11,86400⟩ && s.db.audit.length = 3) = true by decide +kernel)
  simp only [Bool.and_eq_true,decide_eq_true_eq] at holds
  obtain ⟨⟨gone,stored⟩,_⟩ := holds
  exact ⟨s,reached,gone,sessions_current office_start rfl reached stored⟩

end Expbuild.Sessions
