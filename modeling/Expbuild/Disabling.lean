import Expbuild.Administration

/-!
Requests of an administrator that is disabled meanwhile. A password reset joins
the account of its actor with its session again under the authorization lock, and
disabling an account deletes its sessions under that lock, so a reset commits
nothing after its actor was disabled. The other requests of administrators do
not look again: they stay out only if nobody is disabled while they run.
-/
namespace Expbuild.Disabling
open Expbuild.Contract Expbuild.Schema Expbuild.Tables Expbuild.Programs Expbuild.Runs Expbuild.Locks Expbuild.Accounts
open Expbuild.AccountRoutes Expbuild.Authority Expbuild.Revocation Expbuild.Sessions Expbuild.Administration

variable {R : Type} {security : Security} {s s' : System R security}

/-- The requests of administrators that authorise their actor only once. -/
def unchecked : Request R → Bool
  | .createUser _ _ _ | .updateUser _ _ _ | .createProject _ _ => true
  | _ => false

/-- The requests of platform administrators that change accounts or create projects. -/
def administrative : Request R → Bool
  | .createUser _ _ _ | .updateUser _ _ _ | .createProject _ _ | .resetPassword _ _ _ => true
  | _ => false

/-- A thread that makes no more statements. -/
def Finished (t : Running R security) : Prop := ∀ r next, t.rest ≠ .request r next

/-- The step commits that a user is disabled. -/
def DisablesUser (s : System R security) (l : Label R) (target : UserId) : Prop :=
  ∃ i fault t next c, l = .run i fault ∧ s.threads[i]? = some t ∧ t.rest = .request .commit next ∧
    t.tag.request = .updateUser c target false

/-- Nobody is disabled while an unchecked request of theirs is under way. -/
def Undisturbed (s : System R security) (l : Label R) : Prop :=
  ∀ target, DisablesUser s l target → ∀ t ∈ s.threads, unchecked t.tag.request = true →
    (∃ token actor, Answered t.history (.session token) (some actor) ∧ actor.id = target) → Finished t

/-! ### Threads over time -/

/-- A thread keeps its place and its request. -/
theorem thread_step {l : Label R} {i : Nat} {t : Running R security} (found : s.threads[i]? = some t)
    (moved : step l s = some s') : ∃ t', s'.threads[i]? = some t' ∧ t'.tag = t.tag ∧ (∀ e ∈ t.history, e ∈ t'.history) ∧
      (Finished t → t' = t) := by
  cases step_cases moved with
  | spawned r =>
    have small : i < s.threads.length := (List.getElem?_eq_some_iff.mp found).1
    exact ⟨t,by rw [List.getElem?_append_left small]; exact found,rfl,fun _ event => event,fun _ => rfl⟩
  | @made j fault u u' r x db next there rest free performed tag history =>
    by_cases same : j = i
    · subst same
      obtain rfl : u = t := Option.some.inj (there.symm.trans found)
      have small : j < s.threads.length := (List.getElem?_eq_some_iff.mp found).1
      refine ⟨u',by simp [small],tag,fun e event => ?_,fun finished => absurd rest (finished r next)⟩
      rw [history]
      exact List.mem_cons_of_mem _ event
    · exact ⟨t,by rw [List.getElem?_set_ne same]; exact found,rfl,fun _ event => event,fun _ => rfl⟩
  | waited seconds => exact ⟨t,found,rfl,fun _ event => event,fun _ => rfl⟩
  | elsewhere change => exact ⟨t,found,rfl,fun _ event => event,fun _ => rfl⟩

theorem thread_reached {allowed : System R security → Label R → Prop} {i : Nat} {t : Running R security}
    (found : s.threads[i]? = some t) (reached : Reaches step allowed s s') :
    ∃ t', s'.threads[i]? = some t' ∧ t'.tag = t.tag ∧ (Finished t → t' = t) := by
  refine reached.invariant (I := fun s => ∃ t', s.threads[i]? = some t' ∧ t'.tag = t.tag ∧ (Finished t → t' = t))
    ⟨t,found,rfl,fun _ => rfl⟩ ?_
  rintro u v l ⟨t',there,tag,same⟩ _ moved
  obtain ⟨t'',there',tag',_,same'⟩ := thread_step there moved
  refine ⟨t'',there',tag'.trans tag,fun finished => ?_⟩
  obtain rfl := same finished
  exact same' finished

/-! ### Tokens -/

/-- No thread that drew the token has yet to commit, and none will draw it. -/
def Spent (s : System R security) (token : Token) : Prop :=
  token < s.fresh ∧ ∀ t ∈ s.threads, t.tag.drawn = token → ∃ x, ⟨.commit,x⟩ ∈ t.history

/-- A token stands for at most one session, ever. -/
structure Unique (s : System R security) : Prop where
  drawn : ∀ t ∈ s.threads, t.tag.drawn < s.fresh
  distinct : ∀ (i j : Nat) (t u : Running R security), s.threads[i]? = some t → s.threads[j]? = some u →
    t.tag.drawn = u.tag.drawn → i = j
  stored : ∀ token session, s.db.sessions.lookup token = some session → Spent s token
  read : ∀ t ∈ s.threads, ∀ token actor, Answered t.history (.session token) (some actor) →
    Spent s token ∧ ∀ session, s.db.sessions.lookup token = some session → session.user = actor.id

theorem Spent.step {l : Label R} {token : Token} (spent : Spent s token) (moved : step l s = some s') : Spent s' token := by
  obtain ⟨small,committed⟩ := spent
  cases step_cases moved with
  | spawned r =>
    refine ⟨Nat.lt_succ_of_lt small,fun t member same => ?_⟩
    rcases List.mem_append.mp member with old | new
    · exact committed t old same
    · obtain rfl := List.mem_singleton.mp new
      exact absurd same (Nat.ne_of_gt small)
  | @made i fault t t' r x db next found rest free performed tag history =>
    refine ⟨small,fun u member same => ?_⟩
    rcases List.mem_or_eq_of_mem_set member with old | rfl
    · exact committed u old same
    · rw [tag] at same
      obtain ⟨y,event⟩ := committed t (List.mem_of_getElem? found) same
      exact ⟨y,by rw [history]; exact List.mem_cons_of_mem _ event⟩
  | waited seconds => exact ⟨small,committed⟩
  | elsewhere change => exact ⟨small,committed⟩

/-- A session with a spent token was there before. -/
theorem Spent.kept {t : Running R security} {db : Db R} {token : Token} {session : Session} (spent : Spent s token)
    (member : t ∈ s.threads) (effect : Effect s.db t db) (after : db.sessions.lookup token = some session) :
    s.db.sessions.lookup token = some session := by
  rcases Effect.session effect after with before | ⟨_,first,_,_,_,logsIn⟩
  · exact before
  · obtain ⟨x,event⟩ := spent.2 t member logsIn.drawn
    exact absurd event (first x)

/-- What the session of a token was read as. -/
theorem session_made {t : Running R security} {r : Statement R} {next : Answers R r → Io R Unit} {fault : Fault} {db : Db R}
    {x : Answers R r} {token : Token} {actor : Actor} (rest : t.rest = .request r next)
    (performed : perform fault t.history r s.db = (db,x))
    (same : (⟨.read (.session token),.ok (some actor)⟩ : Event (Answers R)) = ⟨r,x⟩) :
    db = s.db ∧ ∃ session, s.db.sessions.lookup token = some session ∧ session.user = actor.id := by
  cases (congrArg Sigma.fst same : Statement.read (.session token) = r)
  obtain ⟨_,_,unwritten,_⟩ := thread_licence rest
  cases perform_cases performed with
  | failed e _ => cases same
  | lost e _ => cases same
  | done seen done =>
    obtain rfl := settle_nil unwritten seen
    obtain ⟨_,answer⟩ := select_of_same same.symm
    refine ⟨(Option.some.inj done).symm,?_⟩
    simp only [select] at answer
    cases found : s.db.sessions.lookup token with
    | none => simp [found] at answer
    | some session =>
      cases row : s.db.users.lookup session.user with
      | none => simp [found,row] at answer
      | some account =>
        simp only [found,row] at answer
        obtain ⟨_,same⟩ := Option.ite_none_right_eq_some.mp answer
        exact ⟨session,rfl,congrArg Actor.id (Option.some.inj same)⟩

theorem Unique.step {l : Label R} (unique : Unique s) (sound : Sound s) (moved : step l s = some s') : Unique s' := by
  have spent : ∀ {token}, Spent s token → Spent s' token := fun spent => spent.step moved
  cases step_cases moved with
  | spawned r =>
    refine ⟨fun t member => ?_,fun i j t u found there same => ?_,fun token session stored => spent (unique.stored token session stored),
      fun t member token actor answered => ?_⟩
    · rcases List.mem_append.mp member with old | new
      · exact Nat.lt_succ_of_lt (unique.drawn t old)
      · obtain rfl := List.mem_singleton.mp new
        exact Nat.lt_succ_self _
    · rcases getElem?_concat found with old | ⟨rfl,rfl⟩
      · rcases getElem?_concat there with old' | ⟨rfl,rfl⟩
        · exact unique.distinct i j t u old old' same
        · exact absurd same (Nat.ne_of_lt (unique.drawn t (List.mem_of_getElem? old)))
      · rcases getElem?_concat there with old' | ⟨rfl,rfl⟩
        · exact absurd same (Nat.ne_of_gt (unique.drawn u (List.mem_of_getElem? old')))
        · rfl
    · rcases List.mem_append.mp member with old | new
      · obtain ⟨before,owner⟩ := unique.read t old token actor answered
        exact ⟨spent before,owner⟩
      · obtain rfl := List.mem_singleton.mp new
        cases answered
  | @made i fault t t' r x db next found rest free performed tag history =>
    have member := List.mem_of_getElem? found
    have effect := sound.effect member rest performed
    have drawn_at : ∀ {j : Nat} {u : Running R security}, (s.threads.set i t')[j]? = some u →
        ∃ v, s.threads[j]? = some v ∧ v.tag.drawn = u.tag.drawn := by
      intro j u there
      by_cases here : i = j
      · subst here
        have small : i < s.threads.length := (List.getElem?_eq_some_iff.mp found).1
        obtain rfl : t' = u := by simpa [small] using there
        exact ⟨t,found,by rw [tag]⟩
      · rw [List.getElem?_set_ne here] at there
        exact ⟨u,there,rfl⟩
    refine ⟨fun u there => ?_,fun j k u v first second same => ?_,fun token session stored => ?_,
      fun u there token actor answered => ?_⟩
    · rcases List.mem_or_eq_of_mem_set there with old | rfl
      · exact unique.drawn u old
      · rw [tag]; exact unique.drawn t member
    · exact (drawn_at first).elim fun _ old => (drawn_at second).elim fun _ old' =>
        unique.distinct j k _ _ old.1 old'.1 (old.2.trans (same.trans old'.2.symm))
    · rcases Effect.session effect stored with before | ⟨⟨next',commits⟩,_,_,_,_,logsIn⟩
      · exact spent (unique.stored token session before)
      · refine ⟨logsIn.drawn ▸ unique.drawn t member,fun u there same => ?_⟩
        obtain ⟨j,at_index⟩ := List.mem_iff_getElem?.mp there
        by_cases here : i = j
        · subst here
          have small : i < s.threads.length := (List.getElem?_eq_some_iff.mp found).1
          obtain rfl : t' = u := by simpa [small] using at_index
          cases rest.symm.trans commits
          exact ⟨x,by rw [history]; exact List.mem_cons_self⟩
        · rw [List.getElem?_set_ne here] at at_index
          exact absurd (unique.distinct i j t u found at_index (logsIn.drawn.trans same.symm)) here
    · rcases List.mem_or_eq_of_mem_set there with old | rfl
      · obtain ⟨before,owner⟩ := unique.read u old token actor answered
        exact ⟨spent before,fun session stored => owner session (before.kept member effect stored)⟩
      · rw [Answered,history] at answered
        rcases List.mem_cons.mp answered with same | older
        · obtain ⟨unchanged,session,stored,owner⟩ := session_made rest performed same
          refine ⟨spent (unique.stored token session stored),fun session' stored' => ?_⟩
          rw [show db = s.db from unchanged,stored] at stored'
          cases stored'
          exact owner
        · obtain ⟨before,owner⟩ := unique.read t member token actor older
          exact ⟨spent before,fun session stored => owner session (before.kept member effect stored)⟩
  | waited seconds => exact ⟨unique.drawn,unique.distinct,fun _ _ stored => spent (unique.stored _ _ stored),
      fun t member token actor answered => ⟨spent (unique.read t member token actor answered).1,(unique.read t member token actor answered).2⟩⟩
  | elsewhere change => exact ⟨unique.drawn,unique.distinct,fun _ _ stored => spent (unique.stored _ _ stored),
      fun t member token actor answered => ⟨spent (unique.read t member token actor answered).1,(unique.read t member token actor answered).2⟩⟩

/-! ### Disabling -/

/-- A user is disabled by a commit under the lock that deletes all its sessions. -/
structure DisabledBy (s : System R security) (l : Label R) (s' : System R security) (user : UserId) (i : Nat)
    (t : Running R security) : Prop where
  disables : DisablesUser s l user
  found : s.threads[i]? = some t
  request : ∃ c, t.tag.request = .updateUser c user false
  locked : holds t.history .authorization
  others : ∀ (k : Nat) (u : Running R security), k ≠ i → s.threads[k]? = some u → s'.threads[k]? = some u
  sessions : ∀ token session, s'.db.sessions.lookup token = some session →
    s.db.sessions.lookup token = some session ∧ session.user ≠ user

theorem disabledBy {l : Label R} {user : UserId} (sound : Sound s) (moved : step l s = some s')
    (was : isActive s.db user = true) (now : isActive s'.db user = false) : ∃ i t, DisabledBy s l s' user i t := by
  obtain ⟨account,row,active⟩ := isActive_iff.mp was
  cases step_cases moved with
  | spawned r | waited r | elsewhere r =>
    change isActive s.db user = false at now
    rw [was] at now
    cases now
  | @made i fault t t' r x db next found rest free performed tag history =>
    have effect := sound.effect (List.mem_of_getElem? found) rest performed
    -- whoever is still active was not disabled
    have still : ∀ account', db.users.lookup user = some account' → account'.active = true → False := by
      intro account' row' active'
      rw [show isActive db user = true from isActive_iff.mpr ⟨account',row',active'⟩] at now
      cases now
    cases effect with
    | nothing | loggedOut | founded | signedIn | worked => exact (still account row active).elim
    | changed => exact (still account (by simpa [logEvent] using row) active).elim
    | registered fresh => exact (still account ((grows_registered fresh).users user account row) active).elim
    | @rehashed c target actor token now fresh account' event tokens hash =>
      refine (still (if user = target then { account with passwordHash := hash } else account) ?_ ?_).elim
      · change (modify target _ s.db.users).lookup user = _
        rw [lookup_modify,row]
        split <;> rfl
      · split <;> exact active
    | @enabled c target event =>
      refine (still (if user = target then { account with active := true } else account) ?_ ?_).elim
      · change (modify target _ s.db.users).lookup user = _
        rw [lookup_modify,row]
        split <;> rfl
      · split
        · rfl
        · exact active
    | @disabled c target account' admins event tokens commits locked request disables current others actives covers =>
      obtain ⟨next',commits⟩ := commits
      have same : user = target := by
        by_contra other
        exact still account ((lookup_modify_ne other _ _).trans row) active
      subst same
      refine ⟨i,t,⟨i,fault,t,next',c,rfl,found,commits,request⟩,found,⟨c,request⟩,locked,fun k u other there => ?_,
        fun token session stored => ?_⟩
      · rw [List.getElem?_set_ne (Ne.symm other)]
        exact there
      obtain ⟨before,other⟩ := lookup_signOut (stored : (signOut tokens s.db).sessions.lookup token = some session)
      exact ⟨before,fun owner => other (covers token session before owner)⟩

/-- A query that is only made under the lock was made under it. -/
theorem locked_held {t : Running R security} {q : Query} {v : q.Value} (asks : asksLocked q = true)
    (read : Reads t.history q v) : holds t.history .authorization := by
  refine t.ran.history (fun history => ∀ (q : Query) (v : q.Value), asksLocked q = true → Reads history q v →
    holds history .authorization) (handle_licensed security t.tag) (fun q v _ read => by simp [Reads] at read) ?_ q v asks read
  intro history r x before may q v asks read
  cases ends : endsTransaction ⟨r,x⟩ with
  | true => simp [Reads,-endsTransaction,ends] at read
  | false =>
    rw [Reads,current_event,ends,cond_false] at read
    refine (held_event _ _ _).mpr ⟨ends,.inr ?_⟩
    rcases List.mem_cons.mp read with same | older
    · cases (congrArg Sigma.fst same : Statement.read q = r)
      exact may.2.1 asks
    · exact before q v asks older

/-- A session is read with the cookie of the request. -/
theorem cookie_read {t : Running R security} {token : Token} {actor : Option Actor}
    (answered : Answered t.history (.session token) actor) : cookieOf t.tag.request = some token := by
  refine t.ran.history (fun history => ∀ token actor, Answered history (.session token) actor →
    cookieOf t.tag.request = some token) (handle_licensed security t.tag) (fun _ _ none => by cases none) ?_ token actor answered
  intro history r x before may token actor answered
  rcases List.mem_cons.mp answered with same | older
  · cases (congrArg Sigma.fst same : Statement.read (.session token) = r)
    exact may.1 token rfl
  · exact before token actor older

/-- A reset whose session is gone and that has not looked since. -/
structure Revoked (s : System R security) (i : Nat) (token : Token) (t : Running R security) : Prop where
  found : s.threads[i]? = some t
  gone : s.db.sessions.lookup token = none
  spent : Spent s token
  unseen : ∀ user now account, ¬Reads t.history (.signed user token now) (some account)

theorem Revoked.step {l : Label R} {i : Nat} {token : Token} {t : Running R security} (revoked : Revoked s i token t)
    (sound : Sound s) (moved : step l s = some s') : ∃ t', t'.tag = t.tag ∧ Revoked s' i token t' := by
  have spent := revoked.spent.step moved
  cases step_cases moved with
  | spawned r =>
    have small : i < s.threads.length := (List.getElem?_eq_some_iff.mp revoked.found).1
    exact ⟨t,rfl,by rw [List.getElem?_append_left small]; exact revoked.found,revoked.gone,spent,revoked.unseen⟩
  | @made j fault u u' r x db next there rest free performed tag history =>
    have effect := sound.effect (List.mem_of_getElem? there) rest performed
    have gone : db.sessions.lookup token = none := by
      cases stored : db.sessions.lookup token with
      | none => rfl
      | some session =>
        have before := revoked.spent.kept (List.mem_of_getElem? there) effect stored
        rw [revoked.gone] at before
        cases before
    by_cases same : j = i
    · subst same
      obtain rfl : u = t := Option.some.inj (there.symm.trans revoked.found)
      have small : j < s.threads.length := (List.getElem?_eq_some_iff.mp there).1
      refine ⟨u',tag,by simp [small],gone,spent,fun user now account read => ?_⟩
      rw [Reads,history,current_event] at read
      cases ends : endsTransaction ⟨r,x⟩ with
      | true => rw [ends] at read; cases read
      | false =>
        rw [ends,cond_false] at read
        rcases List.mem_cons.mp read with event | older
        · cases (congrArg Sigma.fst event : Statement.read (.signed user token now) = r)
          obtain ⟨_,_,unwritten,_⟩ := thread_licence rest
          cases perform_cases performed with
          | failed e _ => cases event
          | lost e _ => cases event
          | done seen _ =>
            obtain rfl := settle_nil unwritten seen
            obtain ⟨_,answer⟩ := select_of_same event.symm
            simp [select,revoked.gone] at answer
        · exact revoked.unseen user now account older
    · refine ⟨t,rfl,?_,gone,spent,revoked.unseen⟩
      rw [List.getElem?_set_ne same]
      exact revoked.found
  | waited seconds => exact ⟨t,rfl,revoked.found,revoked.gone,spent,revoked.unseen⟩
  | elsewhere change => exact ⟨t,rfl,revoked.found,revoked.gone,spent,revoked.unseen⟩

/-- What happens around the commit that disables a user: a thread was authorised
    as the user before and commits a change later. -/
structure Outlives (start s₁ s₂ s₃ s₄ : System R security) (allowed : System R security → Label R → Prop) (l l' : Label R) (i : Nat)
    (t t' : Running R security) (token : Token) (actor : Actor) : Prop where
  before : Reaches step allowed start s₁
  running : s₁.threads[i]? = some t
  authorised : Answered t.history (.session token) (some actor)
  may : allowed s₁ l
  moved : step l s₁ = some s₂
  was : isActive s₁.db actor.id = true
  disabled : isActive s₂.db actor.id = false
  after : Reaches step allowed s₂ s₃
  commits : Commits s₃ l' s₄ i t'

/-- Where nobody is disabled while an unchecked request of theirs is under way, no
    request of an administrator commits a change after its actor was disabled. -/
theorem disabled_stays_out {start s₁ s₂ s₃ s₄ : System R security} {l l' : Label R} {i : Nat} {t t' : Running R security}
    {token : Token} {actor : Actor} (begins : Start start)
    (drawn : ∀ token session, start.db.sessions.lookup token = some session → token < start.fresh)
    (outlives : Outlives start s₁ s₂ s₃ s₄ Undisturbed l l' i t t' token actor) : administrative t'.tag.request = false := by
  obtain ⟨before,running,authorised,undisturbed,moved,was,disabled,after,commits⟩ := outlives
  have both : Sound s₁ ∧ Unique s₁ := by
    refine before.invariant (I := fun s => Sound s ∧ Unique s) ⟨begins.sound,?_⟩
      (fun holds _ moved => ⟨holds.1.step moved,holds.2.step holds.1 moved⟩)
    have none : ∀ t, t ∉ start.threads := by simp [begins.threads]
    exact ⟨fun t member => absurd member (none t),fun i j t u found => absurd (List.mem_of_getElem? found) (none t),
      fun token session stored => ⟨drawn token session stored,fun t member => absurd member (none t)⟩,
      fun t member => absurd member (none t)⟩
  obtain ⟨sound,unique⟩ := both
  obtain ⟨j,u,by_⟩ := disabledBy sound moved was disabled
  obtain ⟨t₂,running₂,tag₂,_,same₂⟩ := thread_step running moved
  obtain ⟨t₃,running₃,tag₃,same₃⟩ := thread_reached running₂ after
  obtain rfl : t₃ = t' := Option.some.inj (running₃.symm.trans commits.found)
  obtain ⟨next,rest⟩ := commits.commit
  -- an unchecked request was finished when its actor was disabled
  have idle : unchecked t.tag.request = true → False := by
    intro unchecked
    have finished := undisturbed actor.id by_.disables t (List.mem_of_getElem? running) unchecked ⟨token,actor,authorised,rfl⟩
    obtain rfl := same₂ finished
    obtain rfl := same₃ finished
    exact finished _ next rest
  -- a reset would have to find its session again
  have looked : ∀ c target password, t.tag.request = .resetPassword c target password → False := by
    intro c target password request
    have cookie : c.cookie = some token := by
      have read := cookie_read authorised
      rw [request] at read
      exact read
    obtain ⟨c',other⟩ := by_.request
    have apart : j ≠ i := by
      rintro rfl
      obtain rfl : u = t := Option.some.inj (by_.found.symm.trans running)
      rw [request] at other
      cases other
    have unseen : ∀ user now account, ¬Reads t.history (.signed user token now) (some account) := by
      intro user now account read
      have held := locked_held rfl read
      have conflict := sound.exclusive j i u t by_.found running apart _ by_.locked _ held
      cases conflict
    obtain ⟨spent,owner⟩ := unique.read t (List.mem_of_getElem? running) token actor authorised
    have revoked : Revoked s₂ i token t := by
      refine ⟨by_.others i t (Ne.symm apart) running,?_,spent.step moved,unseen⟩
      cases stored : s₂.db.sessions.lookup token with
      | none => rfl
      | some session =>
        obtain ⟨there,other⟩ := by_.sessions token session stored
        exact absurd (owner session there) other
    obtain ⟨_,t₄,tag₄,revoked⟩ : Sound s₃ ∧ ∃ t₄, t₄.tag = t.tag ∧ Revoked s₃ i token t₄ := by
      refine after.invariant (I := fun s => Sound s ∧ ∃ t₄, t₄.tag = t.tag ∧ Revoked s i token t₄)
        ⟨sound.step moved,t,rfl,revoked⟩ ?_
      rintro a b label ⟨sound,t₄,tag₄,revoked⟩ _ moved
      obtain ⟨t₅,tag₅,revoked⟩ := revoked.step sound moved
      exact ⟨sound.step moved,t₅,tag₅.trans tag₄,revoked⟩
    obtain rfl : t₄ = t₃ := Option.some.inj (revoked.found.symm.trans running₃)
    have concluded : Concluded security t₄.tag t₄.history := thread_licence rest
    simp only [Concluded,tag₄,request] at concluded
    obtain ⟨_,actor',token',now,fresh,account,row,tokens,hash,rehashes⟩ := concluded
    obtain rfl : token = token' := Option.some.inj (cookie.symm.trans rehashes.cookie)
    exact revoked.unseen _ _ _ rehashes.signed
  rw [tag₃,tag₂]
  cases request : t.tag.request with
  | createUser | updateUser | createProject => exact (idle (by rw [request]; rfl)).elim
  | resetPassword c target password => exact (looked c target password request).elim
  | _ => rfl

/-! ### In the office -/

/-- Whether an event reads a session of the user. -/
def readsAs (user : UserId) : Event (Answers R) → Bool
  | ⟨.read (.session _),.ok (some actor)⟩ => actor.id = user
  | _ => false

/-- Whether nobody is disabled, or only somebody without an unchecked request. -/
def undisturbed (s : System R security) : Label R → Bool
  | .run i _ => (s.threads[i]?).all (fun t =>
      match t.tag.request with
      | .updateUser _ target false => s.threads.all (fun u => !unchecked u.tag.request || u.history.all (fun e => !readsAs target e))
      | _ => true)
  | _ => true

theorem undisturbed_of_check {l : Label R} (check : undisturbed s l = true) : Undisturbed s l := by
  rintro target ⟨i,fault,t,next,c,rfl,found,_,request⟩ u member asks ⟨token,actor,answered,same⟩
  simp only [undisturbed,found,Option.all_some,request,List.all_eq_true,Bool.or_eq_true,Bool.not_eq_true'] at check
  rcases check u member with passes | unread
  · rw [asks] at passes
    cases passes
  · have read := unread _ answered
    simp [readsAs,same] at read

/-- The second administrator creates a project, in which the first is about to
    add an instance when it is disabled. -/
def interrupting : List (Label Nat) :=
  [.request (.login none "a@office" "first")] ++ goesOn 0 7 ++ [.request (.login none "b@office" "second")] ++ goesOn 1 7 ++
    [.request (.createProject ⟨some 11,some 11⟩ (fun n => n + 1))] ++ goesOn 2 7 ++
    [.request (.onInstance .createInstance ⟨some 10,some 10⟩ 12 (.pure false) (.request (fun n => n + 1) (fun _ => .pure true)))] ++
    goesOn 3 2 ++ [.request (.updateUser ⟨some 11,some 11⟩ 1 false)] ++ goesOn 4 9

/-- The first is enabled again and goes on. -/
def resuming : List (Label Nat) := [.request (.updateUser ⟨some 11,some 11⟩ 1 true)] ++ goesOn 5 7 ++ goesOn 3 5

/-- Executes both parts of a run around the step of a thread that disables. -/
def outlives (check : System Nat plain → Label Nat → Bool) (first last : List (Label Nat)) (disabler i : Nat) (actor : Actor)
    (request : Request Nat → Bool) : Bool :=
  (run step check first office).any (fun s₁ => check s₁ (.run disabler .delivered) && (step (.run disabler .delivered) s₁).any (fun s₂ =>
    isActive s₁.db actor.id && !isActive s₂.db actor.id && (s₁.threads[i]?).any (fun t => t.history.any (readsAs actor.id)) &&
      (run step check last s₂).any (fun s₃ => (step (.run i .delivered) s₃).any (fun s₄ =>
        s₄.db.rest ≠ s₃.db.rest && (s₃.threads[i]?).any (fun t => committing t && request t.tag.request)))))

theorem reads_as {user : UserId} {e : Event (Answers R)} (reads : readsAs user e = true) :
    ∃ token actor, e = ⟨.read (.session token),.ok (some actor)⟩ ∧ actor.id = user := by
  unfold readsAs at reads
  split at reads
  · exact ⟨_,_,rfl,of_decide_eq_true reads⟩
  · cases reads

theorem outlives_of_check {check : System Nat plain → Label Nat → Bool} {allowed : System Nat plain → Label Nat → Prop}
    {first last : List (Label Nat)} {disabler i : Nat} {actor : Actor} {request : Request Nat → Bool}
    (may : ∀ s l, check s l = true → allowed s l) (executed : outlives check first last disabler i actor request = true) :
    ∃ s₁ s₂ s₃ s₄ t t' token actor, Outlives office s₁ s₂ s₃ s₄ allowed (.run disabler .delivered) (.run i .delivered) i t t' token actor ∧
      request t'.tag.request = true := by
  obtain ⟨s₁,ran,executed⟩ := (Option.any_eq_true _ _).mp executed
  obtain ⟨allowed₁,executed⟩ := Bool.and_eq_true_iff.mp executed
  obtain ⟨s₂,moved,executed⟩ := (Option.any_eq_true _ _).mp executed
  simp only [Bool.and_eq_true,Bool.not_eq_true'] at executed
  obtain ⟨⟨⟨was,disabled⟩,reads⟩,executed⟩ := executed
  obtain ⟨t,running,reads⟩ := (Option.any_eq_true _ _).mp reads
  obtain ⟨e,answered,reads⟩ := List.any_eq_true.mp reads
  obtain ⟨token,actor',rfl,same⟩ := reads_as reads
  obtain ⟨s₃,ran',executed⟩ := (Option.any_eq_true _ _).mp executed
  obtain ⟨s₄,moved',executed⟩ := (Option.any_eq_true _ _).mp executed
  simp only [Bool.and_eq_true,decide_eq_true_eq] at executed
  obtain ⟨t',running',holds⟩ := (Option.any_eq_true _ _).mp executed.2
  obtain ⟨commits,asked⟩ := Bool.and_eq_true_iff.mp holds
  rw [← same] at was disabled
  refine ⟨s₁,s₂,s₃,s₄,t,t',token,actor',⟨reaches_run may ran,running,answered,may _ _ allowed₁,moved,was,disabled,reaches_run may ran',
    ⟨.delivered,rfl⟩,running',commits_next commits,moved',fun same => executed.1 (by rw [same])⟩,asked⟩

/-- A request that looks again may commit once its actor is enabled again; it is
    none of the administrators' own. -/
theorem disabled_stays_out_resuming : ∃ s₁ s₂ s₃ s₄ t t' token actor,
    Outlives office s₁ s₂ s₃ s₄ Undisturbed (.run 4 .delivered) (.run 3 .delivered) 3 t t' token actor ∧
      administrative t'.tag.request = false := by
  have executed : outlives undisturbed interrupting resuming 4 3 ⟨1,true,10⟩ (fun _ => true) = true := by decide +kernel
  obtain ⟨s₁,s₂,s₃,s₄,t,t',token,actor,outlives,_⟩ := outlives_of_check (fun _ _ => undisturbed_of_check) executed
  exact ⟨s₁,s₂,s₃,s₄,t,t',token,actor,outlives,
    disabled_stays_out office_start (fun _ _ stored => by cases stored) outlives⟩

/-- A project is created after its creator was disabled. -/
theorem disabled_acts : ∃ s₁ s₂ s₃ s₄ t t' token actor, Start office ∧
    (∀ token session, office.db.sessions.lookup token = some session → token < office.fresh) ∧
    Outlives office s₁ s₂ s₃ s₄ (fun _ _ => True) (.run 3 .delivered) (.run 2 .delivered) 2 t t' token actor ∧
      administrative t'.tag.request = true := by
  have executed : outlives (fun _ _ => true) (founding ++ [.request (.updateUser ⟨some 11,some 11⟩ 1 false)] ++ goesOn 3 9) (goesOn 2 5)
      3 2 ⟨1,true,10⟩ administrative = true := by decide +kernel
  obtain ⟨s₁,s₂,s₃,s₄,t,t',token,actor,outlives,asked⟩ := outlives_of_check (fun _ _ _ => trivial) executed
  exact ⟨s₁,s₂,s₃,s₄,t,t',token,actor,office_start,fun _ _ stored => (by cases stored),outlives,asked⟩

end Expbuild.Disabling
