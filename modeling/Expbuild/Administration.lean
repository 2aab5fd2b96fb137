import Expbuild.Sessions

/-!
Who administers. A route that changes something in a project commits only for an
actor that has its role at that moment (`acceptance_atomic`). Projects and the
platform keep an active administrator as long as projects are created by active
users (`projects_managed`), which is not checked when a project is created
(`unmanaged_project`): creating users and projects and enabling or disabling
users authorise their actor only before their transaction (`disabled_acts`).
-/
namespace Expbuild.Administration
open Expbuild.Contract Expbuild.Schema Expbuild.Tables Expbuild.Programs Expbuild.Runs Expbuild.Locks Expbuild.Accounts
open Expbuild.AccountRoutes Expbuild.Authority Expbuild.Revocation Expbuild.Sessions

variable {R : Type} {security : Security} {s s' : System R security}

/-! ### Routes of a project -/

/-- The routes that change something in a project. -/
def ofProject : Request R → Bool
  | .changeMember _ _ _ _ | .onInstance _ _ _ _ _ | .retryProject _ _ _ | .updateQuota _ _ _
  | .reconcileReservation _ _ _ => true
  | _ => false

/-- Whether the user is active and has one of the roles, or is a platform administrator. -/
def permitted (db : Db R) (user : UserId) (project : ProjectId) (roles : List Role) : Bool :=
  (db.users.lookup user).any (fun a => entitled a (db.members.lookup (project,user)) roles)
def administrator (db : Db R) (user : UserId) : Bool := (db.users.lookup user).any (fun a => a.active && a.platformAdmin)

/-- Whether the user has the role that a route of a project requires. -/
def required (db : Db R) (user : UserId) : Request R → Bool
  | .changeMember _ project _ _ | .retryProject _ project _ => permitted db user project [.admin]
  | .onInstance route _ project _ _ => permitted db user project route.roles
  | .updateQuota _ _ _ | .reconcileReservation _ _ _ => administrator db user
  | _ => true

/-- A thread commits, which changes the tables. -/
structure Commits (s : System R security) (l : Label R) (s' : System R security) (i : Nat) (t : Running R security) : Prop where
  label : ∃ fault, l = .run i fault
  found : s.threads[i]? = some t
  commit : ∃ next, t.rest = .request .commit next
  moved : step l s = some s'
  changed : s'.db ≠ s.db

/-- A role that was read under the lock is still held. -/
theorem permitted_of_read {db : Db R} {history : Past R} {user : UserId} {project : ProjectId} {account : Account}
    {role : Option Role} {roles : List Role} (certain : ∀ e ∈ current discipline history, Certain db e)
    (read : Reads history (.member user project) (some (account,role))) (may : entitled account role roles = true) :
    permitted db user project roles = true := by
  obtain ⟨row,kept⟩ := (certain _ read).member _ _ _ _ rfl
  simp only [permitted,row,Option.any_some]
  cases role with
  | none =>
    simp only [entitled,Option.any_none,Bool.or_false,Bool.and_eq_true] at may ⊢
    exact ⟨may.1,by simp [may.2]⟩
  | some r => rw [kept r rfl]; exact may

/-- Whether a thread is about to commit. -/
def committing (t : Running R security) : Bool :=
  match t.rest with
  | .request .commit _ => true
  | _ => false

theorem commits_next {t : Running R security} (commits : committing t = true) : ∃ next, t.rest = .request .commit next := by
  unfold committing at commits
  split at commits
  · exact ⟨_,‹_›⟩
  · cases commits

/-- Whenever a route of a project commits a change, the user that it was
    authorised as has the role that the route requires. -/
theorem acceptance_atomic {start : System R security} {l : Label R} {i : Nat} {t : Running R security} (begins : Start start)
    (reached : Reaches step (fun _ _ => True) start s) (commits : Commits s l s' i t) (inProject : ofProject t.tag.request = true) :
    ∃ actor, Only t.history actor ∧ required s.db actor.id t.tag.request = true := by
  have sound := sound_reached begins reached
  obtain ⟨next,rest⟩ := commits.commit
  have concluded : Concluded security t.tag t.history := thread_licence rest
  have certain := sound.certain t (List.mem_of_getElem? commits.found)
  unfold Concluded at concluded
  cases request : t.tag.request with
  | changeMember c project target role =>
    rw [request] at concluded
    obtain ⟨locked,actor,account,kept,member,row,admins,event,changes⟩ := concluded
    exact ⟨actor,changes.only,permitted_of_read (certain locked) changes.read changes.entitled⟩
  | onInstance route c project first last =>
    rw [request] at concluded
    obtain ⟨locked,actor,account,role,works⟩ := concluded
    exact ⟨actor,works.only,permitted_of_read (certain locked) works.read works.entitled⟩
  | retryProject c project work =>
    rw [request] at concluded
    obtain ⟨locked,actor,account,role,works⟩ := concluded
    exact ⟨actor,works.only,permitted_of_read (certain locked) works.read works.entitled⟩
  | updateQuota c project work =>
    rw [request] at concluded
    obtain ⟨locked,actor,account,administers⟩ := concluded
    have row := (certain locked _ administers.read).account _ _ _ rfl
    exact ⟨actor,administers.only,by simp [required,administrator,row,administers.active,administers.admin]⟩
  | reconcileReservation c project work =>
    rw [request] at concluded
    obtain ⟨locked,actor,account,administers⟩ := concluded
    have row := (certain locked _ administers.read).account _ _ _ rfl
    exact ⟨actor,administers.only,by simp [required,administrator,row,administers.active,administers.admin]⟩
  | _ => rw [request] at inProject; cases inProject

/-- The first administrator adds an instance to a project of the office. -/
def adding : List (Label Nat) :=
  [.request (.login none "a@office" "first")] ++ goesOn 0 7 ++ [.request (.createProject ⟨some 10,some 10⟩ (fun n => n + 1))] ++
    goesOn 1 7 ++ [.request (.onInstance .createInstance ⟨some 10,some 10⟩ 11 (.pure false)
      (.request (fun n => n + 1) (fun _ => .pure true)))] ++ goesOn 2 7

theorem acceptance_atomic_adding : ∃ (s s' : System Nat plain) (t : Running Nat plain),
    Reaches step (fun _ _ => True) office s ∧ Commits s (.run 2 .delivered) s' 2 t ∧ ofProject t.tag.request = true ∧
      ∃ actor, Only t.history actor ∧ required s.db actor.id t.tag.request = true := by
  have executed : (run step (fun _ _ => true) adding office).any (fun s => (step (.run 2 .delivered) s).any (fun s' =>
      (s.threads[2]?).any (fun t => committing t && ofProject t.tag.request && s'.db.rest ≠ s.db.rest))) = true := by
    decide +kernel
  obtain ⟨s,ran,executed⟩ := (Option.any_eq_true _ _).mp executed
  obtain ⟨s',moved,executed⟩ := (Option.any_eq_true _ _).mp executed
  obtain ⟨t,found,holds⟩ := (Option.any_eq_true _ _).mp executed
  simp only [Bool.and_eq_true,decide_eq_true_eq] at holds
  have reached : Reaches step (fun _ _ => True) office s := reaches_run (fun _ _ _ => trivial) ran
  have commits : Commits s (.run 2 .delivered) s' 2 t :=
    ⟨⟨.delivered,rfl⟩,found,commits_next holds.1.1,moved,fun same => holds.2 (by rw [same])⟩
  exact ⟨s,s',t,reached,commits,holds.1.2,acceptance_atomic office_start reached commits holds.1.2⟩

/-! ### Administrators that stay -/

/-- Every project has an active administrator, and so has the platform. -/
structure Managed (db : Db R) : Prop where
  projects : ∀ p, (db.projects.lookup p).isSome = true →
    ∃ u, db.members.lookup (p,u) = some .admin ∧ isActive db u = true
  platform : ∃ u, administrator db u = true

/-- Who administers depends on three tables only. -/
theorem Managed.alike {db db' : Db R} (managed : Managed db) (users : db'.users = db.users) (projects : db'.projects = db.projects)
    (members : db'.members = db.members) : Managed db' where
  projects p there := by
    rw [projects] at there
    simp only [isActive,users,members]
    exact managed.projects p there
  platform := by
    simp only [administrator,users]
    exact managed.platform

theorem isActive_edit {db : Db R} {target u : UserId} {edit : Account → Account} :
    isActive (editUser target edit db) u = if u = target then (db.users.lookup u).any (fun a => (edit a).active) else isActive db u := by
  simp only [isActive,editUser,lookup_modify]
  split
  · simp [Option.any_map]
  · rfl

theorem administrator_edit {db : Db R} {target u : UserId} {edit : Account → Account} :
    administrator (editUser target edit db) u =
      if u = target then (db.users.lookup u).any (fun a => (edit a).active && (edit a).platformAdmin) else administrator db u := by
  simp only [administrator,editUser,lookup_modify]
  split
  · simp [Option.any_map]
  · rfl

/-- Editing an account that stays as active and as much of an administrator as
    it was. -/
theorem Managed.edit {db : Db R} {target : UserId} {edit : Account → Account} (managed : Managed db)
    (active : ∀ a : Account, a.active = true → (edit a).active = true)
    (admin : ∀ a : Account, a.platformAdmin = true → (edit a).platformAdmin = true) : Managed (editUser target edit db) where
  projects p there := by
    obtain ⟨u,found,holds⟩ := managed.projects p there
    refine ⟨u,found,?_⟩
    rw [isActive_edit]
    split
    · obtain ⟨a,row,holds⟩ := isActive_iff.mp holds
      simp [row,active a holds]
    · exact holds
  platform := by
    obtain ⟨u,holds⟩ := managed.platform
    refine ⟨u,?_⟩
    rw [administrator_edit]
    split
    · obtain ⟨a,row,holds⟩ := (Option.any_eq_true _ _).mp holds
      simp only [Bool.and_eq_true] at holds
      simp [row,active a holds.1,admin a holds.2]
    · exact holds

/-- Where the tables only grow, projects that were there stay managed. -/
theorem Managed.grows {db db' : Db R} {creator : Option UserId} (managed : Managed db) (grows : Grows creator db db')
    (fresh : ∀ p, db.projects.lookup p = none → (db'.projects.lookup p).isSome = true →
      ∃ u, db'.members.lookup (p,u) = some .admin ∧ isActive db' u = true) : Managed db' where
  projects p there := by
    cases known : db.projects.lookup p with
    | none => exact fresh p known there
    | some _ =>
      obtain ⟨u,found,active⟩ := managed.projects p (by simp [known])
      obtain ⟨a,row,holds⟩ := isActive_iff.mp active
      exact ⟨u,grows.members _ _ _ found,isActive_iff.mpr ⟨a,grows.users _ _ row,holds⟩⟩
  platform := by
    obtain ⟨u,holds⟩ := managed.platform
    obtain ⟨a,row,holds⟩ := (Option.any_eq_true _ _).mp holds
    exact ⟨u,by simp only [administrator,grows.users _ _ row,Option.any_some]; exact holds⟩

/-- A list without repetition that is more than one element has another. -/
theorem exists_other {α : Type} {xs : List α} {a : α} (distinct : xs.Nodup) (member : a ∈ xs) (more : xs ≠ [a]) :
    ∃ b ∈ xs, b ≠ a := by
  by_contra none
  push Not at none
  cases xs with
  | nil => cases member
  | cons x rest =>
    obtain rfl := none x List.mem_cons_self
    cases rest with
    | nil => exact more rfl
    | cons y rest =>
      obtain rfl := none y (by simp)
      simp at distinct

theorem Managed.disable {db : Db R} {target : UserId} {account : Account} {admins : List UserId} (managed : Managed db)
    (current : db.users.lookup target = some account)
    (others : ∀ project, db.members.lookup (project,target) = some .admin → managedWithout db project target = true)
    (admins_active : ∀ v ∈ admins, v ≠ target ∧ ∃ a, db.users.lookup v = some a ∧ a.platformAdmin = true ∧ a.active = true)
    (retained : account.platformAdmin = true → admins ≠ []) :
    Managed (editUser target (fun a => { a with active := false }) db) where
  projects p there := by
    have kept : ∀ v, v ≠ target → isActive db v = true →
        isActive (editUser target (fun a => { a with active := false }) db) v = true := by
      intro v other active
      rw [isActive_edit,if_neg other]
      exact active
    obtain ⟨u,found,active⟩ := managed.projects p there
    by_cases same : u = target
    · subst same
      obtain ⟨v,other,admin,active⟩ := managedWithout_iff.mp (others p found)
      exact ⟨v,admin,kept v other active⟩
    · exact ⟨u,found,kept u same active⟩
  platform := by
    have kept : ∀ v, v ≠ target → administrator db v = true →
        administrator (editUser target (fun a => { a with active := false }) db) v = true := by
      intro v other holds
      rw [administrator_edit,if_neg other]
      exact holds
    obtain ⟨u,holds⟩ := managed.platform
    by_cases same : u = target
    · subst same
      simp only [administrator,current,Option.any_some,Bool.and_eq_true] at holds
      obtain ⟨v,member⟩ := List.exists_mem_of_ne_nil _ (retained holds.2)
      obtain ⟨other,a,row,admin,active⟩ := admins_active v member
      exact ⟨v,kept v other (by simp [administrator,row,admin,active])⟩
    · exact ⟨u,kept u same holds⟩

theorem Managed.member {db : Db R} {project : ProjectId} {member : UserId} {role : Option Role} {admins : List UserId}
    (managed : Managed db) (distinct : admins.Nodup)
    (listed : ∀ v, v ∈ admins ↔ db.members.lookup (project,v) = some .admin ∧ isActive db v = true)
    (retained : role = some .admin ∨ admins ≠ [member]) : Managed (enterMember project member role db) where
  projects p there := by
    have alike : ∀ u, isActive (enterMember project member role db) u = isActive db u := by
      intro u
      simp [isActive]
    have kept : ∀ u, (p,u) ≠ (project,member) → db.members.lookup (p,u) = some .admin → isActive db u = true →
        ∃ u, (enterMember project member role db).members.lookup (p,u) = some .admin ∧
          isActive (enterMember project member role db) u = true := by
      intro u other found holds
      exact ⟨u,by rw [lookup_enterMember,if_neg other]; exact found,by rw [alike]; exact holds⟩
    rw [enterMember_projects] at there
    obtain ⟨u,found,holds⟩ := managed.projects p there
    by_cases same : (p,u) = (project,member)
    · cases same
      rcases retained with rfl | more
      · refine ⟨member,by rw [lookup_enterMember,if_pos rfl],?_⟩
        rw [alike]
        exact holds
      · obtain ⟨v,listed',other⟩ := exists_other distinct ((listed member).mpr ⟨found,holds⟩) more
        obtain ⟨admin,active⟩ := (listed v).mp listed'
        exact kept v (by simpa using other) admin active
    · exact kept u same found holds
  platform := by
    obtain ⟨u,holds⟩ := managed.platform
    exact ⟨u,by simpa [administrator] using holds⟩

/-- A project is created only while the user that creates it is active. -/
def Attended (s : System R security) (l : Label R) : Prop :=
  ∀ i fault t next c operation actor, l = .run i fault → s.threads[i]? = some t → t.rest = .request .commit next →
    t.tag.request = .createProject c operation → Only t.history actor → isActive s.db actor.id = true

theorem Managed.step {l : Label R} (managed : Managed s.db) (sound : Sound s) (attended : Attended s l)
    (moved : step l s = some s') : Managed s'.db := by
  cases step_cases moved with
  | spawned r => exact managed
  | @made i fault t t' r x db next found rest free performed tag history =>
    have effect := sound.effect (List.mem_of_getElem? found) rest performed
    change Managed db
    cases effect with
    | nothing => exact managed
    | loggedOut | worked | signedIn => exact managed.alike rfl rfl rfl
    | registered fresh =>
      refine managed.grows (grows_registered fresh) (fun p missing there => ?_)
      rw [show s.db.projects.lookup p = none from missing] at there
      cases there
    | @founded c operation actor row commits request only shares fresh apart known =>
      obtain ⟨next',rest'⟩ := commits
      have active := attended i fault t next' c operation actor rfl found rest' request only
      refine managed.grows (grows_founded fresh apart) (fun p missing there => ?_)
      have new : p = t.tag.drawn := by
        by_contra other
        change ((s.db.projects.insert t.tag.drawn actor.id).lookup p).isSome = true at there
        rw [AList.lookup_insert_ne other,missing] at there
        cases there
      subst new
      exact ⟨actor.id,AList.lookup_insert _,active⟩
    | @rehashed c target actor token now fresh account row tokens hash =>
      have kept : Managed (editUser target (fun a => { a with passwordHash := hash }) s.db) :=
        managed.edit (fun _ holds => holds) (fun _ holds => holds)
      exact kept.alike rfl rfl rfl
    | @enabled c target =>
      have kept : Managed (editUser target (fun a => { a with active := true }) s.db) :=
        managed.edit (fun _ _ => rfl) (fun _ holds => holds)
      exact kept.alike rfl rfl rfl
    | disabled commits locked request disables current others admins covers =>
      exact (managed.disable current others admins disables.retained).alike rfl rfl rfl
    | changed locked request changes current distinct listed =>
      exact (managed.member distinct listed changes.retained).alike rfl rfl rfl
  | waited seconds => exact managed.alike rfl rfl rfl
  | elsewhere change => exact managed.alike rfl rfl rfl

/-- Where projects are created only by users that are active when this commits,
    every project and the platform keep an active administrator. -/
theorem projects_managed (start : Start s) (managed : Managed s.db) (reached : Reaches step Attended s s') : Managed s'.db := by
  have both : Sound s' ∧ Managed s'.db := by
    refine reached.invariant (I := fun s => Sound s ∧ Managed s.db) ⟨start.sound,managed⟩ (fun holds may moved => ?_)
    exact ⟨holds.1.step moved,holds.2.step holds.1 may moved⟩
  exact both.2

theorem managed_office : Managed office.db where
  projects p there := by cases there
  platform := ⟨1,by decide⟩

/-- The first administrator signs in and is authorised to create a project. -/
def founding : List (Label Nat) :=
  [.request (.login none "a@office" "first")] ++ goesOn 0 7 ++ [.request (.login none "b@office" "second")] ++ goesOn 1 7 ++
    [.request (.createProject ⟨some 10,some 10⟩ (fun n => n + 1))] ++ goesOn 2 1

/-- Whether a session was read of a user that is active now. -/
def readsActive (db : Db R) : Event (Answers R) → Bool
  | ⟨.read (.session _),.ok (some actor)⟩ => isActive db actor.id
  | _ => true

/-- Whether the step is no commit of a project, or its creator is active. -/
def attends (s : System R security) : Label R → Bool
  | .run i _ => (s.threads[i]?).all (fun t => t.history.all (readsActive s.db))
  | _ => true

theorem attended_of_attends {l : Label R} (attends : attends s l = true) : Attended s l := by
  intro i fault t next c operation actor label found _ _ only
  subst label
  simp only [Administration.attends,found,Option.all_some,List.all_eq_true] at attends
  obtain ⟨token,answered⟩ := only.authorised
  exact attends _ answered

theorem projects_managed_founding : ∃ s : System Nat plain, Reaches step Attended office s ∧
    (s.db.projects.lookup 12).isSome = true ∧ Managed s.db := by
  obtain ⟨s,reached,holds⟩ := reaches_of_run (fun _ _ => attended_of_attends)
    (show (run step attends (founding ++ goesOn 2 6) office).any (fun s => (s.db.projects.lookup 12).isSome) = true by
      decide +kernel)
  exact ⟨s,reached,holds,projects_managed office_start managed_office reached⟩

/-- The second disables the first, with the third thread. -/
def disabling : List (Label Nat) := [.request (.updateUser ⟨some 11,some 11⟩ 1 false)] ++ goesOn 3 10

/-- The project is created after its creator was disabled. -/
theorem unmanaged_project : Start office ∧ Managed office.db ∧
    ∃ s, Reaches step (fun _ _ => True) office s ∧ ¬Managed s.db := by
  refine ⟨office_start,managed_office,?_⟩
  obtain ⟨s,reached,holds⟩ := reaches_of_run (fun _ _ _ => trivial)
    (show (run step (fun _ _ => true) (founding ++ disabling ++ goesOn 2 6) office).any (fun s =>
      (s.db.projects.lookup 12).isSome && s.db.members.entries.all (fun row => !administers s.db row.1.2 row.2)) = true by
        decide +kernel)
  simp only [Bool.and_eq_true,List.all_eq_true] at holds
  refine ⟨s,reached,fun managed => ?_⟩
  obtain ⟨u,admin,active⟩ := managed.projects 12 holds.1
  have nobody := holds.2 _ (lookup_iff_entry.mp admin)
  simp [administers,active] at nobody

end Expbuild.Administration
