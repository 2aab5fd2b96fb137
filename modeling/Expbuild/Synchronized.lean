import Expbuild.QuotaSync

/-!
What the locked row gives the quota of a namespace: each write of the platform
brings an object of its own to the current limits (`Written`), the revision of an
object grows, and an observation that stands in the row is one of the limits that
stand there too (`Shows`).
-/
namespace Expbuild.Synchronized
open Expbuild.Contract Expbuild.Schema Expbuild.Tables Expbuild.Quotas Expbuild.Calls Expbuild.Transactions Expbuild.Effects
open Expbuild.Rows Expbuild.Kubernetes Expbuild.Runs Expbuild.QuotaSync
open Expbuild.Inventory (NamespaceMeta)
open Expbuild.Quantities (rational)

/-! ### The limits -/

section
variable {Scalar : Type} [DecidableEq Scalar] {lib : Library Scalar} {limits : Quota}

theorem hardOf_nil : hardOf limits = [] ↔ limits = {} := by
  obtain ⟨_ | _,_ | _,_ | _,_ | _⟩ := limits <;> simp [hardOf]

theorem hardOf_distinct : ((hardOf limits).map (·.1)).Nodup := by
  obtain ⟨_ | _,_ | _,_ | _,_ | _⟩ := limits <;> simp [hardOf]

/-- The keys of the limits and no other, each with its amount. -/
def Exactly (lib : Library Scalar) (limits : Quota) (actual : Option (Table String String)) : Prop :=
  ∃ t, actual = some t ∧ (∀ key, key ∈ t ↔ key ∈ (hardOf limits).map (·.1)) ∧
    ∀ e ∈ hardOf limits, ∃ got q, t.lookup e.1 = some got ∧ lib.amount got = some q ∧ lib.amount e.2 = some q

theorem equal_exactly {actual : Option (Table String String)} (same : equal lib limits actual = true) :
    Exactly lib limits actual := by
  unfold equal at same
  cases actual with
  | none => cases same
  | some t =>
    simp only [Bool.and_eq_true,decide_eq_true_eq,List.all_eq_true] at same
    obtain ⟨count,each⟩ := same
    have amounts : ∀ e ∈ hardOf limits, ∃ got q, t.lookup e.1 = some got ∧ lib.amount got = some q ∧ lib.amount e.2 = some q := by
      intro e member
      have agrees := each e member
      split at agrees
      · rename_i a b left right
        obtain ⟨got,found,scalar⟩ := Option.bind_eq_some_iff.mp left
        obtain rfl : a = b := of_decide_eq_true agrees
        obtain ⟨q,amount,amount'⟩ := lib.exact scalar right
        exact ⟨got,q,found,amount,amount'⟩
      · cases agrees
    refine ⟨t,rfl,fun key => ?_,amounts⟩
    have inside : (hardOf limits).map (·.1) ⊆ t.keys := by
      intro key member
      obtain ⟨e,listed,rfl⟩ := List.mem_map.mp member
      obtain ⟨got,_,found,_⟩ := amounts e listed
      exact AList.mem_keys.mpr (AList.lookup_isSome.mp (by rw [found]; rfl))
    have perm := (List.subperm_of_subset hardOf_distinct inside).perm_of_length_le (by rw [count,List.length_map])
    exact AList.mem_keys.symm.trans perm.mem_iff.symm

end

/-! ### What the calls do -/

/-- An object that the platform may change to a revision. -/
structure Mine (id : ProjectId) (revision : Nat) (o : ResourceQuota) : Prop where
  unowned : o.owned = false
  labels : ownedBy id o.labels = true
  free : o.restricted = false
  alive : o.deleting = false
  older : o.revision = none ∨ ∃ n, n ≤ revision ∧ o.revision = some (.number n)

/-- A write for a project: it creates the object with the limits of the row, replaces
    them in an object of its own, or deletes that where there are no limits. -/
inductive Written (id : ProjectId) (revision : Nat) (limits : Quota) : Option ResourceQuota → Option ResourceQuota → Prop where
  | created {o : ResourceQuota} : o.revision = some (.number revision) → o.hard = some (record (hardOf limits)) →
      Written id revision limits none (some o)
  | replaced {o : ResourceQuota} (version : Nat) : Mine id revision o → Written id revision limits (some o) (some { o with
      resourceVersion := version, revision := some (.number revision), hard := some (record (hardOf limits)) })
  | marked {o : ResourceQuota} (version : Nat) : Mine id revision o → limits = {} →
      Written id revision limits (some o) (some { o with resourceVersion := version, deleting := true })
  | deleted {o : ResourceQuota} : Mine id revision o → limits = {} → Written id revision limits (some o) none

section
variable {Scalar : Type} {lib : Library Scalar}

/-- The observation that a project waits for: the limits of the row in the object and
    in its status, or no object where there are none. -/
def Shows (lib : Library Scalar) (p : Project) (seen : Seen) : Prop :=
  (p.quotaLimits = {} ∧ seen = some none) ∨ ∃ o, seen = some (some o) ∧ o.revision = some (.number p.quotaRevision) ∧
    Exactly lib p.quotaLimits o.hard ∧ Exactly lib p.quotaLimits o.statusHard

/-- The row without its state. -/
def columns (p : Project) : Project := { p with state := .pending }

theorem shows_columns {p p' : Project} {seen : Seen} (same : columns p' = columns p) (shows_ : Shows lib p seen) :
    Shows lib p' seen := by
  have limits : p'.quotaLimits = p.quotaLimits := congrArg (fun q => q.quotaLimits) same
  have revision : p'.quotaRevision = p.quotaRevision := congrArg (fun q => q.quotaRevision) same
  unfold Shows
  rw [limits,revision]
  exact shows_

theorem newer_older {revision : Nat} {a : Option Annotation} (old : newer revision a = false) :
    a = none ∨ ∃ n, n ≤ revision ∧ a = some (.number n) := by
  cases a with
  | none => exact .inl rfl
  | some a =>
    cases a with
    | number n => exact .inr ⟨n,by simpa [newer] using old,rfl⟩
    | other text => cases old

/-- What the comparison decides. -/
inductive Compared (lib : Library Scalar) (id : ProjectId) (p : Project) (current : Option ResourceQuota) : Stage → Prop where
  | create : current = none → Compared lib id p current .create
  | replace {o : ResourceQuota} : current = some o → Mine id p.quotaRevision o → Compared lib id p current (.replace o)
  | delete {o : ResourceQuota} : current = some o → Mine id p.quotaRevision o → p.quotaLimits = {} →
      Compared lib id p current (.delete o)
  | failed (text : String) : Compared lib id p current (.ended (.error text))
  | waits : Compared lib id p current (.ended (.ok false))
  | ready : Shows lib p (some current) → Compared lib id p current (.ended (.ok true))

theorem compareQuota_compared [DecidableEq Scalar] (id : ProjectId) (p : Project) (current : Option ResourceQuota) :
    Compared lib id p current (compareQuota lib id p current) := by
  unfold compareQuota
  cases current with
  | none =>
    simp only
    split
    · rename_i empty
      exact .ready (.inl ⟨hardOf_nil.mp empty,rfl⟩)
    · exact .create rfl
  | some o =>
    simp only
    split
    · exact .failed _
    · rename_i own
      split
      · exact .failed _
      · rename_i free
        split
        · exact .waits
        · rename_i alive
          split
          · exact .failed _
          · rename_i old
            simp only [Bool.or_eq_true,Bool.not_eq_true',not_or,Bool.not_eq_true,Bool.not_eq_false] at own free alive old
            have mine : Mine id p.quotaRevision o := ⟨own.1,own.2,free,alive,newer_older old⟩
            split
            · rename_i empty
              exact .delete rfl mine (hardOf_nil.mp empty)
            · split
              · exact .replace rfl mine
              · rename_i same
                simp only [Bool.or_eq_true,Bool.not_eq_true',decide_eq_true_eq,not_or,not_not,Bool.not_eq_false] at same
                obtain ⟨spec,revision⟩ := same
                cases status : equal lib p.quotaLimits o.statusHard with
                | false => exact .waits
                | true =>
                  rw [Bool.true_and]
                  cases (hardOf p.quotaLimits).all _ with
                  | false => exact .waits
                  | true => exact .ready (.inr ⟨o,rfl,revision,equal_exactly spec,equal_exactly status⟩)

/-! ### The invariant -/

/-- No other object of the namespace has this version. -/
def Pinned (s : System) (ns : Namespace) (o : ResourceQuota) : Prop :=
  o.resourceVersion < s.version ∧ ∀ found, s.quotas.lookup ns = some found → found.resourceVersion = o.resourceVersion → found = o

/-- What an open transaction knows. -/
structure Sound (lib : Library Scalar) (s : System) (id : ProjectId) (session : Session) : Prop where
  row : ∃ p, s.db.projects.lookup id = some p ∧ columns p = columns session.project
  replaces : ∀ o, session.stage = .replace o → Mine id session.project.quotaRevision o ∧ Pinned s session.project.ns o
  deletes : ∀ o, session.stage = .delete o → Mine id session.project.quotaRevision o ∧ Pinned s session.project.ns o ∧
    session.project.quotaLimits = {}
  ready : session.stage = .ended (.ok true) → Shows lib session.project session.seen

structure Synced (lib : Library Scalar) (s : System) : Prop where
  fresh : ∀ ns o, s.quotas.lookup ns = some o → o.resourceVersion < s.version ∧ o.uid < s.version
  sessions : ∀ id session, s.sessions.lookup id = some session → Sound lib s id session
  applied : ∀ id p r, s.db.projects.lookup id = some p → p.quotaObservedRevision = some r → r = p.quotaRevision ∧
    ∃ seen, s.committed.lookup id = some seen ∧ Shows lib p seen

/-- No project has been looked at, and the objects of the cluster are older than what is to come. -/
structure Start (s : System) : Prop where
  idle : s.sessions = ∅
  unseen : ∀ id p, s.db.projects.lookup id = some p → p.quotaObservedRevision = none
  older : ∀ ns o, s.quotas.lookup ns = some o → o.resourceVersion < s.version ∧ o.uid < s.version

theorem Start.synced (start : Start s) : Synced lib s where
  fresh := start.older
  sessions := by
    intro id session found
    rw [start.idle] at found
    cases found
  applied := by
    intro id p r row observed
    rw [start.unseen id p row] at observed
    cases observed

/-- Objects stay as they are or get a new version. -/
structure Advances (s s' : System) : Prop where
  version : s.version ≤ s'.version
  objects : ∀ ns o, s'.quotas.lookup ns = some o → s.quotas.lookup ns = some o ∨
    o.resourceVersion = s.version ∧ s.version < s'.version ∧ o.uid < s'.version

variable {s s' : System} {id : ProjectId} {session : Session}

theorem Pinned.advance {ns : Namespace} {o : ResourceQuota} (pinned : Pinned s ns o) (advances : Advances s s') :
    Pinned s' ns o := by
  obtain ⟨before,only⟩ := pinned
  refine ⟨Nat.lt_of_lt_of_le before advances.version,fun found there same => ?_⟩
  rcases advances.objects ns found there with old | ⟨new,_⟩
  · exact only found old same
  · omega

theorem Sound.advance (sound : Sound lib s id session) (advances : Advances s s')
    (row : ∃ p, s'.db.projects.lookup id = some p ∧ columns p = columns session.project) : Sound lib s' id session where
  row := row
  replaces := by
    intro o stage
    obtain ⟨mine,pinned⟩ := sound.replaces o stage
    exact ⟨mine,pinned.advance advances⟩
  deletes := by
    intro o stage
    obtain ⟨mine,pinned,empty⟩ := sound.deletes o stage
    exact ⟨mine,pinned.advance advances,empty⟩
  ready := sound.ready

theorem advances_fresh (advances : Advances s s')
    (fresh : ∀ ns o, s.quotas.lookup ns = some o → o.resourceVersion < s.version ∧ o.uid < s.version) :
    ∀ ns o, s'.quotas.lookup ns = some o → o.resourceVersion < s'.version ∧ o.uid < s'.version := by
  intro ns o found
  have grows := advances.version
  rcases advances.objects ns o found with old | ⟨version,later,uid⟩
  · obtain ⟨version,uid⟩ := fresh ns o old
    exact ⟨by omega,by omega⟩
  · exact ⟨by omega,uid⟩

theorem advances_same (quotas : s'.quotas = s.quotas) (version : s'.version = s.version) : Advances s s' :=
  ⟨le_of_eq version.symm,fun ns o found => .inl (by rw [← quotas]; exact found)⟩

/-! ### One call -/

/-- The name of a namespace bound to an object, or free. -/
def put (ns : Namespace) (after : Option ResourceQuota) (quotas : Table Namespace ResourceQuota) :
    Table Namespace ResourceQuota :=
  match after with
  | none => quotas.erase ns
  | some o => quotas.insert ns o

theorem lookup_put (ns k : Namespace) (after : Option ResourceQuota) (quotas : Table Namespace ResourceQuota) :
    (put ns after quotas).lookup k = if k = ns then after else quotas.lookup k := by
  cases after with
  | none => exact lookup_erase ns k quotas
  | some o => exact lookup_insert ns k o quotas

/-- The effect of a call: none, or one write for the project of the row. -/
structure Performed (id : ProjectId) (p : Project) (s s' : System) : Prop where
  db : s'.db = s.db
  sessions : s'.sessions = s.sessions
  committed : s'.committed = s.committed
  last : s'.last = s.last
  effect : (s'.quotas = s.quotas ∧ s'.version = s.version) ∨ ∃ after, Written id p.quotaRevision p.quotaLimits (s.quotas.lookup p.ns) after ∧
    s'.quotas = put p.ns after s.quotas ∧ s.version ≤ s'.version ∧
    ∀ o, after = some o → s'.version = s.version + 1 ∧ o.resourceVersion = s.version ∧
      (o.uid = s.version ∧ s.quotas.lookup p.ns = none ∨ ∃ old, s.quotas.lookup p.ns = some old ∧ o.uid = old.uid)

theorem pinned_unchanged {ns : Namespace} {current found : ResourceQuota} (pinned : Pinned s ns current)
    (there : s.quotas.lookup ns = some found) (same : unchanged current found = true) : found = current := by
  simp only [unchanged,Bool.and_eq_true,decide_eq_true_eq] at same
  exact pinned.2 found there same.2

theorem perform_performed [DecidableEq Scalar] (sound : Sound lib s id session) : Performed id session.project s (perform lib id session s).1 := by
  have idle : Performed id session.project s s := ⟨rfl,rfl,rfl,rfl,.inl ⟨rfl,rfl⟩⟩
  unfold perform
  cases stage : session.stage with
  | readNamespace =>
    simp only
    split <;> exact idle
  | readQuota =>
    simp only
    split <;> exact idle
  | create =>
    simp only
    split
    · exact idle
    · exact idle
    · rename_i none_
      refine ⟨rfl,rfl,rfl,rfl,.inr ⟨some _,?_,rfl,Nat.le_succ _,fun o same => ?_⟩⟩
      · rw [none_]
        exact .created rfl rfl
      · cases same
        exact ⟨rfl,rfl,.inl ⟨rfl,none_⟩⟩
  | replace current =>
    obtain ⟨mine,pinned⟩ := sound.replaces current stage
    simp only
    split
    · exact idle
    · rename_i found there
      split
      · rename_i same
        obtain rfl := pinned_unchanged pinned there same
        refine ⟨rfl,rfl,rfl,rfl,.inr ⟨some _,?_,rfl,Nat.le_succ _,fun o same => ?_⟩⟩
        · rw [there]
          exact .replaced s.version mine
        · cases same
          exact ⟨rfl,rfl,.inr ⟨found,there,rfl⟩⟩
      · exact idle
  | delete current =>
    obtain ⟨mine,pinned,empty⟩ := sound.deletes current stage
    simp only
    split
    · exact idle
    · rename_i found there
      split
      · rename_i same
        obtain rfl := pinned_unchanged pinned there same
        split
        · refine ⟨rfl,rfl,rfl,rfl,.inr ⟨some _,?_,rfl,Nat.le_succ _,fun o same => ?_⟩⟩
          · rw [there]
            exact .marked s.version mine empty
          · cases same
            exact ⟨rfl,rfl,.inr ⟨found,there,rfl⟩⟩
        · refine ⟨rfl,rfl,rfl,rfl,.inr ⟨none,?_,rfl,Nat.le_refl _,fun o same => ?_⟩⟩
          · rw [there]
            exact .deleted mine empty
          · cases same
      · exact idle
  | ended result => exact idle

theorem Performed.advances {p : Project} (performed : Performed id p s s')
    (fresh : ∀ ns o, s.quotas.lookup ns = some o → o.resourceVersion < s.version ∧ o.uid < s.version) : Advances s s' := by
  rcases performed.effect with ⟨quotas,version⟩ | ⟨after,_,quotas,version,new⟩
  · exact advances_same quotas version
  · refine ⟨version,fun ns o found => ?_⟩
    rw [quotas,lookup_put] at found
    split at found
    · obtain ⟨next,own,uid⟩ := new o found
      refine .inr ⟨own,by omega,?_⟩
      rcases uid with ⟨own,_⟩ | ⟨old,there,same⟩
      · omega
      · have := (fresh _ old there).2
        omega
    · exact .inl found

/-! ### What a session goes on with -/

/-- A stage without a write or a result. -/
theorem Sound.restage {stage : Stage} (sound : Sound lib s id session) (replaces : ∀ o, stage ≠ .replace o)
    (deletes : ∀ o, stage ≠ .delete o) (ready : stage ≠ .ended (.ok true)) : Sound lib s id { session with stage } :=
  ⟨sound.row,fun o same => absurd same (replaces o),fun o same => absurd same (deletes o),fun same => absurd same ready⟩

theorem Sound.read [DecidableEq Scalar] {current : Option ResourceQuota} (sound : Sound lib s id session)
    (pinned : ∀ o, current = some o → Pinned s session.project.ns o) : Sound lib s id (session.read lib id current) := by
  have compared : Compared lib id session.project current _ := compareQuota_compared id session.project current
  refine ⟨sound.row,fun o same => ?_,fun o same => ?_,fun same => ?_⟩
  all_goals
    change compareQuota lib id session.project current = _ at same
    rw [same] at compared
  · cases compared with
    | replace here mine => exact ⟨mine,pinned o here⟩
  · cases compared with
    | delete here mine empty => exact ⟨mine,pinned o here,empty⟩
  · cases compared with
    | ready shows_ => exact shows_

theorem Sound.throws [DecidableEq Scalar] (code : Option Nat) (sound : Sound lib s id session) : Sound lib s id (session.throws lib id code) := by
  unfold Session.throws
  split
  · exact sound.read (by simp)
  · exact sound.restage (by simp) (by simp) (by simp)

theorem perform_sound [DecidableEq Scalar] (sound : Sound lib s id session)
    (fresh : ∀ ns o, s.quotas.lookup ns = some o → o.resourceVersion < s.version ∧ o.uid < s.version) :
    Sound lib s id (perform lib id session s).2 := by
  have waits : Sound lib s id { session with stage := .ended (.ok false) } := sound.restage (by simp) (by simp) (by simp)
  unfold perform
  cases stage : session.stage with
  | readNamespace =>
    simp only
    split
    · exact sound.throws _
    · rename_i found _
      refine sound.restage ?_ ?_ ?_ <;> (unfold checkNamespace; split <;> simp)
  | readQuota =>
    simp only
    split
    · exact sound.throws _
    · rename_i current there
      refine sound.read (fun o same => ?_)
      cases same
      refine ⟨(fresh _ current there).1,fun found there' _ => ?_⟩
      rw [there] at there'
      exact (Option.some.inj there').symm
  | create =>
    simp only
    split
    · exact sound.throws _
    · exact sound.throws _
    · exact waits
  | replace current =>
    simp only
    split
    · exact sound.throws _
    · split
      · exact waits
      · exact sound.throws _
  | delete current =>
    simp only
    split
    · exact sound.throws _
    · split
      · split <;> exact waits
      · exact sound.throws _
  | ended result => exact sound

/-! ### Other transactions -/

/-- A transaction leaves the quota columns of a project, but for a PUT of its quota. -/
theorem txn_columns {db db' : Db} {c : DbCall} (txn : Txn db c db') {p' : Project} (row : db'.projects.lookup id = some p') :
    (∃ p, db.projects.lookup id = some p ∧ columns p' = columns p) ∨
    (db.projects.lookup id = none ∧ p'.quotaObservedRevision = none) ∨
    ∃ caller limits expected p, c = .updateQuota caller limits expected ∧ caller.projectId = id ∧
      db.projects.lookup id = some p ∧ p'.quotaRevision = p.quotaRevision + 1 ∧ p'.quotaObservedRevision = none := by
  have kept : (db'.projects.lookup id).map columns = (db.projects.lookup id).map columns →
      ∃ p, db.projects.lookup id = some p ∧ columns p' = columns p := by
    intro same
    rw [row] at same
    obtain ⟨p,found,equal⟩ := Option.map_eq_some_iff.mp same.symm
    exact ⟨p,found,equal.symm⟩
  cases txn with
  | unchanged _ | claimed _ _ | deferred | recorded | bound _ _ _ _ | admitted _ _ _ _ | resumed _ _ _ _ _ _ _ =>
    exact .inl ⟨p',row,rfl⟩
  | finished holds settles => exact .inl (kept (finished_view (fun _ _ => rfl) settles _ id))
  | @limited caller limits expected snapshot current within =>
    rcases lookup_modify_some row with ⟨_,before⟩ | ⟨rfl,p,found,rfl⟩
    · exact .inl ⟨p',before,rfl⟩
    · exact .inr (.inr ⟨caller,limits,expected,p,rfl,rfl,found,rfl,rfl⟩)
  | @projectCreated actor projectId operationId o new unused insertable =>
    rcases lookup_insert_some row with ⟨rfl,rfl⟩ | ⟨_,before⟩
    · exact .inr (.inl ⟨unused,rfl⟩)
    · exact .inl ⟨p',before,rfl⟩
  | projectRetried new insertable => exact .inl (kept (view_modify id _ (fun _ => rfl)))

/-! ### One step -/

theorem Synced.call {db : Db} {c : DbCall} (synced : Synced lib s) (txn : Txn s.db c db) (may : waits s c = false) :
    Synced lib { s with db } where
  fresh := synced.fresh
  sessions := by
    intro id session found
    have sound := synced.sessions id session found
    refine sound.advance (advances_same rfl rfl) ?_
    obtain ⟨p,row,same⟩ := sound.row
    obtain ⟨p',row',_⟩ := Txn.project txn row
    refine ⟨p',row',?_⟩
    rcases txn_columns txn row' with ⟨before,found',columns_⟩ | ⟨missing,_⟩ | ⟨caller,limits,expected,_,rfl,rfl,_⟩
    · rw [row] at found'
      cases found'
      exact columns_.trans same
    · rw [row] at missing
      cases missing
    · simp [waits,found] at may
  applied := by
    intro id p' r row observed
    rcases txn_columns txn row with ⟨p,before,same⟩ | ⟨_,none_⟩ | ⟨_,_,_,_,_,_,_,_,none_⟩
    · have observed' : p.quotaObservedRevision = some r := by
        rw [← observed]
        exact (congrArg (fun q => q.quotaObservedRevision) same).symm
      obtain ⟨own,seen,committed,shows_⟩ := synced.applied id p r before observed'
      refine ⟨own.trans (congrArg (fun q => q.quotaRevision) same).symm,seen,committed,shows_columns same shows_⟩
    · rw [none_] at observed
      cases observed
    · rw [none_] at observed
      cases observed

theorem Synced.lock {p : Project} (synced : Synced lib s) (row : s.db.projects.lookup id = some p) :
    Synced lib { s with sessions := s.sessions.insert id ⟨p,.readNamespace,none⟩, last := s.last.insert id none } where
  fresh := synced.fresh
  sessions := by
    intro id' session found
    rcases lookup_insert_some found with ⟨rfl,rfl⟩ | ⟨_,before⟩
    · exact ⟨⟨p,row,rfl⟩,by simp,by simp,by simp⟩
    · exact (synced.sessions id' session before).advance (advances_same rfl rfl) (synced.sessions id' session before).row
  applied := synced.applied

/-- A call of a session, which may fail before or after its effect. -/
theorem Synced.kube {p : Project} {session' : Session} {t : System} (synced : Synced lib s) (sound : Sound lib s id session')
    (performed : Performed id p s t) :
    Synced lib { t with sessions := s.sessions.insert id session', last := s.last.insert id session'.seen } where
  fresh := by
    have fresh := advances_fresh (performed.advances synced.fresh) synced.fresh
    exact fresh
  sessions := by
    have advances : Advances s { t with sessions := s.sessions.insert id session', last := s.last.insert id session'.seen } :=
      ⟨(performed.advances synced.fresh).version,(performed.advances synced.fresh).objects⟩
    have rows : ∀ {id' : ProjectId} {other : Session}, Sound lib s id' other →
        ∃ p, t.db.projects.lookup id' = some p ∧ columns p = columns other.project := by
      intro id' other known
      rw [performed.db]
      exact known.row
    intro id' other found
    rcases lookup_insert_some found with ⟨rfl,rfl⟩ | ⟨_,before⟩
    · exact sound.advance advances (rows sound)
    · exact (synced.sessions id' other before).advance advances (rows (synced.sessions id' other before))
  applied := by
    intro id' p' r row observed
    change t.db.projects.lookup id' = some p' at row
    rw [performed.db] at row
    obtain ⟨own,seen,committed,shows_⟩ := synced.applied id' p' r row observed
    exact ⟨own,seen,by rw [← committed,← performed.committed],shows_⟩

theorem Synced.erase (synced : Synced lib s) {committed : Table ProjectId Seen} {db : Db}
    (rows : ∀ id', id' ≠ id → db.projects.lookup id' = s.db.projects.lookup id')
    (applied : ∀ id' p r, db.projects.lookup id' = some p → p.quotaObservedRevision = some r → r = p.quotaRevision ∧
      ∃ seen, committed.lookup id' = some seen ∧ Shows lib p seen) :
    Synced lib { s with db, sessions := s.sessions.erase id, committed } where
  fresh := synced.fresh
  sessions := by
    intro id' session found
    change (s.sessions.erase id).lookup id' = some session at found
    rw [lookup_erase] at found
    split at found
    · cases found
    · rename_i other
      have sound := synced.sessions id' session found
      refine sound.advance (advances_same rfl rfl) ?_
      rw [rows id' other]
      exact sound.row
  applied := applied

theorem Synced.commit {result : Except String Bool} (synced : Synced lib s) (found : s.sessions.lookup id = some session)
    (stage : session.stage = .ended result) : Synced lib { s with
      db := updateProject id (settle result session) s.db
      sessions := s.sessions.erase id, committed := s.committed.insert id session.seen } := by
  refine synced.erase (fun id' other => lookup_modify_ne other _ _) (fun id' p r row observed => ?_)
  rcases lookup_modify_some row with ⟨other,before⟩ | ⟨rfl,p,before,rfl⟩
  · obtain ⟨own,seen,committed,shows_⟩ := synced.applied id' p r before observed
    exact ⟨own,seen,by rw [lookup_insert,if_neg other]; exact committed,shows_⟩
  · have sound := synced.sessions _ session found
    obtain ⟨p',row',same⟩ := sound.row
    rw [before] at row'
    cases row'
    cases result with
    | error text => cases observed
    | ok ready =>
      cases ready with
      | false => cases observed
      | true =>
        cases observed
        refine ⟨(congrArg (fun q => q.quotaRevision) same).symm,session.seen,by rw [lookup_insert,if_pos rfl],?_⟩
        have shows_ : Shows lib p session.seen := shows_columns same (sound.ready stage)
        exact shows_

theorem advances_others (ns : Namespace) (found : Option NamespaceMeta) (quota : Option ResourceQuota) (inPlace : Bool)
    (fresh : ∀ ns o, s.quotas.lookup ns = some o → o.resourceVersion < s.version ∧ o.uid < s.version) :
    Advances s (alterQuota ns quota inPlace (alterNamespace ns found s)) := by
  unfold alterQuota
  split
  · refine ⟨Nat.le_refl _,fun ns' o there => ?_⟩
    change (s.quotas.erase ns).lookup ns' = some o at there
    rw [lookup_erase] at there
    split at there
    · cases there
    · exact .inl there
  · rename_i quota old before
    have uid := (fresh ns old before).2
    refine ⟨Nat.le_succ _,fun ns' o there => ?_⟩
    rcases lookup_insert_some there with ⟨_,rfl⟩ | ⟨_,there⟩
    · refine .inr ⟨rfl,Nat.lt_succ_self _,?_⟩
      change (if inPlace then old.uid else s.version) < s.version + 1
      split <;> omega
    · exact .inl there
  · refine ⟨Nat.le_succ _,fun ns' o there => ?_⟩
    rcases lookup_insert_some there with ⟨_,rfl⟩ | ⟨_,there⟩
    · exact .inr ⟨rfl,Nat.lt_succ_self _,Nat.lt_succ_self _⟩
    · exact .inl there

/-- What a step can do to an ordered state. -/
inductive Moves (lib : Library Scalar) (s : System) : QuotaSync.Label → System → Prop where
  | call {pick : Pick} {c : DbCall} {db : Db} : waits s c = false → Txn s.db c db → Moves lib s (.call pick c) { s with db }
  | lock {id : ProjectId} {p : Project} : s.db.projects.lookup id = some p → Moves lib s (.lock id) { s with
      sessions := s.sessions.insert id ⟨p,.readNamespace,none⟩, last := s.last.insert id none }
  | kube {id : ProjectId} {fault : Fault} {session session' : Session} {t : System} : Sound lib s id session →
      Sound lib s id session' → Performed id session.project s t → Moves lib s (.kube id fault)
        { t with sessions := s.sessions.insert id session', last := s.last.insert id session'.seen }
  | commit {id : ProjectId} {session : Session} {result : Except String Bool} : s.sessions.lookup id = some session →
      session.stage = .ended result → Moves lib s (.commit id) { s with
        db := updateProject id (settle result session) s.db
        sessions := s.sessions.erase id, committed := s.committed.insert id session.seen }
  | rollback {id : ProjectId} : Moves lib s (.rollback id) { s with sessions := s.sessions.erase id }
  | others {ns : Namespace} {found : Option NamespaceMeta} {quota : Option ResourceQuota} {inPlace : Bool} :
      Moves lib s (.others ns found quota inPlace) (alterQuota ns quota inPlace (alterNamespace ns found s))

variable [DecidableEq Scalar]

theorem step_moves {l : QuotaSync.Label} (synced : Synced lib s) (moved : QuotaSync.step lib l s = some s') : Moves lib s l s' := by
  cases l with
  | call pick c =>
    simp only [QuotaSync.step] at moved
    split at moved
    · cases moved
    · rename_i free
      split at moved
      · rename_i db _ ran
        cases moved
        exact .call (by simpa using free) (transact_cases ran)
      · cases moved
  | lock id =>
    simp only [QuotaSync.step] at moved
    split at moved
    · rename_i project _ row
      split at moved
      · cases moved
        exact .lock row
      · cases moved
    · cases moved
  | kube id fault =>
    simp only [QuotaSync.step] at moved
    split at moved
    · cases moved
    · rename_i session found
      have sound := synced.sessions id session found
      split at moved
      · cases moved
      · cases fault with
        | none =>
          cases moved
          exact .kube sound (perform_sound sound synced.fresh) (perform_performed sound)
        | failed code =>
          cases moved
          exact .kube sound (sound.throws code) ⟨rfl,rfl,rfl,rfl,.inl ⟨rfl,rfl⟩⟩
        | lost code =>
          cases moved
          exact .kube sound (sound.throws code) (perform_performed sound)
  | commit id =>
    simp only [QuotaSync.step] at moved
    split at moved
    · cases moved
    · rename_i session found
      split at moved
      · rename_i result stage
        cases moved
        exact .commit found stage
      · cases moved
  | rollback id =>
    simp only [QuotaSync.step] at moved
    split at moved
    · cases moved
    · cases moved
      exact .rollback
  | others ns found quota inPlace =>
    cases moved
    exact .others

theorem altered (ns : Namespace) (found : Option NamespaceMeta) (quota : Option ResourceQuota) (inPlace : Bool) :
    (alterQuota ns quota inPlace (alterNamespace ns found s)).db = s.db ∧
      (alterQuota ns quota inPlace (alterNamespace ns found s)).sessions = s.sessions ∧
      (alterQuota ns quota inPlace (alterNamespace ns found s)).committed = s.committed := by
  unfold alterQuota
  split <;> exact ⟨rfl,rfl,rfl⟩

theorem Synced.step {l : QuotaSync.Label} (synced : Synced lib s) (moved : QuotaSync.step lib l s = some s') : Synced lib s' := by
  cases step_moves synced moved with
  | call free txn => exact synced.call txn free
  | lock row => exact synced.lock row
  | kube _ sound performed => exact synced.kube sound performed
  | commit found stage => exact synced.commit found stage
  | rollback => exact synced.erase (fun _ _ => rfl) synced.applied
  | @others ns found quota inPlace =>
    have advances := advances_others ns found quota inPlace synced.fresh
    obtain ⟨db,sessions,committed⟩ := altered (s := s) ns found quota inPlace
    refine ⟨advances_fresh advances synced.fresh,fun id session there => ?_,?_⟩
    · rw [sessions] at there
      have sound := synced.sessions id session there
      refine sound.advance advances ?_
      rw [db]
      exact sound.row
    · rw [db,committed]
      exact synced.applied

/-! ### Runs -/

/-- A step of the platform. -/
def Own (l : QuotaSync.Label) : Prop := ∀ ns found quota inPlace, l ≠ .others ns found quota inPlace

/-- Others leave the annotation of an object that they change. -/
def Undisturbed (s : System) (l : QuotaSync.Label) : Prop :=
  ∀ ns found quota o, l = .others ns found (some quota) true → s.quotas.lookup ns = some o → quota.revision = o.revision

/-- A revision that is annotated stays or grows. -/
def Follows (old new : Option Annotation) : Prop := ∀ n, old = some (.number n) → ∃ m, new = some (.number m) ∧ n ≤ m

/-- Any run. -/
abbrev Runs (lib : Library Scalar) : System → System → Prop := Reaches (QuotaSync.step lib) (fun _ _ => True)

/-- A step of the platform writes quotas of its own, with the limits and the revision
    of the row as it stands. -/
theorem step_written {l : QuotaSync.Label} (synced : Synced lib s) (moved : QuotaSync.step lib l s = some s') (own : Own l)
    (ns : Namespace) : s'.quotas.lookup ns = s.quotas.lookup ns ∨ ∃ id p, s.db.projects.lookup id = some p ∧ p.ns = ns ∧
      Written id p.quotaRevision p.quotaLimits (s.quotas.lookup ns) (s'.quotas.lookup ns) := by
  cases step_moves synced moved with
  | call _ _ | lock _ | commit _ _ | rollback => exact .inl rfl
  | @others ns found quota inPlace => exact absurd rfl (own ns found quota inPlace)
  | @kube id _ session session' t sound _ performed =>
    change t.quotas.lookup ns = _ ∨ ∃ id p, _ ∧ _ ∧ Written _ _ _ _ (t.quotas.lookup ns)
    rcases performed.effect with ⟨same,_⟩ | ⟨after,written,quotas,_⟩
    · exact .inl (by rw [same])
    · rw [quotas,lookup_put]
      by_cases here : ns = session.project.ns
      · subst here
        obtain ⟨p,row,same⟩ := sound.row
        refine .inr ⟨id,p,row,congrArg (fun q => q.ns) same,?_⟩
        have limits : p.quotaLimits = session.project.quotaLimits := congrArg (fun q => q.quotaLimits) same
        have revision : p.quotaRevision = session.project.quotaRevision := congrArg (fun q => q.quotaRevision) same
        rw [if_pos rfl,limits,revision]
        exact written
      · rw [if_neg here]
        exact .inl rfl

theorem follows_refl (a : Option Annotation) : Follows a a := fun n same => ⟨n,same,Nat.le_refl n⟩

theorem Follows.trans {a b c : Option Annotation} (first : Follows a b) (second : Follows b c) : Follows a c := by
  intro n same
  obtain ⟨m,same,le⟩ := first n same
  obtain ⟨k,same,le'⟩ := second m same
  exact ⟨k,same,Nat.le_trans le le'⟩

/-- An object after a write is the one before, with a revision that follows, or a new one. -/
theorem Written.follows {revision : Nat} {limits : Quota} {o o' : ResourceQuota}
    (written : Written id revision limits (some o) (some o')) : o'.uid = o.uid ∧ Follows o.revision o'.revision := by
  cases written with
  | replaced version mine =>
    refine ⟨rfl,fun n same => ⟨revision,rfl,?_⟩⟩
    rcases mine.older with none_ | ⟨m,le,older⟩
    · rw [none_] at same
      cases same
    · rw [older] at same
      cases same
      exact le
  | marked version mine empty => exact ⟨rfl,follows_refl _⟩

/-- Objects are new or follow the ones before. -/
structure Grows (s s' : System) : Prop where
  version : s.version ≤ s'.version
  objects : ∀ ns o', s'.quotas.lookup ns = some o' → s.version ≤ o'.uid ∨
    ∃ o, s.quotas.lookup ns = some o ∧ o'.uid = o.uid ∧ Follows o.revision o'.revision

theorem grows_refl : Grows s s := ⟨Nat.le_refl _,fun _ o' found => .inr ⟨o',found,rfl,follows_refl _⟩⟩

theorem Grows.trans {t : System} (first : Grows s t) (second : Grows t s') : Grows s s' := by
  refine ⟨Nat.le_trans first.version second.version,fun ns o' found => ?_⟩
  rcases second.objects ns o' found with new | ⟨o,before,uid,follows⟩
  · exact .inl (Nat.le_trans first.version new)
  · rcases first.objects ns o before with new | ⟨old,older,uid',follows'⟩
    · exact .inl (by omega)
    · exact .inr ⟨old,older,uid.trans uid',follows'.trans follows⟩

theorem grows_same (quotas : s'.quotas = s.quotas) (version : s'.version = s.version) : Grows s s' :=
  ⟨le_of_eq version.symm,fun ns o' found => .inr ⟨o',by rw [← quotas]; exact found,rfl,follows_refl _⟩⟩

theorem Performed.grows {p : Project} (performed : Performed id p s s') : Grows s s' := by
  rcases performed.effect with ⟨quotas,version⟩ | ⟨after,written,quotas,version,new⟩
  · exact grows_same quotas version
  · refine ⟨version,fun ns o' found => ?_⟩
    rw [quotas,lookup_put] at found
    split at found
    · rename_i here
      subst here
      subst found
      obtain ⟨_,_,⟨uid,_⟩ | ⟨old,there,_⟩⟩ := new o' rfl
      · exact .inl (le_of_eq uid.symm)
      · rw [there] at written
        exact .inr ⟨old,there,written.follows⟩
    · exact .inr ⟨o',found,rfl,follows_refl _⟩

theorem step_grows {l : QuotaSync.Label} (synced : Synced lib s) (moved : QuotaSync.step lib l s = some s')
    (kept : Undisturbed s l) : Grows s s' := by
  cases step_moves synced moved with
  | call _ _ | lock _ | commit _ _ | rollback => exact grows_same rfl rfl
  | kube _ _ performed => exact ⟨performed.grows.version,performed.grows.objects⟩
  | @others ns found quota inPlace =>
    unfold alterQuota
    split
    · refine ⟨Nat.le_refl _,fun ns' o' there => ?_⟩
      change (s.quotas.erase ns).lookup ns' = some o' at there
      rw [lookup_erase] at there
      split at there
      · cases there
      · exact .inr ⟨o',there,rfl,follows_refl _⟩
    · rename_i quota old before
      refine ⟨Nat.le_succ _,fun ns' o' there => ?_⟩
      rcases lookup_insert_some there with ⟨rfl,rfl⟩ | ⟨_,there⟩
      · cases inPlace with
        | false => exact .inl (Nat.le_refl _)
        | true =>
          refine .inr ⟨old,before,rfl,?_⟩
          rw [show quota.revision = old.revision from kept ns' found quota old rfl before]
          exact follows_refl _
      · exact .inr ⟨o',there,rfl,follows_refl _⟩
    · refine ⟨Nat.le_succ _,fun ns' o' there => ?_⟩
      rcases lookup_insert_some there with ⟨rfl,rfl⟩ | ⟨_,there⟩
      · exact .inl (Nat.le_refl _)
      · exact .inr ⟨o',there,rfl,follows_refl _⟩

theorem runs_grow (synced : Synced lib s) (reached : Reaches (QuotaSync.step lib) Undisturbed s s') :
    Grows s s' ∧ Synced lib s' := by
  induction reached with
  | refl => exact ⟨grows_refl,synced⟩
  | tail _ kept moved ih =>
    obtain ⟨grows,synced⟩ := ih
    exact ⟨grows.trans (step_grows synced moved kept),synced.step moved⟩

/-- The revision of a project never goes back. -/
theorem step_revision {l : QuotaSync.Label} (synced : Synced lib s) (moved : QuotaSync.step lib l s = some s') {p : Project}
    (row : s.db.projects.lookup id = some p) :
    ∃ p', s'.db.projects.lookup id = some p' ∧ p.quotaRevision ≤ p'.quotaRevision := by
  cases step_moves synced moved with
  | lock _ | rollback => exact ⟨p,row,Nat.le_refl _⟩
  | call free txn =>
    obtain ⟨p',row',_⟩ := Txn.project txn row
    refine ⟨p',row',?_⟩
    rcases txn_columns txn row' with ⟨q,found,same⟩ | ⟨missing,_⟩ | ⟨_,_,_,q,_,_,found,revision,_⟩
    · rw [row] at found
      cases found
      exact le_of_eq (congrArg (fun q => q.quotaRevision) same).symm
    · rw [row] at missing
      cases missing
    · rw [row] at found
      cases found
      omega
  | kube _ _ performed => exact ⟨p,by rw [← row,← performed.db],Nat.le_refl _⟩
  | @commit id' session result _ _ =>
    by_cases own : id = id'
    · subst own
      refine ⟨settle result session p,?_,Nat.le_refl _⟩
      change (modify id _ s.db.projects).lookup id = _
      rw [lookup_modify_self,row]
      rfl
    · refine ⟨p,?_,Nat.le_refl _⟩
      rw [← row]
      exact lookup_modify_ne own _ _
  | @others ns found quota inPlace =>
    refine ⟨p,?_,Nat.le_refl _⟩
    rw [(altered ns found quota inPlace).1]
    exact row

theorem runs_revision (synced : Synced lib s) (reached : Runs lib s s') {p : Project} (row : s.db.projects.lookup id = some p) :
    ∃ p', s'.db.projects.lookup id = some p' ∧ p.quotaRevision ≤ p'.quotaRevision := by
  have both : Synced lib s' ∧ ∃ p', s'.db.projects.lookup id = some p' ∧ p.quotaRevision ≤ p'.quotaRevision := by
    refine reached.invariant (I := fun t => Synced lib t ∧ ∃ p', t.db.projects.lookup id = some p' ∧
      p.quotaRevision ≤ p'.quotaRevision) ⟨synced,p,row,Nat.le_refl _⟩ ?_
    rintro t u l ⟨known,q,found,le⟩ _ moved
    obtain ⟨q',found',le'⟩ := step_revision known moved found
    exact ⟨known.step moved,q',found',Nat.le_trans le le'⟩
  exact both.2

theorem applied_observed {db : Db} {snapshot : Snapshot} (read : quotaSnapshot db id = .ok snapshot)
    (applied : snapshot.synchronization = .applied) :
    ∃ p, db.projects.lookup id = some p ∧ p.quotaObservedRevision = some p.quotaRevision := by
  unfold quotaSnapshot at read
  split at read
  · cases read
  · rename_i p row
    cases read
    refine ⟨p,row,?_⟩
    split at applied
    · cases applied
    · split at applied
      · assumption
      · cases applied

/-- The platform writes its own quotas only, with the limits of the row and a revision
    that is not older, and a project is applied as its last committed call has seen. -/
theorem quotas_synchronised {s₀ s : System} (start : Start s₀) (reached : Runs lib s₀ s) :
    (∀ l s' ns, QuotaSync.step lib l s = some s' → Own l → s'.quotas.lookup ns = s.quotas.lookup ns ∨
      ∃ id p, s.db.projects.lookup id = some p ∧ p.ns = ns ∧
        Written id p.quotaRevision p.quotaLimits (s.quotas.lookup ns) (s'.quotas.lookup ns)) ∧
    (∀ s' id p, Runs lib s s' → s.db.projects.lookup id = some p →
      ∃ p', s'.db.projects.lookup id = some p' ∧ p.quotaRevision ≤ p'.quotaRevision) ∧
    (∀ s' ns o o', Reaches (QuotaSync.step lib) Undisturbed s s' → s.quotas.lookup ns = some o →
      s'.quotas.lookup ns = some o' → o'.uid = o.uid → Follows o.revision o'.revision) ∧
    ∀ id snapshot, quotaSnapshot s.db id = .ok snapshot → snapshot.synchronization = .applied →
      ∃ p seen, s.db.projects.lookup id = some p ∧ s.committed.lookup id = some seen ∧ Shows lib p seen := by
  have synced : Synced lib s := reached.invariant start.synced (fun known _ moved => known.step moved)
  refine ⟨fun l s' ns moved own => step_written synced moved own ns,fun s' id p later row => runs_revision synced later row,
    fun s' ns o o' later before after same => ?_,fun id snapshot read applied => ?_⟩
  · obtain ⟨grows,_⟩ := runs_grow synced later
    rcases grows.objects ns o' after with new | ⟨old,there,_,follows⟩
    · have := (synced.fresh ns o before).2
      omega
    · rw [before] at there
      cases there
      exact follows
  · obtain ⟨p,row,observed⟩ := applied_observed read applied
    obtain ⟨_,seen,committed,shows_⟩ := synced.applied id p _ row observed
    exact ⟨p,seen,row,committed,shows_⟩

end

/-! ### A project with a limit -/

/-- Quantities as numbers. -/
def numbers : Library ℚ where
  quantityToScalar := fun text => (rational text).map (fun fraction => (fraction.1 : ℚ) / fraction.2)
  amount := fun text => (rational text).map (fun fraction => (fraction.1 : ℚ) / fraction.2)
  exact := fun {_ _ x} left right => ⟨x,left,right⟩

def limited : Project := { ns := ⟨1⟩, state := .ready, quotaLimits := { instances := some 3 } }

def office : System where
  db := { projects := AList.singleton 1 limited }
  sessions := ∅
  namespaces := AList.singleton ⟨1⟩ { uid := some 1, labels := labels 1 }
  quotas := ∅
  version := 2
  last := ∅
  committed := ∅

theorem office_start : Start office := by
  refine ⟨rfl,fun id p row => ?_,fun ns o found => ?_⟩
  · rcases lookup_insert_some (k := 1) (t := ∅) row with ⟨_,rfl⟩ | ⟨_,row⟩
    · rfl
    · cases row
  · cases found

/-- The quota is created, counted by Kubernetes and then found as it should be. -/
def applying : List QuotaSync.Label :=
  [.lock 1,.kube 1 .none,.kube 1 .none,.kube 1 .none,.commit 1,
    .others ⟨1⟩ (some { uid := some 1, labels := labels 1 }) (some
      { uid := 0, resourceVersion := 0, labels := labels 1, revision := some (.number 1)
        hard := some (record (hardOf limited.quotaLimits)), statusHard := some (record (hardOf limited.quotaLimits))
        statusUsed := some (record [("count/cacheinstances.cache.expbuild.io","0")]) }) true,
    .lock 1,.kube 1 .none,.kube 1 .none,.commit 1]

def isApplied (s : System) : Bool :=
  match quotaSnapshot s.db 1 with
  | .ok snapshot => snapshot.synchronization = .applied
  | .error _ => false

theorem quotas_synchronised_limited : ∃ s, Runs numbers office s ∧ ∃ p seen, s.db.projects.lookup 1 = some p ∧
    s.committed.lookup 1 = some seen ∧ Shows numbers p seen := by
  have ends : (run (QuotaSync.step numbers) (fun _ _ => true) applying office).any isApplied = true := by decide +kernel
  obtain ⟨s,reached,applied⟩ := reaches_of_run (fun _ _ _ => trivial) ends
  obtain ⟨_,_,_,observed⟩ := quotas_synchronised office_start reached
  unfold isApplied at applied
  split at applied
  · rename_i snapshot read
    exact ⟨s,reached,observed 1 snapshot read (of_decide_eq_true applied)⟩
  · cases applied

/-- Somebody puts a quota of their own in its place; the next call finds it, and its
    transaction is rolled back. -/
def disowned : List QuotaSync.Label :=
  applying ++ [.others ⟨1⟩ (some { uid := some 1, labels := labels 1 }) (some { uid := 0, resourceVersion := 0 }) false,
    .lock 1,.kube 1 .none,.kube 1 .none,.rollback 1]

/-- The last call has found a quota of somebody else. -/
def foreign (s : System) : Bool :=
  match s.last.lookup 1 with
  | some (some (some o)) => o.revision = none
  | _ => false

/-- The project is still applied, though the last call has found something else. -/
theorem rolled_back_unobserved : Start office ∧ ¬∀ s, Runs numbers office s → s.sessions.keys = [] →
    ∀ id snapshot, quotaSnapshot s.db id = .ok snapshot → snapshot.synchronization = .applied →
      ∃ p seen, s.db.projects.lookup id = some p ∧ s.last.lookup id = some seen ∧ Shows numbers p seen := by
  refine ⟨office_start,fun always => ?_⟩
  have ends : (run (QuotaSync.step numbers) (fun _ _ => true) disowned office).any (fun s =>
      isApplied s && foreign s && s.sessions.keys = []) = true := by decide +kernel
  obtain ⟨s,reached,holds⟩ := reaches_of_run (fun _ _ _ => trivial) ends
  simp only [Bool.and_eq_true,decide_eq_true_eq] at holds
  obtain ⟨⟨applied,other⟩,idle⟩ := holds
  unfold isApplied at applied
  split at applied
  · rename_i snapshot read
    obtain ⟨p,seen,_,last,shows_⟩ := always s reached idle 1 snapshot read (of_decide_eq_true applied)
    unfold foreign at other
    rw [last] at other
    rcases shows_ with ⟨_,rfl⟩ | ⟨o,rfl,revision,_⟩
    · cases other
    · simp [revision] at other
  · cases applied

end Expbuild.Synchronized
