import Expbuild.Inventory
import Expbuild.Platform

/-!
Scans of the inventory beside everything else that the platform does. Any number of
replicas tick, each somewhere between two of its calls, while requests are admitted
and workers apply them; leases expire, and Kubernetes answers anything. A verdict is
published only under the lease, about rows whose fingerprint is still that of the
rows it was computed from (`inventory_current`).
-/
namespace Expbuild.Scans
open Expbuild.Contract Expbuild.Schema Expbuild.Tables Expbuild.Programs Expbuild.Runs Expbuild.Inventory
open Expbuild.Platform (Fault answered)

variable {Digest : Type} {fingerprint : List InventoryBinding → Digest}

/-! ### What a tick does -/

abbrev Past (Digest : Type) := History (@ScanCall.Answer Digest)

/-- The resources that a scan has found in the namespace of the project that it claimed,
    by the answers it got. -/
def Inspected (past : Past Digest) (project : ProjectId) (resources : InventoryResources) : Prop :=
  ∃ ns worker history, (⟨.claim worker,.ok (some (project,ns))⟩ : Event ScanCall.Answer) ∈ past ∧ history <:+: past ∧
    Ends (inspectProjectResources ns project) history (.ok resources)

/-- What a scan may publish: a failure, or a verdict about rows and resources that it read. -/
inductive Finds (fingerprint : List InventoryBinding → Digest) (past : Past Digest) (project : ProjectId) :
    Option Digest → InventoryResult → Prop where
  | failed {before : Option Digest} (e : Failure) : Finds fingerprint past project before (unavailable e)
  | compared {rows : List InventoryBinding} {resources : InventoryResources}
      (read : (⟨.bindings project,.ok rows⟩ : Event ScanCall.Answer) ∈ past) (inspected : Inspected past project resources) :
      Finds fingerprint past project (some (fingerprint rows)) (compareInventory project rows resources)

/-- The past under which a tick makes a call. -/
def licence (fingerprint : List InventoryBinding → Digest) (worker : ClaimId) (past : Past Digest) :
    ScanCall Digest → Prop
  | .claim w => past = [] ∧ w = worker
  | .publish project w before result => past ≠ [] ∧ w = worker ∧ Finds fingerprint past project before result
  | _ => past ≠ []

section
variable {worker : ClaimId} {past : Past Digest} {α : Type}

/-- The calls that reach Kubernetes. -/
def observes : ScanCall Digest → Bool
  | .readNamespace _ | .listInstances _ _ | .listVolumes _ _ => true
  | _ => false

theorem only_collect {page : Option String → ScanIo Digest (Page α)}
    (pages : ∀ continuation, Only (fun c => observes c = true) (page continuation)) (count : Nat) (items : List α)
    (continuation : Option String) : Only (fun c => observes c = true) (collect page count items continuation) := by
  induction count generalizing items continuation with
  | zero => exact only_throw _
  | succ count ih =>
    refine only_bind (pages continuation) (fun result => only_bind (only_require _ _) (fun _ => ?_))
    cases result.continuation with
    | none => exact only_pure _
    | some next => exact ih _ _

theorem only_inspect (ns : Namespace) (project : ProjectId) :
    Only (fun c => observes c = true) (inspectProjectResources ns project : ScanIo Digest InventoryResources) := by
  refine only_bind (only_ask rfl) (fun _ => only_bind (only_require _ _) (fun _ => ?_))
  refine only_bind (only_collect (fun continuation => only_ask (r := ScanCall.listInstances ns continuation) rfl) _ _ _) (fun _ => ?_)
  refine only_bind (only_collect (fun continuation => only_ask (r := ScanCall.listVolumes ns continuation) rfl) _ _ _) (fun _ => ?_)
  exact only_bind (only_ask rfl) (fun _ => only_bind (only_require _ _) (fun _ => only_pure _))

theorem licence_observes (filled : past ≠ []) {c : ScanCall Digest} (reads : observes c = true) :
    licence fingerprint worker past c := by
  cases c <;> first | exact filled | cases reads

/-- The last call of a tick. -/
theorem licensed_publish {project : ProjectId} {before : Option Digest} {result : InventoryResult} (filled : past ≠ [])
    (finds : Finds fingerprint past project before result) : Licensed (licence fingerprint worker) (fun _ _ => True) past
      ((ask (.publish project worker before result) : ScanIo Digest Unit) >>= fun _ => pure true) :=
  (licensed_ask _ _).mpr ⟨⟨filled,rfl,finds⟩,fun _ => trivial,fun _ => trivial⟩

/-- Every call of a tick keeps to its licence. -/
theorem tick_licensed (worker : ClaimId) :
    Licensed (licence fingerprint worker) (fun _ _ => True) [] (tick fingerprint worker) := by
  refine (licensed_ask _ _).mpr ⟨⟨rfl,rfl⟩,fun claimed => ?_,fun _ => trivial⟩
  cases claimed with
  | none => trivial
  | some claimed =>
    obtain ⟨project,ns⟩ := claimed
    refine (licensed_attempt _ _).mpr ?_
    refine (licensed_ask _ _).mpr ⟨by simp [licence],fun bindings => ?_,fun e => licensed_publish (by simp) (.failed e)⟩
    refine (Prog.licensed_require _ _ _).mpr ⟨fun _ => ?_,fun _ => licensed_publish (by simp) (.failed _)⟩
    refine (licensed_attempt _ _).mpr (((only_inspect ns project _).and (licensed_ends _ _)).mono ?_ ?_)
    · intro later c after reads
      exact licence_observes (fun wrong => by subst wrong; simp at after) reads.1
    · rintro later observed after ⟨_,history,parts,ends⟩
      have filled : later ≠ [] := fun wrong => by subst wrong; simp at after
      have read : (⟨.bindings project,.ok bindings⟩ : Event (@ScanCall.Answer Digest)) ∈ later :=
        after.subset List.mem_cons_self
      have claimed : (⟨.claim worker,.ok (some (project,ns))⟩ : Event (@ScanCall.Answer Digest)) ∈ later := after.subset (by simp)
      have inside : history <:+: later := parts ▸ (List.prefix_append _ _).isInfix
      cases observed with
      | ok resources => exact licensed_publish filled (.compared read ⟨ns,worker,history,claimed,inside,ends⟩)
      | error e => exact licensed_publish filled (.failed e)

end
/-! ### The world around it -/

variable [DecidableEq Digest] (fingerprint)

structure World where
  platform : Platform.System := {}
  scans : Table ProjectId Scan := ∅
  ticks : List (Thread (tick fingerprint)) := []
  /-- The next identifier that a tick draws. -/
  fresh : ClaimId := 0

/-- The inventory columns of a project. -/
def scanOf (scans : Table ProjectId Scan) (project : ProjectId) : Scan := (scans.lookup project).getD {}

/-- The claim of a tick: rows that other transactions hold are skipped, so that any
    project that is due may be picked. -/
def claim (db : Db) (pick : ProjectId) (worker : ClaimId) (scans : Table ProjectId Scan) :
    Table ProjectId Scan × Option (ProjectId × Namespace) :=
  match (db.projects.lookup pick).filter (fun p => p.state = .ready && (scanOf scans pick).due db.now) with
  | some project => (scans.insert pick ((scanOf scans pick).claimed worker db.now),some (pick,project.ns))
  | none => (scans,none)

/-- Makes a call: what reaches Kubernetes is answered in any way. -/
def perform (db : Db) (fault : Fault) (pick : ProjectId) (forgery : (c : ScanCall Digest) → c.Answer)
    (c : ScanCall Digest) (scans : Table ProjectId Scan) : Table ProjectId Scan × c.Answer :=
  match c with
  | .claim worker => answered fault (fun _ => .api none) scans (.ok (claim db pick worker scans))
  | .bindings project => answered fault (fun _ => .api none) scans (.ok (scans,bindingSQL db project))
  | .publish project worker before result =>
    let published := (scanOf scans project).publish fingerprint (bindingSQL db project) worker before result db.now
    answered fault (fun _ => .api none) scans (.ok (scans.insert project published,()))
  | .readNamespace ns => (scans,forgery (.readNamespace ns))
  | .listInstances ns continuation => (scans,forgery (.listInstances ns continuation))
  | .listVolumes ns continuation => (scans,forgery (.listVolumes ns continuation))

inductive Label (Digest : Type) where
  | platform (l : Platform.Label)
  | tick
  | run (i : Nat) (fault : Fault) (pick : ProjectId) (forgery : (c : ScanCall Digest) → c.Answer)
  /-- A request asks for a scan. -/
  | due (project : ProjectId) (time : Nat)

def step : Label Digest → World fingerprint → Option (World fingerprint)
  | .platform l,s => (Platform.step l s.platform).map (fun platform => { s with platform := platform })
  | .tick,s => some { s with ticks := s.ticks ++ [Thread.spawn s.fresh], fresh := s.fresh + 1 }
  | .run i fault pick forgery,s => do
    let t ← s.ticks[i]?
    let (scans,t') ← t.advance (fun c scans => some (perform fingerprint s.platform.db fault pick forgery c scans)) s.scans
    return { s with scans := scans, ticks := s.ticks.set i t' }
  | .due project time,s => some { s with scans := s.scans.insert project { scanOf s.scans project with nextScan := time } }

/-! ### What a step can do -/

section
variable {fingerprint}

theorem scanOf_insert (scans : Table ProjectId Scan) (project other : ProjectId) (scan : Scan) :
    scanOf (scans.insert project scan) other = if other = project then scan else scanOf scans other := by
  unfold scanOf
  rw [lookup_insert]
  split
  · rfl
  · rfl

/-- A step of a tick: one call, which leaves the rest of the platform alone. -/
structure Calls (s s' : World fingerprint) (i : Nat) (t : Thread (tick fingerprint)) (c : ScanCall Digest) (x : c.Answer) :
    Prop where
  found : s.ticks[i]? = some t
  next : ∃ next, t.rest = .request c next
  platform : s'.platform = s.platform
  others : ∀ u ∈ s'.ticks, u ∈ s.ticks ∨ (u.tag = t.tag ∧ u.history = ⟨c,x⟩ :: t.history)

theorem run_cases {s s' : World fingerprint} {i : Nat} {fault : Fault} {pick : ProjectId}
    {forgery : (c : ScanCall Digest) → c.Answer} (moved : step fingerprint (.run i fault pick forgery) s = some s') :
    ∃ t c x, Calls s s' i t c x ∧ perform fingerprint s.platform.db fault pick forgery c s.scans = (s'.scans,x) := by
  simp only [step,Option.bind_eq_bind,Option.bind_eq_some_iff,Option.pure_def,Option.some.injEq] at moved
  obtain ⟨t,found,⟨scans,t'⟩,advanced,rfl⟩ := moved
  obtain ⟨c,next,x,left,performed,tag,history,_⟩ := Thread.advance_some advanced
  refine ⟨t,c,x,⟨found,⟨next,left⟩,rfl,?_⟩,Option.some.inj performed⟩
  intro u member
  rcases List.mem_or_eq_of_mem_set member with member | rfl
  · exact .inl member
  · exact .inr ⟨tag,history⟩

omit [DecidableEq Digest] in
theorem Calls.licensed {s s' : World fingerprint} {i : Nat} {t : Thread (tick fingerprint)} {c : ScanCall Digest}
    {x : c.Answer} (calls : Calls s s' i t c x) : licence fingerprint t.tag t.history c := by
  obtain ⟨next,left⟩ := calls.next
  have ran := t.ran
  rw [left] at ran
  exact ran.licensed (tick_licensed t.tag)

/-- What a call does to the inventory columns. -/
inductive Changes (fingerprint : List InventoryBinding → Digest) (db : Db) (scans scans' : Table ProjectId Scan) :
    ScanCall Digest → Prop where
  | nothing {c : ScanCall Digest} (same : scans' = scans) : Changes fingerprint db scans scans' c
  | claimed {worker : ClaimId} {project : ProjectId}
      (columns : scans' = scans.insert project ((scanOf scans project).claimed worker db.now)) :
      Changes fingerprint db scans scans' (.claim worker)
  | published {project : ProjectId} {worker : ClaimId} {before : Option Digest} {result : InventoryResult}
      (columns : scans' = scans.insert project
        ((scanOf scans project).publish fingerprint (bindingSQL db project) worker before result db.now)) :
      Changes fingerprint db scans scans' (.publish project worker before result)

theorem claim_changes {db : Db} {pick : ProjectId} {worker : ClaimId} {scans : Table ProjectId Scan} :
    Changes fingerprint db scans (claim db pick worker scans).1 (.claim worker) := by
  unfold claim
  split
  · exact .claimed rfl
  · exact .nothing rfl

theorem answered_changes {db : Db} {fault : Fault} {c : ScanCall Digest} {scans scans' after : Table ProjectId Scan}
    {v : c.Value} {x : c.Answer} (changes : Changes fingerprint db scans after c)
    (performed : answered fault (fun _ => .api none) scans (.ok (after,v)) = (scans',x)) :
    Changes fingerprint db scans scans' c := by
  cases fault with
  | delivered | lost _ => cases performed; exact changes
  | refused _ => cases performed; exact .nothing rfl

theorem perform_changes {db : Db} {fault : Fault} {pick : ProjectId} {forgery : (c : ScanCall Digest) → c.Answer}
    {c : ScanCall Digest} {scans scans' : Table ProjectId Scan} {x : c.Answer}
    (performed : perform fingerprint db fault pick forgery c scans = (scans',x)) : Changes fingerprint db scans scans' c := by
  cases c with
  | claim worker => exact answered_changes claim_changes performed
  | bindings project => exact answered_changes (.nothing rfl) performed
  | publish project worker before result => exact answered_changes (.published rfl) performed
  | readNamespace _ | listInstances _ _ | listVolumes _ _ => cases performed; exact .nothing rfl

/-- What the database answers to the query of the rows. -/
theorem perform_bindings {db : Db} {fault : Fault} {pick project : ProjectId} {forgery : (c : ScanCall Digest) → c.Answer}
    {scans scans' : Table ProjectId Scan} {rows : List InventoryBinding}
    (performed : perform fingerprint db fault pick forgery (.bindings project) scans = (scans',.ok rows)) :
    rows = bindingSQL db project := by
  cases fault with
  | delivered => cases performed; rfl
  | refused _ | lost _ => cases performed

/-- Publishing writes nothing without the lease, and the result that the scan brought
    only where the rows still have the fingerprint it brought. -/
theorem publish_cases (scan : Scan) (rows : List InventoryBinding) (worker : ClaimId) (before : Option Digest)
    (result : InventoryResult) (now : Nat) :
    scan.publish fingerprint rows worker before result now = scan ∨
      (scan.holds worker now = true ∧ ∃ r, (scan.publish fingerprint rows worker before result now).result = some r ∧
        (r = changedDuringScan ∨ (r = result ∧ ∀ digest, before = some digest → digest = fingerprint rows))) := by
  by_cases holds : scan.holds worker now = true
  · refine .inr ⟨holds,?_⟩
    simp only [Scan.publish,holds,if_true]
    by_cases differs : before.any (fun digest => digest ≠ fingerprint rows) = true
    · exact ⟨_,rfl,.inl (if_pos differs)⟩
    · refine ⟨_,rfl,.inr ⟨if_neg differs,?_⟩⟩
      rintro digest rfl
      simpa using differs
  · exact .inl (by simp [Scan.publish,holds])

/-! ### Whole runs -/

/-- A verdict about a project: healthy, drifting, or in progress because it is busy. -/
def Verdict (r : InventoryResult) : Prop :=
  r.state = .healthy ∨ r.state = .drift ∨ (r.state = .inProgress ∧ 0 < r.busyInstances)

/-- A run of the world. -/
abbrev Runs (s s' : World fingerprint) : Prop := Reaches (step fingerprint) (fun _ _ => True) s s'

/-- The rows that a tick has read were there at some time of the run. -/
def Reads (s₀ s : World fingerprint) : Prop :=
  ∀ t ∈ s.ticks, ∀ project rows, (⟨.bindings project,.ok rows⟩ : Event ScanCall.Answer) ∈ t.history →
    ∃ s₁, Runs s₀ s₁ ∧ Runs s₁ s ∧ rows = bindingSQL s₁.platform.db project

theorem reads_run {s₀ s : World fingerprint} (start : s₀.ticks = []) (reached : Runs s₀ s) : Reads s₀ s := by
  induction reached with
  | refl =>
    intro t member
    rw [start] at member
    cases member
  | @tail s s' l before may moved ih =>
    -- what was read before was read in this run too
    have kept : ∀ t ∈ s.ticks, ∀ project rows, (⟨.bindings project,.ok rows⟩ : Event ScanCall.Answer) ∈ t.history →
        ∃ s₁, Runs s₀ s₁ ∧ Runs s₁ s' ∧ rows = bindingSQL s₁.platform.db project := by
      intro t member project rows read
      obtain ⟨s₁,first,second,same⟩ := ih t member project rows read
      exact ⟨s₁,first,second.tail may moved,same⟩
    cases l with
    | platform l =>
      obtain ⟨platform,_,rfl⟩ := Option.map_eq_some_iff.mp moved
      exact kept
    | tick =>
      cases moved
      intro t member
      rcases List.mem_append.mp member with old | new
      · exact kept t old
      · obtain rfl := List.mem_singleton.mp new
        intro project rows read
        cases read
    | run i fault pick forgery =>
      obtain ⟨t,c,x,calls,performed⟩ := run_cases moved
      intro u member project rows read
      rcases calls.others u member with old | ⟨_,history⟩
      · exact kept u old project rows read
      · rw [history] at read
        rcases List.mem_cons.mp read with new | old
        · cases new
          exact ⟨s,before,.tail .refl may moved,perform_bindings performed⟩
        · exact kept t (List.mem_of_getElem? calls.found) project rows old
    | due project time =>
      cases moved
      exact kept

/-- What a result that a tick writes is: it was written under the lease, and a verdict
    was computed from resources and rows that the tick has read, and the rows have the
    fingerprint that they have now. -/
structure Published (s₀ s : World fingerprint) (project : ProjectId) (t : Thread (tick fingerprint)) (r : InventoryResult) : Prop where
  leased : (scanOf s.scans project).holds t.tag s.platform.db.now = true
  current : Verdict r → ∃ rows resources s₁, r = compareInventory project rows resources ∧
    (⟨.bindings project,.ok rows⟩ : Event ScanCall.Answer) ∈ t.history ∧ Inspected t.history project resources ∧
    fingerprint rows = fingerprint (bindingSQL s.platform.db project) ∧ rows = bindingSQL s₁.platform.db project ∧
    Runs s₀ s₁ ∧ Runs s₁ s

/-- What a step does to the inventory, and the inventory to everything else. -/
structure Current (s₀ s : World fingerprint) (l : Label Digest) (s' : World fingerprint) : Prop where
  /-- Only a tick writes a result. -/
  written : ∀ {project}, (scanOf s'.scans project).result ≠ (scanOf s.scans project).result ∨
    (scanOf s'.scans project).checkedAt ≠ (scanOf s.scans project).checkedAt → ∃ i fault pick forgery t r,
      l = .run i fault pick forgery ∧ s.ticks[i]? = some t ∧ (scanOf s'.scans project).result = some r ∧
      Published s₀ s project t r
  /-- After its claim a tick writes nothing without the lease. -/
  lost : ∀ {i fault pick forgery t project}, l = .run i fault pick forgery → s.ticks[i]? = some t → t.history ≠ [] →
    (scanOf s.scans project).holds t.tag s.platform.db.now = false →
    scanOf s'.scans project = scanOf s.scans project
  /-- A tick changes nothing else. -/
  harmless : ∀ {i fault pick forgery}, l = .run i fault pick forgery → s'.platform = s.platform

theorem not_verdict_unavailable (e : Failure) : ¬Verdict (unavailable e) := by
  rintro (wrong | wrong | ⟨wrong,_⟩)
  · cases wrong
  · cases wrong
  · cases wrong

theorem not_verdict_changed : ¬Verdict changedDuringScan := by
  rintro (wrong | wrong | ⟨_,wrong⟩)
  · cases wrong
  · cases wrong
  · cases wrong

/-- What a published result is. -/
theorem Calls.publishes {s₀ s s' : World fingerprint} {i : Nat} {t : Thread (tick fingerprint)} {project : ProjectId}
    {worker : ClaimId} {before : Option Digest} {result r : InventoryResult}
    {x : (ScanCall.publish project worker before result).Answer}
    (calls : Calls s s' i t (.publish project worker before result) x) (reads : Reads s₀ s)
    (leased : (scanOf s.scans project).holds worker s.platform.db.now = true)
    (outcome : r = changedDuringScan ∨
      (r = result ∧ ∀ digest, before = some digest → digest = fingerprint (bindingSQL s.platform.db project))) :
    Published s₀ s project t r := by
  obtain ⟨_,rfl,finds⟩ := calls.licensed
  refine ⟨leased,fun verdict => ?_⟩
  rcases outcome with rfl | ⟨rfl,same⟩
  · exact absurd verdict not_verdict_changed
  · cases finds with
    | failed e => exact absurd verdict (not_verdict_unavailable e)
    | compared read inspected =>
      obtain ⟨s₁,first,second,rows⟩ := reads t (List.mem_of_getElem? calls.found) _ _ read
      exact ⟨_,_,s₁,rfl,read,inspected,same _ rfl,rows,first,second⟩

theorem inventory_current {s₀ s s' : World fingerprint} {l : Label Digest} (start : s₀.ticks = []) (reached : Runs s₀ s)
    (moved : step fingerprint l s = some s') : Current s₀ s l s' := by
  have reads := reads_run start reached
  cases l with
  | platform l =>
    obtain ⟨platform,_,rfl⟩ := Option.map_eq_some_iff.mp moved
    refine ⟨fun changed => ?_,fun wrong => (by cases wrong),fun wrong => (by cases wrong)⟩
    simp at changed
  | tick =>
    cases moved
    refine ⟨fun changed => ?_,fun wrong => (by cases wrong),fun wrong => (by cases wrong)⟩
    simp at changed
  | due project time =>
    cases moved
    refine ⟨fun {other} changed => ?_,fun wrong => (by cases wrong),fun wrong => (by cases wrong)⟩
    simp only [scanOf_insert] at changed
    by_cases same : other = project
    · simp [same] at changed
    · simp [same] at changed
  | run i fault pick forgery =>
    obtain ⟨t,c,x,calls,performed⟩ := run_cases moved
    have changes := perform_changes performed
    refine ⟨fun {project} changed => ?_,?_,?_⟩
    · refine ⟨i,fault,pick,forgery,t,?_⟩
      cases changes with
      | nothing same => simp [same] at changed
      | @claimed worker picked columns =>
        rw [columns,scanOf_insert] at changed
        by_cases same : project = picked
        · simp [same,Scan.claimed] at changed
        · simp [same] at changed
      | @published scanned worker before result columns =>
        rw [columns,scanOf_insert] at changed ⊢
        by_cases same : project = scanned
        · subst same
          rw [if_pos rfl] at changed ⊢
          rcases @publish_cases _ fingerprint _ (scanOf s.scans project) (bindingSQL s.platform.db project) worker before
            result s.platform.db.now with unchanged | ⟨leased,r,published,outcome⟩
          · simp [unchanged] at changed
          · exact ⟨r,rfl,calls.found,published,calls.publishes reads leased outcome⟩
        · simp [same] at changed
    · intro i' fault' pick' forgery' u project label found claimed unleased
      cases label
      rw [calls.found] at found
      cases found
      cases changes with
      | nothing same => rw [same]
      | claimed columns => exact absurd calls.licensed.1 claimed
      | @published scanned worker before result columns =>
        obtain ⟨_,rfl,_⟩ := calls.licensed
        rw [columns,scanOf_insert]
        by_cases same : project = scanned
        · subst same
          rw [if_pos rfl]
          simp [Scan.publish,unleased]
        · rw [if_neg same]
    · intro _ _ _ _ _
      exact calls.platform

end

/-- A Kubernetes that has the project's namespace, with nothing in it. -/
def emptyNamespace : (c : ScanCall (List InventoryBinding)) → c.Answer
  | .readNamespace _ => .ok { uid := some 1, labels := { projectId := some 1, managed := true } }
  | .listInstances _ _ => .ok ⟨[],none⟩
  | .listVolumes _ _ => .ok ⟨[],none⟩
  | .claim _ | .bindings _ | .publish _ _ _ _ => .error (.api none)
def scanStep : Label (List InventoryBinding) := .run 0 .delivered 1 emptyNamespace

/-- An instance is admitted, and a tick scans its project until it publishes. -/
def scanning : List (Label (List InventoryBinding)) :=
  Platform.admitting.map .platform ++ [.tick] ++ List.replicate 6 scanStep

theorem inventory_current_scanning : ∃ s s' : World (id : List InventoryBinding → _), Runs { platform := Platform.small } s ∧
    step id scanStep s = some s' ∧
    (scanOf s'.scans 1).result.any (fun r => r.state = .inProgress ∧ r.busyInstances = 1) = true ∧
    Current { platform := Platform.small } s scanStep s' := by
  obtain ⟨s,reached,holds⟩ := reaches_of_run (fun _ _ _ => trivial)
    (show (run (step id) (fun _ _ => true) scanning { platform := Platform.small }).any (fun s =>
      (step id scanStep s).any (fun s' =>
        (scanOf s'.scans 1).result.any (fun r => r.state = .inProgress ∧ r.busyInstances = 1))) = true by decide +kernel)
  rw [Option.any_eq_true] at holds
  obtain ⟨s',moved,busy⟩ := holds
  exact ⟨s,s',reached,moved,busy,inventory_current rfl reached moved⟩

end Expbuild.Scans
