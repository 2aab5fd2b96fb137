import Expbuild.Completion
import Expbuild.Reconciling
import Expbuild.Versions

/-!
The specification that the inventory expects of an instance is the one of its newest
operation that has any, whatever became of that operation. One that ended superseded
never wrote it, and then an instance that is exactly as it was last written is reported
as drift: `superseded_drift` says when, and that this is all there is to it.
-/
namespace Expbuild.Supersession
open Expbuild.Contract Expbuild.Schema Expbuild.Tables Expbuild.Platform Expbuild.Runs Expbuild.ApiServer
open Expbuild.Calls Expbuild.Transactions Expbuild.Effects Expbuild.Rows Expbuild.Origins Expbuild.Versions Expbuild.Completion
open Expbuild.Inventory Expbuild.Drift Expbuild.Reconciling

/-! ### What is to be shown -/

/-- The order of `created_at,id`. -/
def Later (o p : Operation) : Prop := o.createdAt < p.createdAt ∨ (o.createdAt = p.createdAt ∧ o.id < p.id)

/-- An operation of an instance. -/
structure Of (db : Db) (i : InstanceId) (o : Operation) : Prop where
  row : db.operations.lookup o.id = some o
  own : o.instanceId = some i

/-- The record has a write of the operation. -/
def Wrote (s : System) (id : OperationId) : Prop := ∃ w ∈ s.kube.writes, w.operationId = some id

/-- An idle instance as the last operation that wrote it left it; all later ones ended
    superseded, and did not write. -/
structure Settled (s : System) (i : InstanceId) (b : Binding) (e : Object) (o : Operation) : Prop where
  binding : s.db.bindings.lookup i = some b
  active : b.lifecycle = .active
  idle : ∀ p, Of s.db i p → p.state.active = false
  object : ∃ ns, s.kube.at (ns,b.resourceName) = some e ∧ e.key = (ns,b.resourceName)
  writer : Of s.db i o
  last : ∃ w, s.kube.writes.find? (fun w => w.uid = e.uid) = some w ∧ w.operationId = some o.id
  written : o.request.desired.map (fun desired => desired.spec) = some e.spec
  later : ∀ p, Of s.db i p → Later o p → p.state = .superseded ∧ ¬Wrote s p.id

/-- The comparison reports that the configuration of an instance drifted. -/
def Reports (project : ProjectId) (rows : List InventoryBinding) (resources : InventoryResources) (i : InstanceId) : Prop :=
  ∃ issue ∈ (compareInventory project rows resources).issues, issue.code = .configurationDrift ∧ issue.instanceId = some i

/-- What is observed has unique names, and the object is there. -/
structure Observed (e : Object) (resources : InventoryResources) : Prop where
  instances : (resources.instances.map (fun c => c.name)).Nodup
  volumes : (resources.volumes.map (fun v => v.name)).Nodup
  listed : render e ∈ resources.instances

/-- Neither a scan of the project nor a reconciliation of the instance finds drift. -/
def Quiet (s : System) (i : InstanceId) (b : Binding) (e : Object) : Prop :=
  ∀ resources, Observed e resources → ¬Reports b.projectId (bindingSQL s.db b.projectId) resources i ∧
    ¬Reports b.projectId [bindingRow s.db i b] resources i

/-- The newest operation that carries a specification came after the last one that
    wrote, and carries another specification. -/
def Unheeded (s : System) (i : InstanceId) (e : Object) (o : Operation) : Prop :=
  ∃ p, Of s.db i p ∧ Later o p ∧ (∃ desired, p.request.desired = some desired ∧ desired.spec ≠ e.spec) ∧
    ∀ q, Of s.db i q → q.request.desired.isSome → ¬Later p q

/-- No check before the one of the configuration is in the way. -/
def Comparable (s : System) (i : InstanceId) (b : Binding) (e : Object) : Prop :=
  InstanceOwn b.projectId { bindingRow s.db i b with expectedSpec := none } (render e)

/-- Nothing that carries a specification is superseded before it was written. -/
def Heeds (s : System) (l : Label) : Prop :=
  ∀ t o p code change, Executes s l t (.db (.finish p .superseded code change)) → s.db.operations.lookup p.id = some o →
    o.request.desired = none ∨ Wrote s o.id

/-! ### The expected specification -/

/-- The last element of a sorted list that has a value is the greatest such one. -/
theorem findSome_greatest {α β : Type} {r : α → α → Prop} {f : α → Option β} {xs : List α} {v : β} (sorted : xs.Pairwise r)
    (first : xs.reverse.findSome? f = some v) : ∃ x ∈ xs, f x = some v ∧ ∀ y ∈ xs, (f y).isSome → y = x ∨ r y x := by
  obtain ⟨front,x,rest,split_,value,none_⟩ := List.findSome?_eq_some_iff.mp first
  have whole : xs = rest.reverse ++ x :: front.reverse := by
    rw [← List.reverse_reverse xs,split_]
    simp
  subst whole
  refine ⟨x,by simp,value,fun y member some_ => ?_⟩
  rw [List.mem_append,List.mem_cons,List.mem_reverse,List.mem_reverse] at member
  rcases member with before | rfl | after
  · exact .inr ((List.pairwise_append.mp sorted).2.2 y (List.mem_reverse.mpr before) x List.mem_cons_self)
  · exact .inl rfl
  · rw [none_ y after] at some_
    cases some_

theorem newer_total (c d k l : Nat) : (c < d ∨ (c = d ∧ k ≤ l)) ∨ (d < c ∨ (d = c ∧ l ≤ k)) := by omega
theorem newer_trans (c d f k l m : Nat) (first : c < d ∨ (c = d ∧ k ≤ l)) (second : d < f ∨ (d = f ∧ l ≤ m)) :
    c < f ∨ (c = f ∧ k ≤ m) := by omega
theorem newer_irrefl (c d k l : Nat) (first : c < d ∨ (c = d ∧ k ≤ l)) (second : d < c ∨ (d = c ∧ l < k)) : False := by omega

theorem operationsOf_sorted (db : Db) (i : InstanceId) :
    (operationsOf db i).Pairwise (fun o p => o.createdAt < p.createdAt ∨ (o.createdAt = p.createdAt ∧ o.id ≤ p.id)) := by
  have total : Std.Total (fun o p : Operation => o.createdAt < p.createdAt ∨ (o.createdAt = p.createdAt ∧ o.id ≤ p.id)) :=
    ⟨fun o p => newer_total o.createdAt p.createdAt o.id p.id⟩
  have trans : IsTrans Operation (fun o p => o.createdAt < p.createdAt ∨ (o.createdAt = p.createdAt ∧ o.id ≤ p.id)) :=
    ⟨fun o p q => newer_trans o.createdAt p.createdAt q.createdAt o.id p.id q.id⟩
  exact List.pairwise_insertionSort _ _

theorem mem_operationsOf {db : Db} {i : InstanceId} (sound : Sound db) {o : Operation} : o ∈ operationsOf db i ↔ Of db i o := by
  rw [operationsOf,List.mem_insertionSort,List.mem_filter,List.mem_map,decide_eq_true_eq]
  constructor
  · rintro ⟨⟨⟨id,p⟩,member,rfl⟩,own⟩
    have row := AList.mem_lookup_iff.mpr member
    exact ⟨by rw [sound.id row]; exact row,own⟩
  · rintro ⟨row,own⟩
    exact ⟨⟨⟨o.id,o⟩,AList.mem_lookup_iff.mp row,rfl⟩,own⟩

section
variable {s : System} {i : InstanceId} {b : Binding} {e : Object} {o : Operation}

/-- What is expected differs from what was written exactly where a later operation asks
    for something else. -/
theorem expected_differs (sound : Sound s.db) (settled : Settled s i b e o) :
    (∃ spec, (bindingRow s.db i b).expectedSpec = some spec ∧ e.spec ≠ spec) ↔ Unheeded s i e o := by
  have mine := (mem_operationsOf sound).mpr settled.writer
  obtain ⟨wanted,asks,same⟩ := Option.map_eq_some_iff.mp settled.written
  have order : ∀ p q : Operation, Of s.db i p → Of s.db i q → p.createdAt = q.createdAt → p = q := by
    intro p q first second at_
    have id := sound.order first.row second.row at_
    have row := first.row
    rw [id,second.row] at row
    exact (Option.some.inj row).symm
  -- the newest one that has a specification
  obtain ⟨desired,found⟩ : ∃ desired, (operationsOf s.db i).reverse.findSome? (fun o => o.request.desired) = some desired := by
    rw [← Option.isSome_iff_exists,List.findSome?_isSome_iff]
    exact ⟨o,List.mem_reverse.mpr mine,by rw [asks]; rfl⟩
  have expected : (bindingRow s.db i b).expectedSpec = some desired.spec := by
    show ((operationsOf s.db i).reverse.findSome? (fun o => o.request.desired)).map (fun desired => desired.spec) = _
    rw [found]
    rfl
  obtain ⟨p,member,value,greatest⟩ := findSome_greatest (operationsOf_sorted s.db i) found
  have newest := (mem_operationsOf sound).mp member
  constructor
  · rintro ⟨spec,recorded,differs⟩
    rw [expected] at recorded
    cases recorded
    refine ⟨p,newest,?_,⟨desired,value,fun equal => differs equal.symm⟩,fun q ofq carries later => ?_⟩
    · rcases greatest o mine (by rw [asks]; rfl) with rfl | before | ⟨at_,_⟩
      · rw [asks] at value
        cases value
        exact absurd same.symm differs
      · exact .inl before
      · obtain rfl := order o p settled.writer newest at_
        rw [asks] at value
        cases value
        exact absurd same.symm differs
    · rcases greatest q ((mem_operationsOf sound).mpr ofq) carries with rfl | before
      · rcases later with wrong | ⟨_,wrong⟩
        · exact Nat.lt_irrefl _ wrong
        · exact Nat.lt_irrefl _ wrong
      · exact newer_irrefl q.createdAt p.createdAt q.id p.id before later
  · rintro ⟨q,ofq,later,⟨desired',asks',differs⟩,newer⟩
    have carries : q.request.desired.isSome := by rw [asks']; rfl
    have same_ : q = p := by
      rcases greatest q ((mem_operationsOf sound).mpr ofq) carries with same | before | ⟨at_,_⟩
      · exact same
      · exact absurd (.inl before) (newer p newest (by rw [value]; rfl))
      · exact order q p ofq newest at_
    subst same_
    rw [asks'] at value
    cases value
    exact ⟨_,expected,fun equal => differs equal.symm⟩

end

/-! ### What is reported -/

/-- A reservation is never a configuration. -/
theorem checkReservation_reserves {values : List (Option String)} {reserved : Option Nat} {suffix : String} :
    ∀ code ∈ checkReservation values reserved suffix, Reserves code := by
  intro code member
  unfold checkReservation at member
  split at member
  · exact .inl (List.mem_singleton.mp member)
  · split at member
    · exact .inr (.inr (List.mem_singleton.mp member))
    · split at member
      · exact .inr (.inl (List.mem_singleton.mp member))
      · cases member

/-- The configuration of a running instance is compared once nothing else is wrong with
    it. -/
theorem drift_iff {project : ProjectId} {b : InventoryBinding} {c : CacheObject} (running : b.lifecycle.released = false) :
    IssueCode.configurationDrift ∈ instanceIssues project b c ↔
      InstanceOwn project { b with expectedSpec := none } c ∧ ∃ spec, b.expectedSpec = some spec ∧ c.spec ≠ spec := by
  have other : ¬Reserves .configurationDrift := by simp [Reserves]
  constructor
  · intro member
    unfold instanceIssues at member
    simp only [running,Bool.not_false,Bool.true_and,Bool.false_eq_true,if_false,List.mem_append] at member
    rcases member with member | member
    · split at member
      · simp at member
      rename_i own
      split at member
      · simp at member
      rename_i labels
      split at member
      · simp at member
      rename_i stays
      split at member
      · simp at member
      rename_i template
      split at member
      · simp at member
      rename_i version
      split at member
      · rename_i differs
        simp only [Bool.not_eq_true',Bool.not_eq_false] at own labels
        simp only [Bool.and_eq_true,decide_eq_true_eq] at own
        obtain ⟨⟨⟨ofProject,id⟩,known⟩,uid⟩ := own
        obtain ⟨uid',known⟩ := Option.isSome_iff_exists.mp known
        obtain ⟨version',known'⟩ := Option.ne_none_iff_exists'.mp version
        rw [not_or,known'] at template
        simp only [Option.any_some,decide_eq_true_eq,not_not] at template
        obtain ⟨spec,recorded,unequal⟩ := (Option.any_eq_true _ _).mp differs
        refine ⟨⟨ofProject,id,⟨uid',known,by rw [uid,known]⟩,?_,by simpa using stays,template.1,?_,fun _ wrong => (by cases wrong)⟩,
          spec,recorded,of_decide_eq_true unequal⟩
        · obtain ⟨ofProject',id',managed⟩ := labelled_iff.mp labels
          exact ⟨ofProject',id',managed⟩
        · rw [template.2]
          exact known'
      · cases member
    · split at member
      · rcases List.mem_append.mp member with member | member
        · rcases List.mem_append.mp member with member | member
          · exact absurd (checkReservation_reserves _ member) other
          · exact absurd (checkReservation_reserves _ member) other
        · exact absurd (checkReservation_reserves _ member) other
      · cases member
  · rintro ⟨⟨ofProject,id,⟨uid,known,same⟩,⟨ofProject',id',managed⟩,stays,template,version,_⟩,spec,recorded,differs⟩
    have own : (decide (c.spec.projectId = project) && decide (c.spec.instanceId = b.id) && b.kubernetesUid.isSome &&
        decide (c.uid = b.kubernetesUid)) = true := by
      simp [ofProject,show c.spec.instanceId = b.id from id,show b.kubernetesUid = some uid from known,same]
    have labels : labelled project b c.labels = true := labelled_iff.mpr ⟨ofProject',id',managed⟩
    unfold instanceIssues
    simp [running,own,labels,stays,show c.spec.templateName = b.templateName from template,
      show b.templateVersion = some c.spec.templateVersion from version,recorded,differs]

theorem volumeCodes_other {project : ProjectId} {b : InventoryBinding} {v : Option InventoryVolume} :
    IssueCode.configurationDrift ∉ volumeCodes project b v := by
  have other : ¬Reserves .configurationDrift := by simp [Reserves]
  cases v with
  | none => cases state : b.lifecycle <;> simp [volumeCodes,state]
  | some v =>
    intro member
    change _ ∈ volumeIssues project b v at member
    unfold volumeIssues at member
    split at member
    · simp at member
    split at member
    · simp at member
    split at member
    · simp at member
    rcases List.mem_append.mp member with member | member
    · split at member
      · cases member
      · simp at member
    · exact other (checkReservation_reserves _ member)

section
variable {project : ProjectId} {rows : List InventoryBinding} {row : InventoryBinding} {resources : InventoryResources} {e : Object}

theorem observed_render (observed : Observed e resources) (named : e.key.2 = row.resourceName) :
    observedInstance resources row = some (render e) :=
  (getEntry_some observed.instances).mpr ⟨observed.listed,named⟩

/-- A report is about the object that is there. -/
theorem Reports.drift (distinct : (rows.map (fun r => r.resourceName)).Nodup) (observed : Observed e resources)
    (named : e.key.2 = row.resourceName) (only : ∀ r ∈ rows, r.id = row.id → r = row)
    (reports : Reports project rows resources row.id) : IssueCode.configurationDrift ∈ instanceIssues project row (render e) := by
  obtain ⟨issue,member,code,about⟩ := reports
  rw [compareInventory_eq distinct observed.instances observed.volumes] at member
  cases mem_allIssues.mp (List.mem_of_mem_take member) with
  | @binding r _ known _ raised =>
    obtain rfl : r = row := only r known (Option.some.inj ((bindingIssues_about raised).1.symm.trans about))
    rw [observed_render observed named] at raised
    rcases mem_bindingIssues.mp raised with ⟨_,inside,rfl⟩ | ⟨_,inside,rfl⟩
    · cases code
      exact inside
    · cases code
      exact absurd inside volumeCodes_other
  | strangeInstance _ _ => cases about
  | strangeVolume _ _ => cases about

theorem reports_row (observed : Observed e resources) (named : e.key.2 = row.resourceName) (idle : row.busy = false)
    (drift : IssueCode.configurationDrift ∈ instanceIssues project row (render e)) : Reports project [row] resources row.id := by
  have raised : (⟨.configurationDrift,.cacheInstance row.resourceName,some row.id⟩ : InventoryIssue) ∈
      bindingIssues project row (observedInstance resources row) (observedVolume resources row) := by
    refine mem_bindingIssues.mpr (.inl ⟨_,?_,rfl⟩)
    rw [observed_render observed named]
    exact drift
  rw [← reported_eq observed.instances observed.volumes idle] at raised
  exact ⟨_,(List.mem_filter.mp raised).1,rfl,rfl⟩

end

theorem bindingSQL_ids (db : Db) (project : ProjectId) : ((bindingSQL db project).map (fun r => r.id)).Nodup := by
  have keys : (((db.bindings.entries.filter (fun row => row.2.projectId = project)).map
      (fun row => bindingRow db row.1 row.2)).map (fun r => r.id)).Nodup := by
    rw [List.map_map]
    exact List.Nodup.sublist (List.Sublist.map _ List.filter_sublist) db.bindings.nodupKeys
  refine List.Nodup.sublist (List.Sublist.map _ (List.take_sublist _ _)) ?_
  exact ((List.perm_insertionSort _ _).map _).nodup_iff.mpr keys

theorem bindingSQL_names {db : Db} (placed : Placed db) (project : ProjectId) :
    ((bindingSQL db project).map (fun r => r.resourceName)).Nodup := by
  have named : ∀ r ∈ bindingSQL db project, r.resourceName = ⟨r.id⟩ := by
    intro r member
    obtain ⟨b,found,same⟩ := mem_bindingSQL member
    obtain ⟨_,b',_,found',name,_⟩ := placed found
    rw [found] at found'
    cases found'
    rw [← same]
    exact name
  rw [List.map_congr_left named]
  have ids := (bindingSQL_ids db project).map (f := ResourceName.mk) (fun x y same => (by cases same; rfl))
  rwa [List.map_map] at ids

section
variable {s : System} {i : InstanceId} {b : Binding} {e : Object} {o : Operation}

theorem Settled.named (settled : Settled s i b e o) : e.key.2 = (bindingRow s.db i b).resourceName := by
  obtain ⟨_,_,key⟩ := settled.object
  rw [key]
  rfl

theorem Settled.unbusy (sound : Sound s.db) (settled : Settled s i b e o) : (bindingRow s.db i b).busy = false := by
  show (operationsOf s.db i).any (fun o => o.state.active) = false
  rw [List.any_eq_false]
  intro p member
  rw [settled.idle p ((mem_operationsOf sound).mp member)]
  decide

/-- No drift is reported exactly where nothing later asks for something else, or where
    something else is wrong. -/
theorem quiet_iff (sound : Sound s.db) (placed : Placed s.db) (settled : Settled s i b e o) :
    Quiet s i b e ↔ ¬(Comparable s i b e ∧ Unheeded s i e o) := by
  have running : (bindingRow s.db i b).lifecycle.released = false := by
    show b.lifecycle.released = false
    rw [settled.active]
    rfl
  have drift : _ ∈ instanceIssues b.projectId _ (render e) ↔ _ := drift_iff running
  rw [show (∃ spec, (bindingRow s.db i b).expectedSpec = some spec ∧ (render e).spec ≠ spec) ↔ Unheeded s i e o from
    expected_differs sound settled] at drift
  constructor
  · rintro quiet ⟨own,unheeded⟩
    have observed : Observed e ⟨[render e],[]⟩ := ⟨by simp,by simp,List.mem_cons_self⟩
    exact (quiet _ observed).2 (reports_row observed settled.named (settled.unbusy sound) (drift.mpr ⟨own,unheeded⟩))
  · intro harmless resources observed
    have single : ([bindingRow s.db i b].map (fun r => r.resourceName)).Nodup := by simp
    refine ⟨fun reports => ?_,fun reports => ?_⟩
    · refine harmless (drift.mp (Reports.drift (bindingSQL_names placed _) observed settled.named (fun r member same => ?_) reports))
      obtain ⟨b',found,row⟩ := mem_bindingSQL member
      rw [show r.id = i from same,settled.binding] at found
      cases found
      rw [← row,show r.id = i from same]
    · exact harmless (drift.mp (Reports.drift single observed settled.named
        (fun r member _ => List.mem_singleton.mp member) reports))

end

/-! ### Runs -/

/-- Whatever was superseded had written what it carried. -/
structure Heeded (s : System) : Prop where
  grounded : Grounded s
  written : ∀ {id o}, s.db.operations.lookup id = some o → o.state = .superseded → o.request.desired = none ∨ Wrote s id

section
variable {s s' : System} {l : Label}

theorem wrote_step (grounded : Grounded s) (ours : Ours s l) (moved : step l s = some s') {id : OperationId} (wrote : Wrote s id) :
    Wrote s' id := by
  obtain ⟨w,member,named⟩ := wrote
  have kept : ∀ w ∈ s.kube.writes, w ∈ s'.kube.writes := by
    intro w member
    cases step_edits grounded ours moved with
    | kept _ writes | deleted _ _ writes | removed _ _ _ writes => rwa [writes]
    | created _ _ writes | updated _ _ writes =>
      rw [writes]
      exact List.mem_cons_of_mem _ member
    | touched _ _ _ _ writes =>
      rcases writes with writes | ⟨_,_,_,_,_,writes⟩
      · rwa [writes]
      · rw [writes]
        exact List.mem_cons_of_mem _ member
  exact ⟨w,kept w member,named⟩

theorem Heeded.step (heeded : Heeded s) (ours : Ours s l) (heeds : Heeds s l) (moved : step l s = some s') : Heeded s' := by
  refine ⟨heeded.grounded.step ours.unforged moved,fun {id o'} row' ended => ?_⟩
  have exactly_ := exactlyOnce heeded.grounded.consistent moved
  cases row : s.db.operations.lookup id with
  | none =>
    -- a row that was not there is pending
    rcases step_db moved with idle | ⟨_,_,_,_,_,_,_,ran⟩
    · rw [idle.operations,row] at row'
      cases row'
    · have opened := Txn.opened (transact_cases ran) row row'
      rw [opened.pending] at ended
      cases ended
  | some o =>
    obtain ⟨o'',found,same⟩ := (step_evolves moved).operations row
    rw [row'] at found
    cases found
    rw [asked_desired same]
    have kept : o.request.desired = none ∨ Wrote s id → o.request.desired = none ∨ Wrote s' id :=
      fun holds => holds.imp_right (wrote_step heeded.grounded ours moved)
    cases before : o.state with
    | superseded => exact kept (heeded.written row before)
    | succeeded =>
      rw [exactly_.absorbing row row' (.inl before),before] at ended
      cases ended
    | failed =>
      have left := (exactly_.reopened row row' before (by rw [ended]; decide)).1
      rw [left] at ended
      cases ended
    | pending | applying | reconciling =>
      obtain ⟨_,t,p,code,change,named,executes,_⟩ := exactly_.entered row row' (by rw [before]; rfl) (by rw [ended]; rfl)
      rw [ended] at executes
      subst named
      have holds := heeds t o p code change executes row
      rw [heeded.grounded.consistent.sound.id row] at holds
      exact kept holds

end

/-- An instance as it was last written is reported as drift exactly where a superseded
    operation asks for something else, and never in a run in which nothing is superseded
    before it wrote what it carries. -/
theorem superseded_drift {a s : System} {i : InstanceId} {b : Binding} {e : Object} {o : Operation} (start : Start a)
    (reached : Reaches step Ours a s) (settled : Settled s i b e o) :
    (Quiet s i b e ↔ ¬(Comparable s i b e ∧ Unheeded s i e o)) ∧
      (Reaches step (fun s l => Ours s l ∧ Heeds s l) a s → Quiet s i b e) := by
  have grounded : Grounded s := reached.invariant (.start start) (fun grounded ours moved => grounded.step ours.unforged moved)
  have exact_ := quiet_iff grounded.consistent.sound grounded.placed settled
  refine ⟨exact_,fun heeding => ?_⟩
  have nothing : ∀ {id o}, a.db.operations.lookup id ≠ some o := by
    intro id o row
    rw [start.operations] at row
    cases row
  have heeded : Heeded s := heeding.invariant ⟨.start start,fun row _ => absurd row nothing⟩
    (fun heeded may moved => heeded.step may.1 may.2 moved)
  rw [exact_]
  rintro ⟨_,p,ofp,later,⟨desired,asks,_⟩,_⟩
  obtain ⟨superseded,unwritten⟩ := settled.later p ofp later
  rcases heeded.written ofp.row superseded with none_ | wrote
  · rw [asks] at none_
    cases none_
  · exact unwritten wrote

/-! ### An update that comes too late -/

/-- The checks of `Settled`, on the operation that the last write names. -/
def settles (s : System) (i : InstanceId) (ns : Namespace) : Option (Binding × Object × Operation) := do
  let b ← s.db.bindings.lookup i
  let e ← s.kube.at (ns,b.resourceName)
  let w ← s.kube.writes.find? (fun w => w.uid = e.uid)
  let id ← w.operationId
  let o ← s.db.operations.lookup id
  let mine (p : Operation) : Bool := p.instanceId = some i
  if b.lifecycle = .active ∧ e.key = (ns,b.resourceName) ∧ o.id = id ∧ o.instanceId = some i ∧
      o.request.desired.map (fun desired => desired.spec) = some e.spec ∧
      anyRow (fun _ p => mine p && p.state.active) s.db.operations = false ∧
      anyRow (fun k p => mine p && (o.createdAt < p.createdAt ∨ (o.createdAt = p.createdAt ∧ o.id < p.id)) &&
        (p.state ≠ .superseded || s.kube.writes.any (fun w => w.operationId = some k))) s.db.operations = false
  then some (b,e,o) else none

theorem settled_of_settles {s : System} {i : InstanceId} {ns : Namespace} {b : Binding} {e : Object} {o : Operation}
    (checked : settles s i ns = some (b,e,o)) : Settled s i b e o := by
  simp only [settles,Option.bind_eq_bind,Option.bind_eq_some_iff,Option.ite_none_right_eq_some,Option.some.injEq,Prod.mk.injEq,
    anyRow_false_iff] at checked
  obtain ⟨b',binding,e',object,w,last,id,named,o',row,⟨active,key,rfl,own,written,idle,later⟩,rfl,rfl,rfl⟩ := checked
  refine ⟨binding,active,fun p ofp => ?_,⟨ns,object,key⟩,⟨row,own⟩,⟨w,last,named⟩,written,fun p ofp after => ?_⟩
  · simpa [ofp.own] using idle p.id p ofp.row
  · have fine := later p.id p ofp.row
    have newer : decide (o'.createdAt < p.createdAt ∨ (o'.createdAt = p.createdAt ∧ o'.id < p.id)) = true := decide_eq_true after
    rw [newer] at fine
    simp only [ofp.own,decide_true,Bool.true_and,Bool.or_eq_false_iff,decide_eq_false_iff_not,ne_eq,not_not,List.any_eq_false,
      decide_eq_true_eq] at fine
    exact ⟨fine.1,fun ⟨w,member,named⟩ => fine.2 w member named⟩

/-- The step does not supersede anything. -/
def keeps (s : System) (l : Label) : Bool :=
  decide (Closed l) && match calling s l with
  | some (.db (.finish _ .superseded _ _)) => false
  | _ => true

theorem heeds_of_keeps (s : System) (l : Label) (check : keeps s l = true) : Ours s l ∧ Heeds s l := by
  simp only [keeps,Bool.and_eq_true,decide_eq_true_eq] at check
  refine ⟨Closed.ours check.1,fun t o p code change executes _ => ?_⟩
  rw [executes_calling executes] at check
  cases check.2

theorem superseded_drift_active : ∃ s b e o, Settled s 100 b e o ∧ Quiet s 100 b e := by
  obtain ⟨s,reached,holds⟩ := reaches_of_run heeds_of_keeps
    (show (run step keeps activating small).any (fun s => (settles s 100 ⟨1⟩).isSome) = true by decide +kernel)
  obtain ⟨⟨b,e,o⟩,checked⟩ := Option.isSome_iff_exists.mp holds
  have settled := settled_of_settles checked
  have quiet := (superseded_drift small_start (reached.mono (fun _ _ may => may.1)) settled).2 reached
  exact ⟨s,b,e,o,settled,quiet⟩

def slowInput : InstanceInput := { smallInput with memoryMiB := 600, memoryBounds := by decide }
def quickInput : InstanceInput := { smallInput with memoryMiB := 700, memoryBounds := by decide }
/-- Two updates read the same revision. One is admitted, applied and done before the
    other one is admitted, which is superseded. -/
def overtaking : List Label :=
  activating ++ [.request smallOptions (.updateInstance (administrator "slow") 100 slowInput ⟨some 0,some 1⟩)] ++ calls 3 4 ++
    [.request smallOptions (.updateInstance (administrator "quick") 100 quickInput ⟨some 0,some 1⟩)] ++ calls 4 5 ++
    [.tick false] ++ calls 5 7 { operation := 104 } ++ [reports 2 "True" "Ready",.wait 3,.tick false] ++
    calls 6 5 { operation := 104 } ++ calls 3 1 ++ [.tick false] ++ calls 7 4 { operation := 103 }

/-- The superseded request is reported as drift. -/
theorem superseded_reported : ∃ s b e o, Reaches step Ours small s ∧ Settled s 100 b e o ∧ ¬Quiet s 100 b e := by
  obtain ⟨s,reached,holds⟩ := reaches_of_run (fun _ _ check => Closed.ours (of_decide_eq_true check))
    (show (run step (fun _ l => decide (Closed l)) overtaking small).any (fun s => (settles s 100 ⟨1⟩).any (fun found =>
      (compareInventory found.1.projectId (bindingSQL s.db found.1.projectId) ⟨[render found.2.1],[]⟩).issues.any (fun issue =>
        issue.code = .configurationDrift && issue.instanceId = some 100))) = true by decide +kernel)
  obtain ⟨⟨b,e,o⟩,checked,reported⟩ := (Option.any_eq_true _ _).mp holds
  obtain ⟨issue,member,about⟩ := List.any_eq_true.mp reported
  simp only [Bool.and_eq_true,decide_eq_true_eq] at about
  refine ⟨s,b,e,o,reached,settled_of_settles checked,fun quiet => ?_⟩
  exact (quiet ⟨[render e],[]⟩ ⟨by simp,by simp,List.mem_cons_self⟩).1 ⟨issue,member,about⟩

end Expbuild.Supersession
