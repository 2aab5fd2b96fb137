import Expbuild.Reservations

/-!
Where things come from, when Kubernetes answers as it does. Every object that a
program saw is a version that the store had (`Sighted`), and every operation asks for
what its request was made of (`Origin`): a creation for its input, an update and a
rotation for the version that was read, a reclaim for the volume of the bound object.
-/
namespace Expbuild.Origins
open Expbuild.Contract Expbuild.Schema Expbuild.Tables Expbuild.Objects Expbuild.Quotas Expbuild.Programs
open Expbuild.Runs Expbuild.Calls Expbuild.Kubernetes Expbuild.Transactions Expbuild.Effects Expbuild.Platform
open Expbuild.ApiServer Expbuild.Licences Expbuild.Licensing Expbuild.Rows Expbuild.Reservations

/-- Kubernetes answers as it does. -/
def Unforged : Label → Prop
  | .forge _ _ => False
  | _ => True

/-- Only the platform creates, edits and deletes objects. -/
def Closed : Label → Prop
  | .forge _ _ => False
  | .act a => a.own = true
  | _ => True

instance (l : Label) : Decidable (Closed l) :=
  match l with
  | .forge _ _ => .isFalse id
  | .act a => inferInstanceAs (Decidable (a.own = true))
  | .tick _ | .request _ _ | .run _ _ _ | .wait _ | .accounts _ _ => .isTrue trivial

theorem Closed.unforged {l : Label} (closed : Closed l) : Unforged l := by
  cases l <;> first | exact closed | trivial

/-! ### What programs saw -/

section
variable {s s' : System} {l : Label}

theorem step_objects (wf : Wf s.kube.objects) (moved : step l s = some s') :
    Step s.kube.objects s'.kube.objects := by
  have same : s'.kube = s.kube → Step s.kube.objects s'.kube.objects := fun eq => eq ▸ .idle
  cases step_moves moved with
  | idle idle kube threads fresh => exact same kube
  | heard makes heard =>
    cases heard with
    | served executes ran db answer => exact serve_step wf ran
    | transacted executes ran kube answer => exact same kube
    | aborted db kube why | rejected db kube why | forged label db kube | clock db kube => exact same kube
  | acted label acts db threads fresh => exact act_step wf acts

/-- Where only the platform writes, an object appears by a creation of a worker. -/
theorem appears (wf : Wf s.kube.objects) (closed : Closed l) (moved : step l s = some s') {k : Key} {e : Object}
    (absent : s.kube.at k = none) (present : s'.kube.at k = some e) :
    ∃ t body x, Makes s s' t (.kube (.createInstance body)) x ∧ Executes s l t (.kube (.createInstance body)) ∧
      k = (body.ns,body.name) := by
  obtain ⟨metadata,spec,created⟩ := (step_objects wf moved).appears wf absent present
  have more : s'.kube.objects.nextUid = s.kube.objects.nextUid + 1 := by rw [created]; rfl
  have same : s'.kube = s.kube → False := by
    intro eq
    rw [eq] at more
    omega
  cases step_moves moved with
  | idle idle kube threads fresh => exact (same kube).elim
  | heard makes heard =>
    cases heard with
    | served executes ran db answer =>
      rename_i call v _
      by_cases creates : ∃ body, call = .createInstance body
      · obtain ⟨body,rfl⟩ := creates
        obtain ⟨_,objects,_⟩ := serve_create ran
        refine ⟨_,body,_,makes,executes,?_⟩
        rw [show s'.kube.at k = s'.kube.objects.live.lookup k from rfl,objects] at present
        rcases lookup_insert_some present with ⟨same,_⟩ | ⟨_,found⟩
        · exact same
        · rw [show s.kube.objects.live.lookup k = none from absent] at found
          cases found
      · have := nextUid_serve ran (fun body eq => creates ⟨body,eq⟩)
        omega
    | transacted executes ran kube answer => exact (same kube).elim
    | aborted db kube why | rejected db kube why | forged label db kube | clock db kube => exact (same kube).elim
  | acted label acts db threads fresh =>
    rw [label] at closed
    have := nextUid_act closed acts
    omega

/-- What a past saw of objects is a version of the store. -/
structure Sighted (past : List Object) (history : Past) : Prop where
  read : ∀ {ns name c}, Read history ns name c → ∃ e ∈ past, e.key = (ns,name) ∧ c = render e
  created : ∀ {body : Manifest} {c : CacheObject}, (⟨.kube (.createInstance body),.ok c⟩ : Happened) ∈ history →
    ∃ e ∈ past, e.key = (body.ns,body.name) ∧ c = render e ∧ e.deleting = false ∧
      e.metadata.annotations = body.annotations
  replaced : ∀ {ns : Namespace} {name : ResourceName} {body c : CacheObject},
    (⟨.kube (.replaceInstance ns name body),.ok c⟩ : Happened) ∈ history →
    ∃ e ∈ past, e.key = (ns,name) ∧ c = render e ∧ e.deleting = body.deleting ∧
      e.metadata.annotations = body.annotations

theorem Sighted.mono {past past' : List Object} {history : Past} (sighted : Sighted past history)
    (grows : ∀ e ∈ past, e ∈ past') : Sighted past' history where
  read seen := by
    obtain ⟨e,member,rest⟩ := sighted.read seen
    exact ⟨e,grows e member,rest⟩
  created seen := by
    obtain ⟨e,member,rest⟩ := sighted.created seen
    exact ⟨e,grows e member,rest⟩
  replaced seen := by
    obtain ⟨e,member,rest⟩ := sighted.replaced seen
    exact ⟨e,grows e member,rest⟩

/-- What an answer says about the store. -/
theorem heard_read {t : Running} {ns : Namespace} {name : ResourceName} {x : (Call.kube (.readInstance ns name)).Answer}
    {c : CacheObject} (unforged : Unforged l) (heard : Heard s l s' t (.kube (.readInstance ns name)) x)
    (answer : x = .ok c) : s'.kube = s.kube ∧ s'.db = s.db ∧ ∃ e, s.kube.at (ns,name) = some e ∧ c = render e := by
  cases heard with
  | served executes ran db answered =>
    obtain ⟨kube,e,present,value⟩ := serve_read ran
    rcases answered with same | ⟨_,same⟩
    · rw [same] at answer
      cases answer
      exact ⟨kube,db,e,present,value⟩
    · rw [same] at answer; cases answer
  | rejected db kube why => cases answer
  | forged label db kube => rw [label] at unforged; exact unforged.elim

theorem heard_absent {t : Running} {ns : Namespace} {name : ResourceName}
    {x : (Call.kube (.readInstance ns name)).Answer} {e : Failure} (unforged : Unforged l)
    (heard : Heard s l s' t (.kube (.readInstance ns name)) x) (answer : x = .error e) (gone : statusCode e = some 404) :
    s'.kube = s.kube ∧ s'.db = s.db ∧ s.kube.at (ns,name) = none := by
  have never : ∀ code : Refusal, e ≠ .api code.1 := by
    rintro code rfl
    exact code.2.1 gone
  cases heard with
  | served executes ran db answered =>
    rcases answered with same | ⟨code,same⟩
    · rw [same] at answer; cases answer
    · rw [same] at answer
      cases answer
      exact absurd rfl (never code)
  | rejected db kube why =>
    cases answer
    refine ⟨kube,db,?_⟩
    rcases why with threw | ⟨code,same⟩
    · cases present : s.kube.at (ns,name) with
      | none => rfl
      | some e => simp [serve,present,found] at threw
    · exact absurd same (never code)
  | forged label db kube => rw [label] at unforged; exact unforged.elim

theorem heard_created {t : Running} {body : Manifest} {x : (Call.kube (.createInstance body)).Answer} {c : CacheObject}
    (unforged : Unforged l) (heard : Heard s l s' t (.kube (.createInstance body)) x) (answer : x = .ok c) :
    ∃ e ∈ s'.kube.objects.past, e.key = (body.ns,body.name) ∧ c = render e ∧ e.deleting = false ∧
      e.metadata.annotations = body.annotations := by
  cases heard with
  | served executes ran db answered =>
    obtain ⟨_,objects,_,value⟩ := serve_create ran
    rcases answered with same | ⟨_,same⟩
    · rw [same] at answer
      cases answer
      exact ⟨_,by rw [objects]; exact List.mem_cons_self,rfl,value,rfl,rfl⟩
    · rw [same] at answer; cases answer
  | rejected db kube why => cases answer
  | forged label db kube => rw [label] at unforged; exact unforged.elim

/-- Who replaces an object has read it. -/
theorem replaced_read {t : Running} {ns : Namespace} {name : ResourceName} {body : CacheObject}
    {x : (Call.kube (.replaceInstance ns name body)).Answer}
    (makes : Makes s s' t (.kube (.replaceInstance ns name body)) x) : ∃ ns' name' current,
      Read t.history ns' name' current ∧ body.resourceVersion = current.resourceVersion ∧
      body.deleting = current.deleting := by
  rcases licensed_makes makes with ⟨_,_,current,write,_,_,_,rfl⟩ | ⟨_,_,current,_,write,_,_,rfl⟩
  · exact ⟨_,_,current,write.read,rfl,rfl⟩
  · exact ⟨_,_,current,write.read,rfl,rfl⟩

theorem heard_replaced {t : Running} {ns : Namespace} {name : ResourceName} {body c : CacheObject}
    {x : (Call.kube (.replaceInstance ns name body)).Answer} (wf : Wf s.kube.objects)
    (sighted : Sighted s.kube.objects.past t.history) (unforged : Unforged l)
    (makes : Makes s s' t (.kube (.replaceInstance ns name body)) x)
    (heard : Heard s l s' t (.kube (.replaceInstance ns name body)) x) (answer : x = .ok c) :
    ∃ e ∈ s'.kube.objects.past, e.key = (ns,name) ∧ c = render e ∧ e.deleting = body.deleting ∧
      e.metadata.annotations = body.annotations := by
  cases heard with
  | served executes ran db answered =>
    obtain ⟨e,present,_,version,objects,_,value⟩ := serve_replace ran
    rcases answered with same | ⟨_,same⟩
    · rw [same] at answer
      cases answer
      -- the version that was read is the one that is there
      obtain ⟨_,_,current,read,level,deleting⟩ := replaced_read makes
      obtain ⟨e',seen,_,rfl⟩ := sighted.read read
      obtain rfl : e = e' := wf.live_of_version seen present (Option.some.inj (level.symm.trans version)).symm
      exact ⟨{ replacement body e with version := s.kube.objects.nextVersion },
        by rw [objects]; exact List.mem_cons_self,show e.key = _ from wf.key present,value,deleting.symm,rfl⟩
    · rw [same] at answer; cases answer
  | rejected db kube why => cases answer
  | forged label db kube => rw [label] at unforged; exact unforged.elim

theorem sighted_step (wf : Wf s.kube.objects) (unforged : Unforged l) (moved : step l s = some s')
    (before : ∀ t ∈ s.threads, Sighted s.kube.objects.past t.history) :
    ∀ t ∈ s'.threads, Sighted s'.kube.objects.past t.history := by
  have grows : ∀ e ∈ s.kube.objects.past, e ∈ s'.kube.objects.past := fun e member =>
    (step_objects wf moved).past_subset member
  refine threads_step (fun s _ history => Sighted s.kube.objects.past history) moved before ?_ ?_ ?_
  · exact fun _ => ⟨nofun,nofun,nofun⟩
  · exact fun t _ sighted => sighted.mono grows
  · intro t c x makes heard sighted
    have older := sighted.mono grows
    refine ⟨fun {ns name c'} seen => ?_,fun {body c'} seen => ?_,fun {ns name body c'} seen => ?_⟩
    · rcases List.mem_cons.mp seen with same | seen
      · cases same
        obtain ⟨kube,_,e,present,value⟩ := heard_read unforged heard rfl
        exact ⟨e,by rw [kube]; exact wf.past present,wf.key present,value⟩
      · exact older.read seen
    · rcases List.mem_cons.mp seen with same | seen
      · cases same
        exact heard_created unforged heard rfl
      · exact older.created seen
    · rcases List.mem_cons.mp seen with same | seen
      · cases same
        exact heard_replaced wf sighted unforged makes heard rfl
      · exact older.replaced seen

end

/-! ### Where an instance is -/

/-- The instance has its object in this namespace, under its own name. -/
def Located (db : Db) (i : InstanceId) (ns : Namespace) : Prop :=
  ∃ b project, db.bindings.lookup i = some b ∧ b.resourceName = ⟨i⟩ ∧ db.projects.lookup b.projectId = some project ∧
    project.ns = ns

theorem Located.evolves {db db' : Db} (evolves : Evolves db db') {i : InstanceId} {ns : Namespace}
    (located : Located db i ns) : Located db' i ns := by
  obtain ⟨b,project,row,named,found,same⟩ := located
  obtain ⟨b',row',kept⟩ := evolves.bindings row
  obtain ⟨project',found',ns'⟩ := evolves.projects found
  exact ⟨b',project',row',kept.resourceName.trans named,by rw [kept.projectId]; exact found',ns'.trans same⟩

/-- Every instance has a place. -/
def Placed (db : Db) : Prop := ∀ {i b}, db.bindings.lookup i = some b → ∃ ns, Located db i ns

/-! ### Where a request comes from -/

/-- What the request of an operation was made of. -/
inductive Origin (db : Db) (past : List Object) (o : Operation) : Prop where
  | project (kind : o.kind = .projectCreate)
  | create {i : InstanceId} {ns : Namespace} {input : InstanceInput} {storageClass : String} (kind : o.kind = .create)
      (own : o.instanceId = some i) (located : Located db i ns)
      (asks : o.request.desired =
        some (desiredObject input o.projectId ns i storageClass o.id (.create input)))
  | update {i : InstanceId} {ns : Namespace} {caller : Caller} {input : InstanceInput} {e : Object}
      (kind : o.kind = .update) (own : o.instanceId = some i) (located : Located db i ns) (member : e ∈ past)
      (key : e.key = (ns,⟨i⟩)) (expected : o.request.expectedRevision = some (revision (render e)))
      (project : caller.projectId = o.projectId)
      (asks : o.request.desired =
        some (Routes.updateDesired caller i input o.id (revision (render e)) ns (render e)))
  | rotate {i : InstanceId} {ns : Namespace} {e : Object} (kind : o.kind = .rotate) (own : o.instanceId = some i)
      (located : Located db i ns) (member : e ∈ past) (key : e.key = (ns,⟨i⟩))
      (expected : o.request.expectedRevision = some (revision (render e)))
      (asks : o.request.desired = some (Routes.rotateDesired i o.id (revision (render e)) (render e)))
  | delete {i : InstanceId} {ns : Namespace} (kind : o.kind = .delete) (own : o.instanceId = some i)
      (located : Located db i ns) (space : o.request.ns = some ns) (named : o.request.name = some ⟨i⟩)
      (uid : o.request.uid.isSome)
  | volumeDelete {i : InstanceId} {ns : Namespace} (kind : o.kind = .volumeDelete) (own : o.instanceId = some i)
      (located : Located db i ns) (space : o.request.ns = some ns) (named : o.request.name = some ⟨i⟩)
  | reclaim {i : InstanceId} {ns : Namespace} {caller : Caller} {input : InstanceInput} {volumeUid : VolumeUid}
      {storageClass : String} {version : TemplateVersion} {uid : KubeUid} {e : Object} (kind : o.kind = .reclaim)
      (own : o.instanceId = some i) (located : Located db i ns) (member : e ∈ past) (identity : e.uid = uid)
      (project : caller.projectId = o.projectId) (previous : o.request.previousInstanceUID = some uid)
      (asks : o.request.desired =
        some (Routes.reclaimDesired caller i volumeUid input o.id storageClass ns version uid))

theorem Origin.mono {db db' : Db} {past past' : List Object} {o o' : Operation} (evolves : Evolves db db')
    (grows : ∀ e ∈ past, e ∈ past') (same : asked o' = asked o) (origin : Origin db past o) :
    Origin db' past' o' := by
  have kinds := asked_kind same
  have owns := asked_instanceId same
  have asks' := asked_desired same
  have ids := asked_id same
  have projects := asked_projectId same
  have expects := asked_expected same
  cases origin with
  | project kind => exact .project (kinds.trans kind)
  | create kind own located asks =>
    exact .create (kinds.trans kind) (owns.trans own) (located.evolves evolves) (by rw [asks',asks,ids,projects])
  | update kind own located member key expected project asks =>
    exact .update (kinds.trans kind) (owns.trans own) (located.evolves evolves) (grows _ member) key
      (expects.trans expected) (project.trans projects.symm) (by rw [asks',asks,ids])
  | rotate kind own located member key expected asks =>
    exact .rotate (kinds.trans kind) (owns.trans own) (located.evolves evolves) (grows _ member) key
      (expects.trans expected) (by rw [asks',asks,ids])
  | delete kind own located space named uid =>
    exact .delete (kinds.trans kind) (owns.trans own) (located.evolves evolves) ((asked_ns same).trans space)
      ((asked_name same).trans named) (by rw [asked_uid same]; exact uid)
  | volumeDelete kind own located space named =>
    exact .volumeDelete (kinds.trans kind) (owns.trans own) (located.evolves evolves) ((asked_ns same).trans space)
      ((asked_name same).trans named)
  | reclaim kind own located member identity project previous asks =>
    exact .reclaim (kinds.trans kind) (owns.trans own) (located.evolves evolves) (grows _ member) identity
      (project.trans projects.symm) ((asked_previous same).trans previous) (by rw [asks',asks,ids])

/-- The operation that asks for this object of this instance. -/
structure Author (db : Db) (o : Operation) (i : InstanceId) (ns : Namespace) (desired : Manifest) : Prop where
  row : db.operations.lookup o.id = some o
  applies : o.kind.applies = true
  own : o.instanceId = some i
  located : Located db i ns
  asks : o.request.desired = some desired
  key : (desired.ns,desired.name) = (ns,⟨i⟩)
  named : desired.annotations.operationId = some o.id

section
variable {db db' : Db}

theorem Author.evolves (evolves : Evolves db db') {o : Operation} {i : InstanceId} {ns : Namespace} {desired : Manifest}
    (author : Author db o i ns desired) : ∃ o', asked o' = asked o ∧ Author db' o' i ns desired := by
  obtain ⟨o',row,same⟩ := evolves.operations author.row
  have id := asked_id same
  refine ⟨o',same,?_,?_,?_,author.located.evolves evolves,?_,author.key,?_⟩
  · rw [id]; exact row
  · rw [asked_kind same]; exact author.applies
  · rw [asked_instanceId same]; exact author.own
  · rw [asked_desired same]; exact author.asks
  · rw [id]; exact author.named

end

/-! ### The invariant -/

/-- What a past saw of instances is where they are. -/
def Informed (db : Db) (history : Past) : Prop :=
  ∀ {projectId i row}, (⟨.db (.binding projectId i),.ok row⟩ : Happened) ∈ history →
    Located db i row.ns ∧ row.binding.resourceName = ⟨i⟩

/-- The identity of an instance is one that an object of it had. -/
def Identified (db : Db) (past : List Object) : Prop :=
  ∀ {i b uid}, db.bindings.lookup i = some b → b.kubernetesUid = some uid →
    ∃ ns, Located db i ns ∧ ∃ e ∈ past, e.uid = uid ∧ e.key = (ns,⟨i⟩)

/-- What holds in every run in which Kubernetes answers as it does. -/
structure Grounded (s : System) : Prop where
  consistent : Consistent s
  reserving : Reserving s.db
  wf : Wf s.kube.objects
  sighted : ∀ t ∈ s.threads, Sighted s.kube.objects.past t.history
  placed : Placed s.db
  informed : ∀ t ∈ s.threads, Informed s.db t.history
  origins : ∀ {id o}, s.db.operations.lookup id = some o → Origin s.db s.kube.objects.past o
  identified : Identified s.db s.kube.objects.past

section
variable {s s' : System} {l : Label}

theorem placed_step (placed : Placed s.db) (moved : step l s = some s') : Placed s'.db := by
  have evolves := step_evolves moved
  intro i b row
  rcases step_db moved with idle | ⟨t,c,x,pick,v,makes,executes,ran⟩
  · rw [idle.bindings] at row
    obtain ⟨ns,located⟩ := placed row
    exact ⟨ns,located.evolves evolves⟩
  · cases was : s.db.bindings.lookup i with
    | some b₀ =>
      obtain ⟨ns,located⟩ := placed was
      exact ⟨ns,located.evolves evolves⟩
    | none =>
      obtain ⟨caller,_,_,_,_,_,_,project,_,locked,new,_⟩ := Txn.provisioned (transact_cases ran) was row
      obtain ⟨project',found,_⟩ := evolves.projects locked
      exact ⟨project'.ns,b,project',row,by rw [new]; rfl,by rw [new]; exact found,rfl⟩

theorem informed_step (placed : Placed s.db) (moved : step l s = some s')
    (before : ∀ t ∈ s.threads, Informed s.db t.history) : ∀ t ∈ s'.threads, Informed s'.db t.history := by
  have evolves := step_evolves moved
  have stable : ∀ {history}, Informed s.db history → Informed s'.db history := by
    intro history informed projectId i row seen
    obtain ⟨located,named⟩ := informed seen
    exact ⟨located.evolves evolves,named⟩
  refine threads_step (fun s _ history => Informed s.db history) moved before (fun _ => nofun)
    (fun _ _ informed => stable informed) ?_
  intro t c x makes heard informed projectId i row seen
  rcases List.mem_cons.mp seen with same | seen
  · cases same
    cases heard with
    | transacted executes ran kube answer =>
      rcases answer with same | same
      · cases same
        simp only [transact,bind_eq_ok,found_eq_ok,reads,Except.ok.injEq,Prod.mk.injEq] at ran
        obtain ⟨row',joins,_,rfl⟩ := ran
        obtain ⟨present,owner,project,locked,ns⟩ := joined_some joins
        obtain ⟨_,b,_,row,named,_⟩ := placed present
        rw [present] at row
        cases row
        have located : Located s.db i row'.ns := ⟨_,project,present,named,by rw [owner]; exact locked,ns.symm⟩
        exact ⟨located.evolves evolves,named⟩
      · cases same
  · exact stable informed seen

/-- A row is admitted with the place it has in its tables. -/
theorem located_admitted {db : Db} (placed : Placed db) {i : InstanceId} {b : Binding} {project : Project}
    {projectId : ProjectId} (present : db.bindings.lookup i = some b) (owner : b.projectId = projectId)
    (locked : db.projects.lookup projectId = some project) : Located db i project.ns ∧ b.resourceName = ⟨i⟩ := by
  obtain ⟨_,b',_,row,named,_⟩ := placed present
  rw [present] at row
  cases row
  exact ⟨⟨b,project,present,named,by rw [owner]; exact locked,rfl⟩,named⟩

theorem origin_admitted {t : Running} {c : DbCall} {x : (Call.db c).Answer} {o : Operation}
    {bindings : Table InstanceId Binding} {credentials : List Credential} (placed : Placed s.db)
    (sighted : Sighted s.kube.objects.past t.history) (informed : Informed s.db t.history)
    (identified : Identified s.db s.kube.objects.past) (makes : Makes s s' t (.db c) x) (admits : Admits s.db c o bindings credentials)
    (evolves : Evolves s.db s'.db) (grows : ∀ e ∈ s.kube.objects.past, e ∈ s'.kube.objects.past)
    (rows : s'.db.bindings = bindings) : Origin s'.db s'.kube.objects.past o := by
  have licensed := licensed_makes makes
  cases admits with
  | create locked asked unused new within =>
    rename_i caller options storageClass input i operationId data project row desired
    obtain ⟨project',found,ns⟩ := evolves.projects locked
    refine .create rfl rfl ?_ (congrArg some asked)
    refine ⟨Binding.raise (inputResources input) row,project',?_,?_,?_,ns⟩
    · rw [rows,lookup_modify_self,AList.lookup_insert]
      rfl
    · rw [new]; rfl
    · rw [new]; exact found
  | update present project known unreleased within =>
    obtain ⟨row,current,seen,read,describes,_,expected,asked⟩ := licensed
    obtain ⟨located,named⟩ := informed seen
    obtain ⟨e,member,key,rfl⟩ := sighted.read read
    rw [named] at key
    subst asked expected
    exact .update rfl rfl (located.evolves evolves) (grows _ member) key rfl rfl rfl
  | rotate =>
    obtain ⟨row,current,seen,read,describes,_,expected,asked⟩ := licensed
    obtain ⟨located,named⟩ := informed seen
    obtain ⟨e,member,key,rfl⟩ := sighted.read read
    rw [named] at key
    subst asked expected
    exact .rotate rfl rfl (located.evolves evolves) (grows _ member) key rfl rfl
  | delete present owner locked bound unreleased =>
    obtain ⟨located,named⟩ := located_admitted placed present owner locked
    exact .delete rfl rfl (located.evolves evolves) rfl (congrArg some named) bound
  | volumeDelete present owner locked retained bound =>
    obtain ⟨located,named⟩ := located_admitted placed present owner locked
    exact .volumeDelete rfl rfl (located.evolves evolves) rfl (congrArg some named)
  | reclaim present owner retained same within =>
    obtain ⟨row,storageClass,version,uid,seen,prepared,bound,asked⟩ := licensed
    obtain ⟨located,_⟩ := informed seen
    subst asked prepared
    obtain ⟨_,_,e,member,identity,_⟩ := identified present (same.trans bound)
    exact .reclaim rfl rfl (located.evolves evolves) (grows _ member) identity rfl bound rfl

theorem origins_step (grounded : Grounded s) (moved : step l s = some s') {id : OperationId} {o : Operation}
    (row : s'.db.operations.lookup id = some o) : Origin s'.db s'.kube.objects.past o := by
  have evolves := step_evolves moved
  have grows : ∀ e ∈ s.kube.objects.past, e ∈ s'.kube.objects.past := fun e member =>
    (step_objects grounded.wf moved).past_subset member
  cases was : s.db.operations.lookup id with
  | some o₀ =>
    obtain ⟨o',row',same⟩ := evolves.operations was
    rw [row] at row'
    cases row'
    exact (grounded.origins was).mono evolves grows same
  | none =>
    rcases step_db moved with idle | ⟨t,c,x,pick,v,makes,executes,ran⟩
    · rw [idle.operations,was] at row
      cases row
    · have opened := Txn.opened (transact_cases ran) was row
      rcases opened.admitted with admits | ⟨project,_⟩
      · exact origin_admitted grounded.placed (grounded.sighted t makes.member) (grounded.informed t makes.member)
          grounded.identified makes admits evolves grows rfl
      · exact .project project

/-- Every operation that applies something asks for the object of its instance. -/
theorem author_of_row (grounded : Grounded s) {id : OperationId} {o : Operation}
    (found : s.db.operations.lookup id = some o) (applies : o.kind.applies = true) :
    ∃ i ns desired, Author s.db o i ns desired := by
  have row : s.db.operations.lookup o.id = some o := by rw [grounded.consistent.sound.id found]; exact found
  have none' : ∀ {kind : Kind}, o.kind = kind → kind.applies = false → False := by
    rintro kind rfl other
    rw [applies] at other
    cases other
  cases grounded.origins found with
  | create kind own located asks => exact ⟨_,_,_,row,applies,own,located,asks,rfl,rfl⟩
  | update kind own located member key expected project asks => exact ⟨_,_,_,row,applies,own,located,asks,rfl,rfl⟩
  | rotate kind own located member key expected asks => exact ⟨_,_,_,row,applies,own,located,asks,key,rfl⟩
  | reclaim kind own located member identity project previous asks => exact ⟨_,_,_,row,applies,own,located,asks,rfl,rfl⟩
  | project kind => exact (none' kind rfl).elim
  | delete kind _ _ _ _ _ => exact (none' kind rfl).elim
  | volumeDelete kind _ _ _ _ => exact (none' kind rfl).elim

/-- The object that an operation was applied to is a version that is not being deleted
    and names the operation. -/
theorem applied_version (grounded : Grounded s) {t : Running} (member : t ∈ s.threads) {o p : Operation} {i : InstanceId}
    {ns : Namespace} {desired : Manifest} {c : CacheObject} (author : Author s.db o i ns desired)
    (same : asked o = asked p) (applied : Applied t.history p desired c) :
    ∃ e ∈ s.kube.objects.past, e.key = (ns,⟨i⟩) ∧ c = render e ∧ e.deleting = false ∧
      e.metadata.annotations.operationId = some o.id := by
  rw [← author.key]
  cases applied with
  | created answer =>
    obtain ⟨e,seen,key,value,stays,annotations⟩ := (grounded.sighted t member).created answer
    exact ⟨e,seen,key,value,stays,by rw [annotations]; exact author.named⟩
  | replaced current stays answer =>
    obtain ⟨e,seen,key,value,deleting,annotations⟩ := (grounded.sighted t member).replaced answer
    refine ⟨e,seen,key,value,deleting.trans stays,?_⟩
    rw [annotations]
    simp [updated,Annotations.merge,author.named]
  | found read stays own =>
    obtain ⟨e,seen,key,rfl⟩ := (grounded.sighted t member).read read
    refine ⟨e,seen,key,rfl,stays,?_⟩
    rw [author.named,← asked_id same,or_self] at own
    exact own

theorem identified_step (grounded : Grounded s) (moved : step l s = some s') :
    Identified s'.db s'.kube.objects.past := by
  have evolves := step_evolves moved
  have grows : ∀ e ∈ s.kube.objects.past, e ∈ s'.kube.objects.past := fun e member =>
    (step_objects grounded.wf moved).past_subset member
  intro i b' uid row bound
  have before : ∀ {b}, s.db.bindings.lookup i = some b → b.kubernetesUid = some uid →
      ∃ ns, Located s'.db i ns ∧ ∃ e ∈ s'.kube.objects.past, e.uid = uid ∧ e.key = (ns,⟨i⟩) := by
    intro b row bound
    obtain ⟨ns,located,e,member,identity,key⟩ := grounded.identified row bound
    exact ⟨ns,located.evolves evolves,e,grows e member,identity,key⟩
  rcases step_db moved with idle | ⟨t,c,x,pick,v,makes,executes,ran⟩
  · rw [idle.bindings] at row
    exact before row bound
  · cases was : s.db.bindings.lookup i with
    | none =>
      obtain ⟨_,_,_,_,_,_,_,_,_,_,new,_⟩ := Txn.provisioned (transact_cases ran) was row
      rw [new] at bound
      cases bound
    | some b =>
      obtain ⟨b'',row',becomes⟩ := Txn.binding (transact_cases ran) was
      rw [row] at row'
      cases row'
      rcases becomes.uid with same | ⟨p,uid',generation,rfl,_,own,_,set⟩
      · exact before was (same.symm.trans bound)
      · -- the identity is the one of the object that the worker applied
        obtain ⟨claimed,applies,desired,c,asks,applied,identity,_⟩ := licensed_makes makes
        obtain ⟨o,found,same⟩ := grounded.consistent.copy makes.member claimed
        obtain ⟨j,ns,desired',author⟩ := author_of_row grounded found (by rw [asked_kind same]; exact applies)
        obtain rfl : desired' = desired :=
          Option.some.inj (author.asks.symm.trans ((asked_desired same).trans asks))
        obtain rfl : j = i := Option.some.inj (author.own.symm.trans ((asked_instanceId same).trans own))
        obtain ⟨e,member,key,rfl,_,_⟩ := applied_version grounded makes.member author same applied
        rw [set] at bound
        exact ⟨ns,author.located.evolves evolves,e,grows e member,Option.some.inj (identity.trans bound),key⟩

theorem Grounded.step (grounded : Grounded s) (unforged : Unforged l) (moved : step l s = some s') : Grounded s' where
  consistent := grounded.consistent.step moved
  reserving := reserving_step grounded.consistent grounded.reserving moved
  wf := grounded.wf.step (step_objects grounded.wf moved)
  sighted := sighted_step grounded.wf unforged moved grounded.sighted
  placed := placed_step grounded.placed moved
  informed := informed_step grounded.placed moved grounded.informed
  origins := origins_step grounded moved
  identified := identified_step grounded moved

theorem Grounded.start (start : Start s) : Grounded s where
  consistent := Consistent.start start
  reserving := reserving_start start
  wf := by rw [start.objects]; exact Wf.empty
  sighted t member := by rw [start.threads] at member; cases member
  placed row := by rw [start.bindings] at row; simp at row
  informed t member := by rw [start.threads] at member; cases member
  origins row := by rw [start.operations] at row; simp at row
  identified row := by rw [start.bindings] at row; simp at row

/-- Whose object a creation makes. -/
theorem creation_makes (grounded : Grounded s) {t : Running} {body : Manifest}
    {x : (Call.kube (.createInstance body)).Answer} (makes : Makes s s' t (.kube (.createInstance body)) x) :
    ∃ o row i ns, Claimed t.history o ∧ s.db.operations.lookup o.id = some row ∧ asked row = asked o ∧
      row.kind.creates = true ∧ row.instanceId = some i ∧ row.request.desired = some body ∧ Located s.db i ns ∧
      (body.ns,body.name) = (ns,⟨i⟩) := by
  obtain ⟨o,claimed,creates,asks,_⟩ := licensed_makes makes
  obtain ⟨row,found,same⟩ := grounded.consistent.copy makes.member claimed
  rw [← asked_kind same] at creates
  rw [← asked_desired same] at asks
  have none' : ∀ {kind : Kind}, row.kind = kind → kind.creates = false → False := by
    rintro kind rfl other
    rw [creates] at other
    cases other
  cases grounded.origins found with
  | create kind own located desired =>
    rw [asks] at desired
    cases desired
    exact ⟨o,row,_,_,claimed,found,same,creates,own,asks,located,rfl⟩
  | reclaim kind own located member identity project previous desired =>
    rw [asks] at desired
    cases desired
    exact ⟨o,row,_,_,claimed,found,same,creates,own,asks,located,rfl⟩
  | project kind => exact (none' kind rfl).elim
  | update kind _ _ _ _ _ _ _ => exact (none' kind rfl).elim
  | rotate kind _ _ _ _ _ _ => exact (none' kind rfl).elim
  | delete kind _ _ _ _ _ => exact (none' kind rfl).elim
  | volumeDelete kind _ _ _ _ => exact (none' kind rfl).elim

end

end Expbuild.Origins
