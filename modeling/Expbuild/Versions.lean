import Expbuild.Origins

/-!
What the versions of an object say, where nobody but the platform writes what they
say. A step creates an object, updates one over the revision that was asked for, or
leaves what it says alone (`Edits`). So every version says what the operation it names
asked for (`Authored`), and that operation is in the record of writes with the
generation of the version (`Logged`).
-/
namespace Expbuild.Versions
open Expbuild.Contract Expbuild.Schema Expbuild.Tables Expbuild.Objects Expbuild.Programs Expbuild.Runs
open Expbuild.Calls Expbuild.Kubernetes Expbuild.Transactions Expbuild.Effects Expbuild.Platform Expbuild.ApiServer
open Expbuild.Licences Expbuild.Licensing Expbuild.Rows Expbuild.Reservations Expbuild.Origins

/-- Nobody else creates an object, or edits the specification of one or the operation
    that it names. -/
def Ours (s : System) : Label → Prop
  | .forge _ _ => False
  | .act (.create _) => False
  | .act (.edit k _ annotations spec) => ∀ e, s.kube.at k = some e →
      spec = e.spec ∧ annotations.operationId = e.metadata.annotations.operationId
  | _ => True

section
variable {s : System} {l : Label}

theorem Ours.unforged (ours : Ours s l) : Unforged l := by
  cases l <;> first | exact ours | trivial

theorem Closed.ours (closed : Closed l) : Ours s l := by
  cases l with
  | forge _ _ => exact closed
  | act a => cases a <;> trivial
  | _ => trivial

end

/-- A new version that says the same. -/
structure Touches (old new : Object) : Prop where
  key : new.key = old.key
  uid : new.uid = old.uid
  generation : new.generation = old.generation
  deleting : new.deleting = old.deleting
  spec : new.spec = old.spec
  operationId : new.metadata.annotations.operationId = old.metadata.annotations.operationId

/-- The version that an update writes. -/
def rewritten (e : Object) (desired : Manifest) : Object := replacement (updated (render e) desired) e

/-- A worker creates the object of its operation. -/
structure Creation (s : System) (l : Label) (o : Operation) (i : InstanceId) (ns : Namespace) (desired : Manifest) :
    Prop where
  claimed : ∃ t p, Executes s l t (.kube (.createInstance desired)) ∧ Claimed t.history p ∧ asked o = asked p
  author : Author s.db o i ns desired
  creates : o.kind.creates = true
  absent : s.kube.at (ns,⟨i⟩) = none

/-- A worker updates the object over the revision that its operation expects. -/
structure Update (s : System) (l : Label) (o : Operation) (i : InstanceId) (ns : Namespace) (desired : Manifest)
    (e : Object) : Prop where
  claimed : ∃ t p, Executes s l t (.kube (.replaceInstance ns ⟨i⟩ (updated (render e) desired))) ∧
    Claimed t.history p ∧ asked o = asked p
  author : Author s.db o i ns desired
  updates : o.kind.creates = false
  present : s.kube.at (ns,⟨i⟩) = some e
  stays : e.deleting = false
  expected : o.request.expectedRevision = some ⟨some e.uid,some e.generation⟩
  other : e.metadata.annotations.operationId ≠ some o.id

/-- What a step does to the objects and to the record of writes. -/
inductive Edits (s : System) (l : Label) (s' : System) : Prop where
  | kept (objects : s'.kube.objects = s.kube.objects) (writes : s'.kube.writes = s.kube.writes)
  | created {o : Operation} {i : InstanceId} {ns : Namespace} {desired : Manifest}
      (creation : Creation s l o i ns desired)
      (objects : s'.kube.objects = s.kube.objects.create (ns,⟨i⟩) (manifestMeta desired {}) desired.spec)
      (writes : s'.kube.writes = ⟨s.kube.objects.nextUid,some o.id,none,1,true⟩ :: s.kube.writes)
  | updated {o : Operation} {i : InstanceId} {ns : Namespace} {desired : Manifest} {e : Object}
      (update : Update s l o i ns desired e)
      (objects : s'.kube.objects = s.kube.objects.write (rewritten e desired))
      (writes : s'.kube.writes = ⟨e.uid,some o.id,o.request.expectedRevision,(rewritten e desired).generation,
        decide ((rewritten e desired).spec ≠ e.spec)⟩ :: s.kube.writes)
  | touched {k : Key} {e : Object} (new : Object) (present : s.kube.at k = some e) (touches : Touches e new)
      (objects : s'.kube.objects = s.kube.objects.write new)
      (writes : s'.kube.writes = s.kube.writes ∨ ∃ o, s.db.operations.lookup o.id = some o ∧ o.kind = .reclaim ∧
        e.metadata.annotations.operationId = some o.id ∧ e.deleting = false ∧ s'.kube.writes = ⟨e.uid,some o.id,some ⟨some e.uid,some e.generation⟩,e.generation,false⟩ :: s.kube.writes)
  | deleted {k : Key} {e : Object} (present : s.kube.at k = some e)
      (objects : s'.kube.objects = s.kube.objects.delete e) (writes : s'.kube.writes = s.kube.writes)
  | removed {k : Key} {e : Object} (present : s.kube.at k = some e) (deleting : e.deleting = true)
      (objects : s'.kube.objects = { s.kube.objects with live := s.kube.objects.live.erase k })
      (writes : s'.kube.writes = s.kube.writes)

section
variable {s s' : System} {l : Label}

theorem creates_applies {kind : Kind} (creates : kind.creates = true) : kind.applies = true := by
  cases kind <;> first | rfl | cases creates

/-- A live object that is replaced is the version that was read. -/
theorem replaced_version (grounded : Grounded s) {t : Running} (member : t ∈ s.threads) {ns ns' : Namespace}
    {name name' : ResourceName} {current : CacheObject} {e : Object} (read : Read t.history ns name current)
    (present : s.kube.at (ns',name') = some e) (version : current.resourceVersion = some e.version) :
    current = render e ∧ e.key = (ns,name) := by
  obtain ⟨e',seen,key,rfl⟩ := (grounded.sighted t member).read read
  have same : e = e' := grounded.wf.live_of_version seen present (Option.some.inj version).symm
  rw [same]
  exact ⟨rfl,key⟩

theorem edits_created (grounded : Grounded s) {t : Running} {body : Manifest} {v : CacheObject}
    {x : (Call.kube (.createInstance body)).Answer} (makes : Makes s s' t (.kube (.createInstance body)) x)
    (executes : Executes s l t (.kube (.createInstance body)))
    (ran : serve s.kube (.createInstance body) = .ok (s'.kube,v)) : Edits s l s' := by
  obtain ⟨absent,objects,writes,_⟩ := serve_create ran
  obtain ⟨p,o,_,_,claimed,found,same,creates,_,asks,_,_⟩ := creation_makes grounded makes
  obtain ⟨i,ns,desired,author⟩ := author_of_row grounded found (creates_applies creates)
  obtain rfl : desired = body := Option.some.inj (author.asks.symm.trans asks)
  rw [author.key] at absent objects
  rw [author.named] at writes
  exact .created ⟨⟨t,p,executes,claimed,same⟩,author,creates,absent⟩ objects writes

theorem edits_replaced (grounded : Grounded s) {t : Running} {ns : Namespace} {name : ResourceName}
    {body v : CacheObject} {x : (Call.kube (.replaceInstance ns name body)).Answer}
    (makes : Makes s s' t (.kube (.replaceInstance ns name body)) x)
    (executes : Executes s l t (.kube (.replaceInstance ns name body)))
    (ran : serve s.kube (.replaceInstance ns name body) = .ok (s'.kube,v)) : Edits s l s' := by
  obtain ⟨e,present,uid,version,objects,writes,_⟩ := serve_replace ran
  rcases licensed_makes makes with ⟨p,desired,current,write,_,rfl,rfl,rfl⟩ | ⟨p,desired,current,uid',write,rfl,rfl,rfl⟩
  · obtain ⟨o,found,same⟩ := grounded.consistent.copy makes.member write.claimed
    obtain ⟨i,ns,desired',author⟩ := author_of_row grounded found (by rw [asked_kind same]; exact write.applies)
    obtain rfl : desired' = desired :=
      Option.some.inj (author.asks.symm.trans ((asked_desired same).trans write.asks))
    obtain ⟨rfl,_⟩ := replaced_version grounded makes.member write.read present version
    rw [author.key] at present
    obtain ⟨space,named⟩ := Prod.mk.inj author.key
    rw [space,named] at executes
    have expected : o.request.expectedRevision = some ⟨some e.uid,some e.generation⟩ :=
      (asked_expected same).trans write.expected
    refine .updated ⟨⟨t,p,executes,write.claimed,same⟩,author,by rw [asked_kind same]; exact write.updates,present,
      write.stays,expected,by rw [← author.named]; exact write.other⟩ objects ?_
    rw [writes,expected]
    simp [updated,Annotations.merge,author.named,rewritten,replacement,Store.changed]
  · obtain ⟨o,found,same⟩ := grounded.consistent.copy makes.member write.claimed
    obtain ⟨rfl,_⟩ := replaced_version grounded makes.member write.read present version
    have kind : o.kind = .reclaim := (asked_kind same).trans write.kind
    obtain ⟨i,ns,desired',author⟩ := author_of_row grounded found (by rw [kind]; rfl)
    obtain rfl : desired' = desired :=
      Option.some.inj (author.asks.symm.trans ((asked_desired same).trans write.asks))
    have may := write.approvable
    simp only [approvable,Bool.and_eq_true,decide_eq_true_eq,Bool.not_eq_true'] at may
    obtain ⟨⟨⟨⟨⟨_,stays⟩,_⟩,_⟩,named⟩,_⟩ := may
    have own : e.metadata.annotations.operationId = some o.id := by
      rw [← author.named,← named]
      rfl
    refine .touched (replacement (withMarker (render e) uid') e) present ⟨rfl,rfl,?_,rfl,rfl,rfl⟩ objects
      (.inr ⟨o,author.row,kind,own,stays,?_⟩)
    · simp [replacement,Store.changed,withMarker,render]
    · rw [writes]
      simp [withMarker,render,own,replacement,Store.changed]

theorem edits_acted (grounded : Grounded s) {a : Act} (ours : Ours s (.act a)) (acts : act s.kube a = some s'.kube) :
    Edits s l s' := by
  cases a with
  | finalizers k on =>
    simp only [act,Option.bind_eq_bind,Option.bind_eq_some_iff,Option.pure_def,Option.some.injEq] at acts
    obtain ⟨e,present,after⟩ := acts
    have objects : s'.kube.objects = s.kube.objects.finalize e on := by rw [← after]
    have writes : s'.kube.writes = s.kube.writes := by rw [← after]
    cases deleting : e.deleting with
    | false =>
      rw [Store.finalize,if_neg (by rw [deleting]; simp)] at objects
      exact .touched { e with finalizers := on } present ⟨rfl,rfl,rfl,rfl,rfl,rfl⟩ objects (.inl writes)
    | true =>
      rw [Store.finalize,if_pos deleting] at objects
      cases on with
      | true => exact .kept objects writes
      | false =>
        refine .removed present deleting ?_ writes
        rw [grounded.wf.key present] at objects
        exact objects
  | status k status =>
    simp only [act,Option.bind_eq_bind,Option.bind_eq_some_iff,Option.pure_def,Option.some.injEq] at acts
    obtain ⟨e,present,after⟩ := acts
    refine .touched (Store.changed e { e.metadata with status := status } e.spec) present
      ⟨rfl,rfl,?_,rfl,rfl,rfl⟩ (by rw [← after]) (.inl (by rw [← after]))
    simp [Store.changed]
  | claim k claim | mounts mounts =>
    have after := Option.some.inj acts
    exact .kept (by rw [← after]) (by rw [← after])
  | create body => exact ours.elim
  | edit k newLabels annotations spec =>
    simp only [act,Option.bind_eq_bind,Option.bind_eq_some_iff,Option.pure_def,Option.some.injEq] at acts
    obtain ⟨e,present,after⟩ := acts
    obtain ⟨rfl,named⟩ := ours e present
    refine .touched (Store.changed e { e.metadata with labels := newLabels, annotations := annotations } e.spec) present
      ⟨rfl,rfl,?_,rfl,rfl,named⟩ (by rw [← after]) (.inl (by rw [← after]))
    simp [Store.changed]
  | delete k =>
    simp only [act,Option.bind_eq_bind,Option.bind_eq_some_iff,Option.pure_def,Option.some.injEq] at acts
    obtain ⟨e,present,after⟩ := acts
    exact .deleted present (by rw [← after]) (by rw [← after])

theorem step_edits (grounded : Grounded s) (ours : Ours s l) (moved : step l s = some s') : Edits s l s' := by
  have same : s'.kube = s.kube → Edits s l s' := fun eq => .kept (by rw [eq]) (by rw [eq])
  cases step_moves moved with
  | idle idle kube threads fresh => exact same kube
  | heard makes heard =>
    cases heard with
    | served executes ran db answer =>
      rename_i call v _
      cases call with
      | createInstance body => exact edits_created grounded makes executes ran
      | replaceInstance ns name body => exact edits_replaced grounded makes executes ran
      | deleteInstance ns name uid =>
        obtain ⟨e,present,_,after⟩ := serve_delete ran
        exact .deleted present (by rw [after]) (by rw [after])
      | _ =>
        obtain ⟨objects,writes⟩ := serve_other rfl ran
        exact .kept objects writes
    | transacted executes ran kube answer => exact same kube
    | aborted db kube why | rejected db kube why | forged label db kube | clock db kube => exact same kube
  | acted label acts db threads fresh =>
    subst label
    exact edits_acted grounded ours acts

end

/-! ### New versions -/

/-- A version that a step adds, by what it is made of. -/
inductive Adds (s : System) (l : Label) (e' : Object) : Prop where
  | created {o : Operation} {i : InstanceId} {ns : Namespace} {desired : Manifest}
      (creation : Creation s l o i ns desired)
      (eq : e' = s.kube.objects.fresh (ns,⟨i⟩) (manifestMeta desired {}) desired.spec)
  | updated {o : Operation} {i : InstanceId} {ns : Namespace} {desired : Manifest} {e : Object}
      (update : Update s l o i ns desired e)
      (eq : e' = { rewritten e desired with version := s.kube.objects.nextVersion })
  | touched {k : Key} {e : Object} (present : s.kube.at k = some e) (touches : Touches e e')
  | marked {k : Key} {e : Object} (present : s.kube.at k = some e)
      (eq : e' = { e with deleting := true, generation := e.generation + 1, version := s.kube.objects.nextVersion })

section
variable {s s' : System} {l : Label} {e' : Object}

/-- The versions after a step: a new one is live. -/
theorem Edits.past (edits : Edits s l s') (member : e' ∈ s'.kube.objects.past) :
    e' ∈ s.kube.objects.past ∨ (Adds s l e' ∧ s'.kube.at e'.key = some e') := by
  have wrote : ∀ {e : Object}, s'.kube.objects = s.kube.objects.write e →
      e' = { e with version := s.kube.objects.nextVersion } → s'.kube.at e'.key = some e' := by
    intro e objects eq
    rw [Cluster.at,objects,eq]
    exact AList.lookup_insert _
  cases edits with
  | kept objects writes => rw [objects] at member; exact .inl member
  | created creation objects writes =>
    rw [objects] at member
    rcases List.mem_cons.mp member with eq | member
    · refine .inr ⟨.created creation eq,?_⟩
      rw [Cluster.at,objects,eq]
      exact AList.lookup_insert _
    · exact .inl member
  | updated update objects writes =>
    rw [objects] at member
    rcases List.mem_cons.mp member with eq | member
    · exact .inr ⟨.updated update eq,wrote objects eq⟩
    · exact .inl member
  | touched new present touches objects writes =>
    rw [objects] at member
    rcases List.mem_cons.mp member with eq | member
    · refine .inr ⟨.touched present ?_,wrote objects eq⟩
      rw [eq]
      exact ⟨touches.key,touches.uid,touches.generation,touches.deleting,touches.spec,touches.operationId⟩
    · exact .inl member
  | deleted present objects writes =>
    rw [objects,Store.delete] at member
    split at member
    · split at member
      · exact .inl member
      · rename_i held unmarked
        rcases List.mem_cons.mp member with eq | member
        · rw [Store.delete,if_pos held,if_neg unmarked] at objects
          exact .inr ⟨.marked present eq,wrote objects eq⟩
        · exact .inl member
    · exact .inl member
  | removed present deleting objects writes => rw [objects] at member; exact .inl member

/-- The live objects after a step. -/
theorem Edits.live (edits : Edits s l s') {k : Key} (found : s'.kube.at k = some e') :
    s.kube.at k = some e' ∨ (Adds s l e' ∧ e'.key = k) := by
  have erased : ∀ {k' : Key}, (s.kube.objects.live.erase k').lookup k = some e' → s.kube.at k = some e' := by
    intro k' found
    by_cases same : k = k'
    · subst same; simp at found
    · rwa [AList.lookup_erase_ne same] at found
  unfold Cluster.at at found
  cases edits with
  | kept objects writes => rw [objects] at found; exact .inl found
  | created creation objects writes =>
    rw [objects] at found
    rcases lookup_insert_some found with ⟨key,eq⟩ | ⟨_,found⟩
    · exact .inr ⟨.created creation eq,by rw [key,eq]⟩
    · exact .inl found
  | updated update objects writes =>
    rw [objects] at found
    rcases lookup_insert_some found with ⟨key,eq⟩ | ⟨_,found⟩
    · exact .inr ⟨.updated update eq,by rw [key,eq]⟩
    · exact .inl found
  | touched new present touches objects writes =>
    rw [objects] at found
    rcases lookup_insert_some found with ⟨key,rfl⟩ | ⟨_,found⟩
    · exact .inr ⟨.touched present ⟨touches.key,touches.uid,touches.generation,touches.deleting,touches.spec,
        touches.operationId⟩,key.symm⟩
    · exact .inl found
  | deleted present objects writes =>
    rw [objects,Store.delete] at found
    split at found
    · split at found
      · exact .inl found
      · rcases lookup_insert_some found with ⟨key,eq⟩ | ⟨_,found⟩
        · exact .inr ⟨.marked present eq,by rw [key,eq]⟩
        · exact .inl found
    · exact .inl (erased found)
  | removed present deleting objects writes =>
    rw [objects] at found
    exact .inl (erased found)

/-- The writes after a step. -/
theorem Edits.record (edits : Edits s l s') {w : Write} (member : w ∈ s.kube.writes) : w ∈ s'.kube.writes := by
  cases edits with
  | kept objects writes | deleted present objects writes | removed present deleting objects writes =>
    rw [writes]; exact member
  | created _ _ writes | updated _ _ writes =>
    rw [writes]; exact List.mem_cons_of_mem _ member
  | touched new present touches objects writes =>
    rcases writes with writes | ⟨o,_,_,_,_,writes⟩
    · rw [writes]; exact member
    · rw [writes]; exact List.mem_cons_of_mem _ member

end

/-! ### The invariant -/

/-- The version says what the operation that it names asked for, in the mode of the
    object. -/
structure Follows (db : Db) (e : Object) (o : Operation) (i : InstanceId) (ns : Namespace) (desired : Manifest) : Prop where
  author : Author db o i ns desired
  named : e.metadata.annotations.operationId = some o.id
  key : e.key = (ns,⟨i⟩)
  spec : e.spec = { desired.spec with pinned := e.spec.pinned }

def Authored (db : Db) (e : Object) : Prop := ∃ o i ns desired, Follows db e o i ns desired

/-- The write of the version is on record, unless a deletion made it. -/
def Logged (writes : List Write) (e : Object) : Prop :=
  e.deleting = false → ∃ w ∈ writes, w.uid = e.uid ∧ w.operationId = e.metadata.annotations.operationId ∧
    w.generation = e.generation

/-- What holds in every run in which only the platform writes. -/
structure Written (s : System) : Prop where
  grounded : Grounded s
  authored : ∀ e ∈ s.kube.objects.past, Authored s.db e
  logged : ∀ e ∈ s.kube.objects.past, Logged s.kube.writes e

section
variable {db db' : Db}

theorem Authored.evolves (evolves : Evolves db db') {e : Object} (authored : Authored db e) : Authored db' e := by
  obtain ⟨o,i,ns,desired,author,named,key,spec⟩ := authored
  obtain ⟨o',same,author'⟩ := author.evolves evolves
  exact ⟨o',i,ns,desired,author',by rw [asked_id same]; exact named,key,spec⟩

/-- A version that says the same has the same author. -/
theorem Authored.congr {e e' : Object} (authored : Authored db e) (key : e'.key = e.key) (spec : e'.spec = e.spec)
    (named : e'.metadata.annotations.operationId = e.metadata.annotations.operationId) : Authored db e' := by
  obtain ⟨o,i,ns,desired,follows⟩ := authored
  exact ⟨o,i,ns,desired,follows.author,named.trans follows.named,key.trans follows.key,by rw [spec]; exact follows.spec⟩

end

section
variable {s s' : System} {l : Label} {o : Operation} {i : InstanceId} {ns : Namespace} {desired : Manifest} {e e' : Object}

theorem Creation.follows (creation : Creation s l o i ns desired) :
    Follows s.db (s.kube.objects.fresh (ns,⟨i⟩) (manifestMeta desired {}) desired.spec) o i ns desired :=
  ⟨creation.author,creation.author.named,rfl,rfl⟩

theorem Update.follows (wf : Wf s.kube.objects) (update : Update s l o i ns desired e) (version : Nat) :
    Follows s.db { rewritten e desired with version := version } o i ns desired := by
  refine ⟨update.author,?_,show e.key = _ from wf.key update.present,rfl⟩
  simp [rewritten,replacement,Store.changed,updated,Annotations.merge,update.author.named]

/-- The generation after an update. -/
theorem rewritten_generation (e : Object) (desired : Manifest) : (rewritten e desired).generation =
    if (rewritten e desired).spec = e.spec then e.generation else e.generation + 1 := rfl

theorem authored_step (written : Written s) (edits : Edits s l s') (evolves : Evolves s.db s'.db)
    (member : e' ∈ s'.kube.objects.past) : Authored s'.db e' := by
  have wf := written.grounded.wf
  rcases edits.past member with member | ⟨adds,_⟩
  · exact (written.authored e' member).evolves evolves
  · cases adds with
    | created creation eq => rw [eq]; exact Authored.evolves evolves ⟨_,_,_,_,creation.follows⟩
    | updated update eq => rw [eq]; exact Authored.evolves evolves ⟨_,_,_,_,update.follows wf _⟩
    | touched present touches =>
      exact ((written.authored _ (wf.past present)).congr touches.key touches.spec touches.operationId).evolves evolves
    | marked present eq =>
      refine Authored.evolves evolves ((written.authored _ (wf.past present)).congr ?_ ?_ ?_) <;> rw [eq]

theorem logged_step (written : Written s) (edits : Edits s l s') (member : e' ∈ s'.kube.objects.past) :
    Logged s'.kube.writes e' := by
  have wf := written.grounded.wf
  have older : ∀ {e : Object}, e ∈ s.kube.objects.past → Logged s'.kube.writes e := by
    intro e member stays
    obtain ⟨w,recorded,rest⟩ := written.logged e member stays
    exact ⟨w,edits.record recorded,rest⟩
  cases edits with
  | kept objects writes => rw [objects] at member; exact older member
  | created creation objects writes =>
    rw [objects] at member
    rcases List.mem_cons.mp member with rfl | member
    · exact fun _ => ⟨_,by rw [writes]; exact List.mem_cons_self,rfl,creation.author.named.symm,rfl⟩
    · exact older member
  | updated update objects writes =>
    rw [objects] at member
    rcases List.mem_cons.mp member with rfl | member
    · exact fun _ => ⟨_,by rw [writes]; exact List.mem_cons_self,rfl,(update.follows wf 0).named.symm,rfl⟩
    · exact older member
  | touched new present touches objects writes =>
    rw [objects] at member
    rcases List.mem_cons.mp member with rfl | member
    · intro stays
      obtain ⟨w,recorded,uid,named,generation⟩ := older (wf.past present) (touches.deleting.symm.trans stays)
      exact ⟨w,recorded,uid.trans touches.uid.symm,named.trans touches.operationId.symm,
        generation.trans touches.generation.symm⟩
    · exact older member
  | deleted present objects writes =>
    rw [objects,Store.delete] at member
    split at member
    · split at member
      · exact older member
      · rcases List.mem_cons.mp member with rfl | member
        · exact fun stays => by cases stays
        · exact older member
    · exact older member
  | removed present deleting objects writes => rw [objects] at member; exact older member

theorem Written.step (written : Written s) (ours : Ours s l) (moved : step l s = some s') : Written s' where
  grounded := written.grounded.step ours.unforged moved
  authored _ := authored_step written (step_edits written.grounded ours moved) (step_evolves moved)
  logged _ := logged_step written (step_edits written.grounded ours moved)

theorem Written.start (start : Start s) : Written s where
  grounded := .start start
  authored e member := by rw [start.objects] at member; cases member
  logged e member := by rw [start.objects] at member; cases member

/-- An object that was seen under the name of an operation has what it asked for. -/
theorem seen_spec (written : Written s) {t : Running} (member : t ∈ s.threads) {p : Operation} {c : CacheObject}
    (author : Author s.db o i ns desired) (same : asked o = asked p)
    (seen : Applied t.history p desired c ∨ Read t.history desired.ns desired.name c)
    (own : c.annotations.operationId = some o.id) :
    ∃ e ∈ s.kube.objects.past, e.key = (ns,⟨i⟩) ∧ c = render e ∧ c.spec = pinnedLike c desired := by
  obtain ⟨e,past,key,rfl⟩ : ∃ e ∈ s.kube.objects.past, e.key = (ns,⟨i⟩) ∧ c = render e := by
    rcases seen with applied | read
    · obtain ⟨e,past,key,value,_⟩ := applied_version written.grounded member author same applied
      exact ⟨e,past,key,value⟩
    · obtain ⟨e,past,key,value⟩ := (written.grounded.sighted t member).read read
      exact ⟨e,past,key.trans author.key,value⟩
  obtain ⟨q,_,_,desired',follows⟩ := written.authored e past
  have id : q.id = o.id := Option.some.inj (follows.named.symm.trans own)
  have row := follows.author.row
  rw [id,author.row] at row
  cases row
  obtain rfl : desired' = desired := Option.some.inj (follows.author.asks.symm.trans author.asks)
  exact ⟨e,past,key,rfl,follows.spec⟩

end

end Expbuild.Versions
