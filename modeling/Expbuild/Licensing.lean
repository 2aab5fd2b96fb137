import Expbuild.Licences

/-!
Every program keeps to the licence, whatever its calls are answered.
-/
namespace Expbuild.Licensing
open Expbuild.Contract Expbuild.Schema Expbuild.Programs Expbuild.Calls Expbuild.Kubernetes Expbuild.Platform
open Expbuild.Licences Expbuild.Worker

/-- A superseding error of a creation or a reclaim has a reason that was seen. -/
def Excused (o : Operation) (past : Past) (e : Failure) : Prop :=
  ∀ code, e = .operation code true → o.kind.creates = true → Strands past o

/-- An execution that throws has an excuse. -/
def Ends {α : Type} (o : Operation) (past : Past) (result : Except Failure α) : Prop :=
  ∀ e, result = .error e → Excused o past e

section
variable {task : Task} {o : Operation} {past : Past} {α β : Type}

theorem ends_ok (a : α) : Ends o past (.ok a) := fun _ wrong => by cases wrong

theorem Excused.ends {e : Failure} (excused : Excused o past e) : Ends o past (.error e : Except Failure α) := by
  rintro e' same
  cases same
  exact excused

theorem excused_false (code : String) : Excused o past (.operation code false) := by
  intro code' wrong
  cases wrong

theorem ends_false (code : String) : Ends o past (.error (.operation code false) : Except Failure α) :=
  (excused_false code).ends

theorem excused_call (c : Call) (e : Failure) : Excused o (⟨c,.error e⟩ :: past) e := by
  rintro code rfl _
  exact .scolded ⟨c,code,List.mem_cons_self⟩

theorem ends_call (c : Call) (e : Failure) : Ends o (⟨c,.error e⟩ :: past) (.error e : Except Failure α) :=
  (excused_call c e).ends

theorem licensed_quiet {post : Past → Except Failure β → Prop} {p : Io α} {next : α → Io β} (quiet : Quiet p)
    (rest : ∀ later a, past <:+ later → Licensed (licence task) post later (next a))
    (throws : ∀ later e, past <:+ later → (∀ code, e = .operation code true → Scolded later) → post later (.error e)) :
    Licensed (licence task) post past (p >>= next) := by
  rw [licensed_bind]
  refine (quiet past).mono (fun later c _ unrestricted => licence_free task later unrestricted) ?_
  intro later result grows scolds
  cases result with
  | ok a => exact rest later a grows
  | error e => exact throws later e grows (fun code same => scolds code (by rw [same]))

theorem scolded_ends {later : Past} {e : Failure} (scolds : ∀ code, e = .operation code true → Scolded later) :
    Ends o later (.error e : Except Failure α) := by
  refine Excused.ends ?_
  rintro code rfl _
  exact .scolded (scolds code rfl)

theorem licensed_look {p : Io α} {next : α → Io β} (quiet : Quiet p)
    (rest : ∀ later a, past <:+ later → Licensed (licence task) (Ends o) later (next a)) :
    Licensed (licence task) (Ends o) past (p >>= next) :=
  licensed_quiet quiet rest (fun _ _ _ scolds => scolded_ends scolds)

theorem licensed_getInstance_only {ns : Namespace} {name : ResourceName}
    {post : Past → Except Failure (Option CacheObject) → Prop}
    (present : ∀ c, post (⟨.kube (.readInstance ns name),.ok c⟩ :: past) (.ok (some c)))
    (missing : ∀ e, statusCode e = some 404 → post (⟨.kube (.readInstance ns name),.error e⟩ :: past) (.ok none))
    (throws : ∀ e, post (⟨.kube (.readInstance ns name),.error e⟩ :: past) (.error e)) :
    Licensed (licence task) post past (getInstance ns name) := by
  rw [getInstance,onStatus,licensed_tryCatch,kube,licensed_await]
  refine ⟨trivial,present,fun e => ?_⟩
  change Licensed _ _ _ (if statusCode e = some 404 then _ else _)
  by_cases gone : statusCode e = some 404
  · rw [if_pos gone]; exact missing e gone
  · rw [if_neg gone]; exact throws e

theorem licensed_getInstance {ns : Namespace} {name : ResourceName} {post : Past → Except Failure β → Prop}
    {next : Option CacheObject → Io β}
    (present : ∀ c, Licensed (licence task) post (⟨.kube (.readInstance ns name),.ok c⟩ :: past) (next (some c)))
    (missing : ∀ e, statusCode e = some 404 →
      Licensed (licence task) post (⟨.kube (.readInstance ns name),.error e⟩ :: past) (next none))
    (throws : ∀ e, post (⟨.kube (.readInstance ns name),.error e⟩ :: past) (.error e)) :
    Licensed (licence task) post past (getInstance ns name >>= next) :=
  (licensed_bind _ _).mpr (licensed_getInstance_only present missing throws)

/-! ### Deleting credentials -/

/-- What a loop over credentials may rely on. -/
theorem licensed_deleteCredentials {ns : Namespace} {name : SecretName} {projectId : ProjectId}
    {instanceId : Option InstanceId} {keeps : Past → Prop} (holds : keeps past)
    (read : ∀ later x, keeps later → keeps (⟨.kube (.readSecret ns name),x⟩ :: later))
    (deleted : ∀ later uid x, keeps later → keeps (⟨.kube (.deleteSecret ns name uid),x⟩ :: later))
    (may : ∀ later uid, keeps later → licence task later (.kube (.deleteSecret ns name uid))) :
    Licensed (licence task)
      (fun after result => result = .ok () ∧ keeps after ∨ ∃ e, result = .error e ∧ Ends o after (.error e : Except Failure Unit))
      past (deleteCredentials ns name projectId instanceId) := by
  rw [deleteCredentials,onStatus,licensed_tryCatch,kube,licensed_await]
  -- a missing Secret is as good as a deleted one
  have ends : ∀ {later : Past} {e : Failure}, keeps later → Ends o later (.error e : Except Failure Unit) →
      Licensed (licence task) (fun after result => result = .ok () ∧ keeps after ∨
        ∃ e, result = .error e ∧ Ends o after (.error e : Except Failure Unit)) later
        (if statusCode e = some 404 then pure () else throw e) := by
    intro later e kept ended
    by_cases gone : statusCode e = some 404
    · rw [if_pos gone]; exact .inl ⟨rfl,kept⟩
    · rw [if_neg gone]; exact .inr ⟨e,rfl,ended⟩
  refine ⟨trivial,fun secret => ?_,fun e => ends (read _ _ holds) (ends_call _ _)⟩
  rw [licensed_require]
  refine ⟨fun _ => ?_,fun _ => ends (read _ _ holds) (ends_false _)⟩
  refine (licensed_await_only (c := .kube (.deleteSecret ns name secret.uid))).mpr
    ⟨may _ _ (read _ _ holds),fun x => ?_⟩
  have kept := deleted _ secret.uid x (read _ (.ok secret) holds)
  cases x with
  | ok u => exact .inl ⟨rfl,kept⟩
  | error e => exact ends kept (ends_call _ _)

/-! ### Steps of an execution -/

theorem licensed_finish {state : OpState} {code : Option String} {change : Change} (claimed : Claimed past o)
    (how : Finishes past o state change) :
    Licensed (licence task) (Ends o) past (Worker.finish o state code change) := by
  rw [Worker.finish,db,licensed_await]
  exact ⟨⟨claimed,how⟩,fun _ => ends_ok _,fun e => ends_call _ e⟩

theorem licensed_defer {code : Option String} (claimed : Claimed past o) :
    Licensed (licence task) (Ends o) past (Worker.defer o code) := by
  refine (licensed_await_only (c := .db (.defer o code))).mpr ⟨claimed,fun x => ?_⟩
  cases x with
  | ok _ => exact ends_ok _
  | error e => exact ends_call _ e

theorem licensed_bindObject {desired : Manifest} {c : CacheObject} {next : Nat → Io β}
    {post : Past → Except Failure β → Prop} (claimed : Claimed past o)
    (applies : o.kind.applies = true) (asks : o.request.desired = some desired) (applied : Applied past o desired c)
    (rest : ∀ uid generation, c.uid = some uid →
      Licensed (licence task) post (⟨.db (.bind o uid generation),.ok true⟩ :: past) (next generation))
    (throws : ∀ later e, Excused o later e → post later (.error e)) :
    Licensed (licence task) post past (Worker.bind o c >>= next) := by
  rw [licensed_bind,Worker.bind,licensed_present]
  refine ⟨fun uid identity => ?_,fun _ => throws _ _ (excused_false _)⟩
  rw [licensed_present]
  refine ⟨fun generation level => ?_,fun _ => throws _ _ (excused_false _)⟩
  rw [db,licensed_await]
  refine ⟨⟨claimed,applies,desired,c,asks,applied,identity,level⟩,fun bound => ?_,
    fun e => throws _ _ (excused_call _ e)⟩
  rw [licensed_require]
  refine ⟨fun held => ?_,fun _ => throws _ _ (excused_false _)⟩
  rw [held]
  exact rest uid generation identity

theorem executeProject_licensed (claimed : Claimed past o) (kind : o.kind = .projectCreate) :
    Licensed (licence task) (Ends o) past (executeProject o) := by
  rw [executeProject,licensed_present]
  refine ⟨fun ns _ => ?_,fun _ => ends_false _⟩
  refine licensed_look (quiet_ensureProject _ _) (fun later _ grows => ?_)
  exact licensed_finish (claimed.mono grows) (.project kind)

theorem executeVolumeDelete_licensed (claimed : Claimed past o) (kind : o.kind = .volumeDelete) :
    Licensed (licence task) (Ends o) past (executeVolumeDelete o) := by
  rw [executeVolumeDelete,licensed_present]
  refine ⟨fun ns _ => ?_,fun _ => ends_false _⟩
  rw [licensed_present]
  refine ⟨fun name _ => ?_,fun _ => ends_false _⟩
  rw [licensed_present]
  refine ⟨fun uid _ => ?_,fun _ => ends_false _⟩
  rw [licensed_present]
  refine ⟨fun instanceUid _ => ?_,fun _ => ends_false _⟩
  rw [licensed_present]
  refine ⟨fun instanceId _ => ?_,fun _ => ends_false _⟩
  refine licensed_look (quiet_await rfl) (fun later row grows => ?_)
  rw [licensed_require]
  refine ⟨fun _ => ?_,fun _ => ends_false _⟩
  refine licensed_look (quiet_getRetainedVolume _) (fun later' read grows' => ?_)
  have still := (claimed.mono grows).mono grows'
  cases read with
  | none => exact licensed_finish still (.volume kind)
  | some volume =>
    rw [licensed_require]
    refine ⟨fun _ => ?_,fun _ => ends_false _⟩
    refine licensed_look (quiet_deleteRetainedVolume _ _) (fun later'' _ grows'' => ?_)
    exact licensed_defer (still.mono grows'')

/-- The past of a tick before it looks at anything. -/
structure Begun (past : Past) (o : Operation) : Prop where
  claimed : Claimed past o
  unread : ∀ ns name x, (⟨.kube (.readInstance ns name),x⟩ : Happened) ∉ past
  unrecorded : ∀ p policy x, (⟨.db (.recordPolicy p policy),x⟩ : Happened) ∉ past

theorem executeDelete_licensed (begun : Begun past o) (kind : o.kind = .delete) :
    Licensed (licence task) (Ends o) past (executeDelete o) := by
  rw [executeDelete,licensed_present]
  refine ⟨fun ns space => ?_,fun _ => ends_false _⟩
  rw [licensed_present]
  refine ⟨fun name named => ?_,fun _ => ends_false _⟩
  rw [licensed_present]
  refine ⟨fun uid identity => ?_,fun _ => ends_false _⟩
  refine licensed_getInstance (fun current => ?_) (fun e gone => ?_) (fun e => ends_call _ e)
  · rw [licensed_require]
    refine ⟨fun same => ?_,fun _ => ends_false _⟩
    rw [licensed_require]
    refine ⟨fun _ => ?_,fun _ => ends_false _⟩
    have claimed : Claimed (⟨.kube (.readInstance ns name),.ok current⟩ :: past) o :=
      begun.claimed.mono (List.suffix_cons _ _)
    rw [db,licensed_await]
    refine ⟨⟨claimed,kind,ns,name,uid,current,space,named,identity,List.mem_cons_self,same,rfl⟩,fun _ => ?_,
      fun e => ends_call _ e⟩
    have claimed' := claimed.mono (List.suffix_cons
      (⟨.db (.recordPolicy o current.spec.storage.deletionPolicy),.ok ()⟩ : Happened) _)
    rw [licensed_bind,Kubernetes.deleteInstance,licensed_tryCatch]
    refine (licensed_await_only (c := .kube (.deleteInstance ns name uid))).mpr ⟨⟨o,current,claimed',kind,space,named,identity,List.mem_cons_of_mem _ List.mem_cons_self,same,
      List.mem_cons_self⟩,fun x => ?_⟩
    have deferred : ∀ x, Licensed (licence task) (Ends o) (⟨.kube (.deleteInstance ns name uid),x⟩ ::
        ⟨.db (.recordPolicy o current.spec.storage.deletionPolicy),.ok ()⟩ ::
        ⟨.kube (.readInstance ns name),.ok current⟩ :: past) (Worker.defer o) :=
      fun x => licensed_defer (claimed'.mono (List.suffix_cons _ _))
    cases x with
    | ok _ => exact deferred _
    | error e =>
      change Licensed _ _ _ (if statusCode e = some 409 then _ else if statusCode e = some 404 then _ else _)
      by_cases taken : statusCode e = some 409
      · rw [if_pos taken]; exact ends_false _
      · rw [if_neg taken]
        by_cases gone : statusCode e = some 404
        · rw [if_pos gone]; exact deferred _
        · rw [if_neg gone]; exact ends_call _ e
  · have claimed : Claimed (⟨.kube (.readInstance ns name),.error e⟩ :: past) o :=
      begun.claimed.mono (List.suffix_cons _ _)
    have absent : Absent (⟨.kube (.readInstance ns name),.error e⟩ :: past) ns name := ⟨e,gone,List.mem_cons_self⟩
    rw [db,licensed_await]
    refine ⟨⟨o,ns,name,claimed,kind,rfl,space,named,absent⟩,fun names => ?_,fun e => ends_call _ e⟩
    -- the loop keeps what the calls before it have shown, and records nothing
    let keeps : Past → Prop := fun later => Claimed later o ∧ Absent later ns name ∧
      (⟨.db (.credentialNames o.instanceId),.ok names⟩ : Happened) ∈ later ∧
      ∀ p policy x, (⟨.db (.recordPolicy p policy),x⟩ : Happened) ∉ later
    have grows : ∀ later (call : KubeCall) x, keeps later → keeps (⟨.kube call,x⟩ :: later) := by
      rintro later call x ⟨claimed,⟨e,gone,read⟩,listed,unrecorded⟩
      refine ⟨claimed.mono (List.suffix_cons _ _),⟨e,gone,List.mem_cons_of_mem _ read⟩,List.mem_cons_of_mem _ listed,?_⟩
      intro p policy y member
      rcases List.mem_cons.mp member with wrong | member
      · cases wrong
      · exact unrecorded p policy y member
    have start : keeps (⟨.db (.credentialNames o.instanceId),.ok names⟩ ::
        ⟨.kube (.readInstance ns name),.error e⟩ :: past) := by
      refine ⟨claimed.mono (List.suffix_cons _ _),⟨e,gone,List.mem_cons_of_mem _ List.mem_cons_self⟩,List.mem_cons_self,?_⟩
      intro p policy y member
      rcases List.mem_cons.mp member with wrong | member
      · cases wrong
      · rcases List.mem_cons.mp member with wrong | member
        · cases wrong
        · exact begun.unrecorded p policy y member
    rw [licensed_bind]
    refine licensed_forEach keeps start ?_ ?_
    · intro secretName member later kept
      exact licensed_deleteCredentials (o := o) kept (fun later x => grows later _ x)
        (fun later uid x => grows later _ x)
        (fun later uid kept => ⟨o,names,kept.1,member,.inl ⟨kind,space,kept.2.2.1⟩⟩)
    · rintro later ⟨claimed,absent,_,unrecorded⟩
      exact licensed_finish claimed (.released kind space named absent unrecorded)

/-! ### Applying a configuration -/

theorem licensed_createInstance {desired : Manifest} {next : CacheObject → Io β} (claimed : Claimed past o)
    (creates : o.kind.creates = true) (asks : o.request.desired = some desired) (first : o.state ≠ .reconciling)
    (rest : ∀ later c, past <:+ later → Applied later o desired c → Licensed (licence task) (Ends o) later (next c)) :
    Licensed (licence task) (Ends o) past (Kubernetes.createInstance desired >>= next) := by
  rw [licensed_bind,Kubernetes.createInstance,onStatus,licensed_tryCatch]
  refine (licensed_await_only (c := .kube (.createInstance desired))).mpr ⟨⟨o,claimed,creates,asks,first⟩,fun x => ?_⟩
  cases x with
  | ok c => exact rest _ c (List.suffix_cons _ _) (.created List.mem_cons_self)
  | error e =>
    change Licensed _ _ _ (if statusCode e = some 409 then _ else _)
    by_cases taken : statusCode e = some 409
    · rw [if_pos taken]
      refine licensed_getInstance (fun current => ?_) (fun e' _ => ?_) (fun e' => ends_call _ e')
      · rw [licensed_present]
        refine ⟨fun current' same => ?_,fun _ => ends_false _⟩
        obtain rfl := Option.some.inj same
        rw [licensed_require]
        refine ⟨fun own => ?_,fun _ => ends_false _⟩
        rw [licensed_require]
        refine ⟨fun unchanged => ?_,fun changed => ?_⟩
        · refine rest _ current ((List.suffix_cons _ _).trans (List.suffix_cons _ _)) ?_
          simp only [sameRequest,Bool.and_eq_true,decide_eq_true_eq] at own
          exact .found List.mem_cons_self unchanged.2 (.inl own.1.2)
        · refine Excused.ends (fun code _ _ => ?_)
          exact .displaced (.edited asks taken (List.mem_cons_of_mem _ List.mem_cons_self) List.mem_cons_self own changed)
      · rw [licensed_present]
        exact ⟨fun _ wrong => (by cases wrong),fun _ => ends_false _⟩
    · rw [if_neg taken]; exact ends_call _ e

theorem licensed_updateInstance {desired : Manifest} {expected : Revision} {next : CacheObject → Io β}
    (claimed : Claimed past o) (applies : o.kind.applies = true) (updates : o.kind.creates = false)
    (asks : o.request.desired = some desired) (expects : o.request.expectedRevision = some expected)
    (first : o.state ≠ .reconciling)
    (rest : ∀ later c, past <:+ later → Applied later o desired c → Licensed (licence task) (Ends o) later (next c)) :
    Licensed (licence task) (Ends o) past (Kubernetes.updateInstance desired expected >>= next) := by
  have superseded : ∀ {later : Past} {code : String},
      Ends o later (.error (.operation code true) : Except Failure β) := by
    intro later code
    refine Excused.ends (fun _ _ creates => ?_)
    rw [updates] at creates; cases creates
  rw [licensed_bind,Kubernetes.updateInstance]
  refine licensed_getInstance (fun current => ?_) (fun e _ => ?_) (fun e => ends_call _ e)
  · rw [licensed_present]
    refine ⟨fun current' same => ?_,fun _ => ends_false _⟩
    obtain rfl := Option.some.inj same
    rw [licensed_require]
    refine ⟨fun identity => ?_,fun _ => ends_false _⟩
    rw [licensed_require]
    refine ⟨fun uid => ?_,fun _ => ends_false _⟩
    split
    · rename_i own
      rw [licensed_require]
      refine ⟨fun _ => ?_,fun _ => superseded⟩
      exact rest _ current (List.suffix_cons _ _) (.found List.mem_cons_self identity.2.2 (.inl own))
    · rename_i other
      rw [licensed_require]
      refine ⟨fun level => ?_,fun _ => superseded⟩
      refine (licensed_await_only (c := .kube (.replaceInstance desired.ns desired.name (updated current desired)))).mpr
        ⟨.inl ⟨o,desired,current,?_,first,rfl,rfl,rfl⟩,fun x => ?_⟩
      · exact
          { claimed := claimed.mono (List.suffix_cons _ _), applies := applies, updates := updates, asks := asks
            expected := by rw [level,expects], read := List.mem_cons_self, instanceId := identity.1, uid := uid.1
            stays := identity.2.2, other := other }
      · cases x with
        | ok c =>
          exact rest _ c ((List.suffix_cons _ _).trans (List.suffix_cons _ _))
            (.replaced current identity.2.2 List.mem_cons_self)
        | error e => exact ends_call _ e
  · rw [licensed_present]
    exact ⟨fun _ wrong => (by cases wrong),fun _ => ends_false _⟩

theorem quiet_checkVolume (o : Operation) (desired : Manifest) : Quiet (checkVolume o desired) :=
  quiet_bind (quiet_present (by simp)) (fun _ => quiet_bind (quiet_present (by simp)) (fun _ =>
    quiet_bind (quiet_present (by simp)) (fun _ => quiet_bind (quiet_getRetainedVolume _) (fun _ =>
      quiet_require (by simp)))))

theorem quiet_provideCredentials (o : Operation) (desired : Manifest) : Quiet (provideCredentials o desired) := by
  refine quiet_bind (quiet_present (by simp)) (fun payload => ?_)
  unfold unsealPayload
  split
  · exact quiet_ensureCredentials _ _ _ _ _ _
  · rename_i e failed
    split at failed
    · cases failed
    · cases failed
      exact quiet_throw (by simp)

theorem licensed_applyDesired {desired : Manifest} {next : CacheObject → Io β} (claimed : Claimed past o)
    (applies : o.kind.applies = true) (asks : o.request.desired = some desired) (first : o.state ≠ .reconciling)
    (rest : ∀ later c, past <:+ later → Applied later o desired c → Licensed (licence task) (Ends o) later (next c)) :
    Licensed (licence task) (Ends o) past (applyDesired o desired >>= next) := by
  rw [licensed_bind,applyDesired]
  refine licensed_quiet (quiet_onlyIf (quiet_checkVolume o desired)) (fun later _ grows => ?_)
    (fun _ _ _ scolds => scolded_ends scolds)
  refine licensed_quiet (quiet_onlyIf (quiet_ensureProject _ _)) (fun later' _ grows' => ?_)
    (fun _ _ _ scolds => scolded_ends scolds)
  refine licensed_quiet (quiet_onlyIf (quiet_provideCredentials o desired)) (fun later'' _ grows'' => ?_)
    (fun _ _ _ scolds => scolded_ends scolds)
  have older := (grows.trans grows').trans grows''
  split
  · rename_i creates
    rw [← licensed_bind]
    exact licensed_createInstance (claimed.mono older) creates asks first
      (fun end' c grows => rest end' c (older.trans grows))
  · rename_i updates
    rw [licensed_present]
    refine ⟨fun expected expects => ?_,fun _ => ends_false _⟩
    rw [← licensed_bind]
    exact licensed_updateInstance (claimed.mono older) applies (by simpa using updates) asks expects first
      (fun end' c grows => rest end' c (older.trans grows))

/-! ### Approving and concluding -/

/-- Why an approval may be written for an identity. -/
def Identified (past : Past) (o : Operation) (desired : Manifest) (uid : KubeUid) : Prop :=
  (∃ generation, Bound past o uid generation) ∨
    (o.state = .reconciling ∧ o.targetGeneration.isSome ∧ ∃ c, c.uid = some uid ∧
      Since past ⟨.kube (.readInstance desired.ns desired.name),.ok c⟩
        (fun earlier => Claimed earlier o ∧ ∀ ns name x, (⟨.kube (.readInstance ns name),x⟩ : Happened) ∉ earlier))

theorem Identified.mono {later : Past} {desired : Manifest} {uid : KubeUid} (grows : past <:+ later)
    (identified : Identified past o desired uid) : Identified later o desired uid := by
  rcases identified with ⟨generation,bound⟩ | ⟨resumes,set,c,identity,since⟩
  · exact .inl ⟨generation,grows.subset bound⟩
  · exact .inr ⟨resumes,set,c,identity,since.mono grows⟩

theorem licensed_approve {desired : Manifest} {c : CacheObject} {next : Io β} (claimed : Claimed past o)
    (asks : o.request.desired = some desired) (identified : ∀ uid, o.kind = .reclaim → c.uid = some uid → Identified past o desired uid)
    (rest : ∀ later, past <:+ later → Licensed (licence task) (Ends o) later next) :
    Licensed (licence task) (Ends o) past (onlyIf (o.kind = .reclaim) (approve o desired c) >>= fun _ => next) := by
  rw [licensed_bind,onlyIf]
  split
  · rename_i kind
    rw [approve,licensed_require]
    refine ⟨fun _ => ?_,fun _ => ends_false _⟩
    rw [licensed_present]
    refine ⟨fun uid identity => ?_,fun _ => ends_false _⟩
    rw [approveRetainedVolumeReclaim,licensed_require]
    refine ⟨fun _ => ?_,fun _ => ends_false _⟩
    refine licensed_getInstance (fun current => ?_) (fun e _ => ?_) (fun e => ends_call _ e)
    · rw [licensed_present]
      refine ⟨fun current' same => ?_,fun _ => ends_false _⟩
      obtain rfl := Option.some.inj same
      rw [licensed_require]
      refine ⟨fun approvable => ?_,fun _ => ends_false _⟩
      split
      · exact rest _ (List.suffix_cons _ _)
      · rw [licensed_require]
        refine ⟨fun unmarked => ?_,fun _ => ends_false _⟩
        rw [licensed_require]
        refine ⟨fun _ => ?_,fun _ => ends_false _⟩
        rw [kube,licensed_await]
        refine ⟨.inr ⟨o,desired,current,uid,?_,rfl,rfl,rfl⟩,
          fun _ => rest _ ((List.suffix_cons _ _).trans (List.suffix_cons _ _)),fun e => ends_call _ e⟩
        exact
          { claimed := claimed.mono (List.suffix_cons _ _), kind := kind, asks := asks, read := List.mem_cons_self
            approvable := approvable, unmarked := unmarked
            identified := (identified uid kind identity).mono (List.suffix_cons _ _) }
    · rw [licensed_present]
      exact ⟨fun _ wrong => (by cases wrong),fun _ => ends_false _⟩
  · exact rest past List.suffix_rfl

theorem licensed_conclude {desired : Manifest} {c : CacheObject} {target : Option Nat} (claimed : Claimed past o)
    (applies : o.kind.applies = true) (asks : o.request.desired = some desired)
    (seen : Applied past o desired c ∨ Read past desired.ns desired.name c) (targeted : Targeted past o target) :
    Licensed (licence task) (Ends o) past (conclude o desired c target) := by
  rw [conclude,db,licensed_await]
  refine ⟨⟨o,target,claimed,rfl,targeted⟩,fun bound => ?_,fun e => ends_call _ e⟩
  rw [licensed_require]
  refine ⟨fun identity => ?_,fun _ => ends_false _⟩
  obtain ⟨uid,same,instanceId,projectId⟩ := identity
  have older : past <:+ ⟨.db (.boundUid o.instanceId),.ok bound⟩ :: past := List.suffix_cons _ _
  have compared : Compared (⟨.db (.boundUid o.instanceId),.ok bound⟩ :: past) o desired c target :=
    { asks := asks, seen := seen.imp (Applied.mono older) (Read.mono older), targeted := targeted.mono older, uid := uid
      bound := ⟨[],past,by rw [same]; rfl,claimed,targeted⟩, instanceId := instanceId, projectId := projectId }
  rw [licensed_require]
  refine ⟨fun level => ?_,fun other => Excused.ends (fun code _ _ => .displaced (.moved compared other))⟩
  have claimed' := claimed.mono older
  split
  · rename_i ready
    have finishes : ∀ later, ⟨.db (.boundUid o.instanceId),.ok bound⟩ :: past <:+ later →
        Licensed (licence task) (Ends o) later (Worker.finish o .succeeded none
          (.activated (desired.annotations.displayName.getD "") desired.spec.access.credentialsSecretRef)) :=
      fun later grows => licensed_finish (claimed'.mono grows)
        (.activated applies (compared.mono grows) level.1 level.2 ready)
    rw [licensed_bind,onlyIf]
    split
    · rename_i kind
      rw [revokeOlder,db,licensed_await]
      refine ⟨⟨o,desired,c,target,claimed',kind,rfl,rfl,compared,level.2⟩,fun names => ?_,fun e => ends_call _ e⟩
      let keeps : Past → Prop := fun later =>
        ⟨.db (.olderCredentialNames o.instanceId desired.spec.access.credentialsSecretRef),.ok names⟩ ::
          ⟨.db (.boundUid o.instanceId),.ok bound⟩ :: past <:+ later
      have listed : ∀ later, keeps later →
          (⟨.db (.olderCredentialNames o.instanceId desired.spec.access.credentialsSecretRef),.ok names⟩ : Happened) ∈
            later := fun later kept => kept.subset List.mem_cons_self
      refine licensed_forEach keeps List.suffix_rfl ?_ ?_
      · intro secretName member later kept
        exact licensed_deleteCredentials (o := o) kept (fun _ _ kept => kept.trans (List.suffix_cons _ _))
          (fun _ _ _ kept => kept.trans (List.suffix_cons _ _))
          (fun later uid kept => ⟨o,names,(claimed'.mono (List.suffix_cons _ _)).mono kept,member,
            .inr ⟨desired,kind,asks,rfl,listed later kept⟩⟩)
      · intro later kept
        exact finishes later ((List.suffix_cons _ _).trans kept)
    · exact finishes _ List.suffix_rfl
  · split
    · exact ends_false _
    · exact licensed_defer claimed'

theorem executeDesired_licensed (begun : Begun past o) (applies : o.kind.applies = true) :
    Licensed (licence task) (Ends o) past (executeDesired o) := by
  rw [executeDesired,licensed_present]
  refine ⟨fun desired asks => ?_,fun _ => ends_false _⟩
  split
  · rename_i first
    refine licensed_applyDesired begun.claimed applies asks first (fun later c grows applied => ?_)
    refine licensed_bindObject (begun.claimed.mono grows) applies asks applied (fun uid generation identity => ?_)
      (fun _ _ excused => excused.ends)
    have older : later <:+ ⟨.db (.bind o uid generation),.ok true⟩ :: later := List.suffix_cons _ _
    have claimed := (begun.claimed.mono grows).mono older
    refine licensed_approve claimed asks (fun uid' _ same => ?_) (fun end' grows' => ?_)
    · rw [identity] at same
      obtain rfl := Option.some.inj same
      exact .inl ⟨generation,List.mem_cons_self⟩
    · exact licensed_conclude (claimed.mono grows') applies asks (.inl ((applied.mono older).mono grows'))
        (.bound (grows'.subset List.mem_cons_self))
  · rename_i resumes
    have resumes : o.state = .reconciling := by simpa using resumes
    rw [licensed_bind,observe]
    refine licensed_getInstance (fun current => ?_) (fun e _ => ?_) (fun e => ends_call _ e)
    · rw [licensed_present]
      refine ⟨fun current' same => ?_,fun _ => ends_false _⟩
      obtain rfl := Option.some.inj same
      have older : past <:+ ⟨.kube (.readInstance desired.ns desired.name),.ok current⟩ :: past := List.suffix_cons _ _
      have claimed := begun.claimed.mono older
      have read : Read (⟨.kube (.readInstance desired.ns desired.name),.ok current⟩ :: past) desired.ns desired.name
        current := List.mem_cons_self
      split
      · rename_i recovers
        rw [licensed_require]
        refine ⟨fun recoverable => ?_,fun _ => ends_false _⟩
        simp only [Worker.recoverable,Bool.and_eq_true,Bool.not_eq_true',decide_eq_true_eq] at recoverable
        refine licensed_bindObject claimed applies asks (.found read (by tauto) (.inr (by tauto)))
          (fun uid generation identity => ?_) (fun _ _ excused => excused.ends)
        have older' : _ <:+ ⟨.db (.bind o uid generation),.ok true⟩ ::
          ⟨.kube (.readInstance desired.ns desired.name),.ok current⟩ :: past := List.suffix_cons _ _
        refine licensed_approve (claimed.mono older') asks (fun uid' _ same => ?_) (fun end' grows' => ?_)
        · rw [identity] at same
          obtain rfl := Option.some.inj same
          exact .inl ⟨generation,List.mem_cons_self⟩
        · exact licensed_conclude ((claimed.mono older').mono grows') applies asks
            (.inr ((read.mono older').mono grows')) (.bound (grows'.subset List.mem_cons_self))
      · rename_i targets
        have set : o.kind.creates = true → o.targetGeneration.isSome := by
          intro creates
          by_contra none'
          exact targets ⟨creates,by simpa using none'⟩
        refine licensed_approve claimed asks (fun uid kind identity => ?_) (fun end' grows' => ?_)
        · have creates : o.kind.creates = true := by rw [kind]; rfl
          exact .inr ⟨resumes,set creates,current,identity,[],past,rfl,begun.claimed,begun.unread⟩
        · exact licensed_conclude (claimed.mono grows') applies asks (.inr (read.mono grows')) (.recorded resumes set)
    · rw [licensed_present]
      exact ⟨fun _ wrong => (by cases wrong),fun _ => ends_false _⟩

/-! ### A tick -/

theorem executeKind_licensed (begun : Begun past o) : Licensed (licence task) (Ends o) past (executeKind o) := by
  unfold executeKind
  split
  · exact executeProject_licensed begun.claimed ‹_›
  · exact executeVolumeDelete_licensed begun.claimed ‹_›
  · exact executeDelete_licensed begun ‹_›
  all_goals
    rename_i kind
    exact executeDesired_licensed begun (by rw [kind]; rfl)

theorem execute_licensed {gated : Bool} (begun : Begun past o) :
    Licensed (licence task) (Ends o) past (execute gated o) := by
  have passed : ∀ later (passes : Bool), Begun later o → Licensed (licence task) (Ends o) later
      (if passes then executeKind o else Worker.defer o (some "project_quota_not_ready")) := by
    intro later passes begun
    cases passes with
    | false => exact licensed_defer begun.claimed
    | true => exact executeKind_licensed begun
  rw [execute,licensed_bind,gate]
  split
  · refine (licensed_await_only (c := .db (.quotaGate o.projectId))).mpr ⟨?_,fun x => ?_⟩
    · trivial
    have later : Begun (⟨.db (.quotaGate o.projectId),x⟩ :: past) o :=
      ⟨begun.claimed.mono (List.suffix_cons _ _),
        fun ns name y member => begun.unread ns name y ((List.mem_cons.mp member).resolve_left (fun wrong => by cases wrong)),
        fun p policy y member =>
          begun.unrecorded p policy y ((List.mem_cons.mp member).resolve_left (fun wrong => by cases wrong))⟩
    cases x with
    | ok passes => exact passed _ passes later
    | error e => exact ends_call _ e
  · exact passed past true begun

theorem recover_licensed {e : Failure} (claimed : Claimed past o) (excused : Excused o past e) :
    Licensed (licence task) (fun _ _ => True) past (recover o e) := by
  have anyhow : ∀ {p : Io Unit}, Licensed (licence task) (Ends o) past p →
      Licensed (licence task) (fun _ _ => True) past p :=
    fun keeps => keeps.mono (fun _ _ _ may => may) (fun _ _ _ _ => trivial)
  unfold recover
  split
  · rename_i code superseded
    cases superseded with
    | true => exact anyhow (licensed_finish claimed (.superseded (excused code rfl)))
    | false => exact anyhow (licensed_finish claimed .failed)
  · split
    · split
      · exact anyhow (licensed_finish claimed .failed)
      · exact anyhow (licensed_defer claimed)
    · exact anyhow (licensed_defer claimed)

theorem tick_licensed (gated : Bool) (claim : ClaimId) :
    Licensed (licence (.tick gated claim)) (fun _ _ => True) [] (tick gated claim) := by
  rw [tick,db,licensed_await]
  refine ⟨⟨rfl,gated,rfl⟩,fun claimed => ?_,fun _ => trivial⟩
  cases claimed with
  | none => trivial
  | some o =>
    rw [licensed_tryCatch]
    -- whatever stops the execution, the operation is still the claimed one
    have body : Licensed (licence (.tick gated claim)) (Ends o) [⟨.db (.claim claim),.ok (some o)⟩] (do
        let now ← Io.await .clock
        require (now ≤ o.deadlineAt) (.operation "operation_deadline_exceeded" false)
        execute gated o) := by
      rw [licensed_await]
      refine ⟨trivial,fun now => ?_,fun e => ends_call _ e⟩
      rw [licensed_require]
      refine ⟨fun _ => execute_licensed ?_,fun _ => ends_false _⟩
      exact
        { claimed := ⟨claim,by simp⟩
          unread := by
            intro ns name x member
            rcases List.mem_cons.mp member with wrong | member
            · cases wrong
            · cases List.mem_singleton.mp member
          unrecorded := by
            intro p policy x member
            rcases List.mem_cons.mp member with wrong | member
            · cases wrong
            · cases List.mem_singleton.mp member }
    refine body.mono (fun _ _ _ may => may) ?_
    intro later result grows ends
    cases result with
    | ok _ => trivial
    | error e => exact recover_licensed (Claimed.mono grows ⟨claim,by simp⟩) (ends e rfl)

end

/-! ### Requests -/

section
variable {task : Task} {past : Past} {α : Type}

/-- A request may end in any way. -/
theorem licensed_any {β : Type} {p : Io β} {next : β → Io α} (quiet : Quiet p)
    (rest : ∀ later a, past <:+ later → Licensed (licence task) (fun _ _ => True) later (next a)) :
    Licensed (licence task) (fun _ _ => True) past (p >>= next) :=
  licensed_quiet quiet rest (fun _ _ _ _ => trivial)

/-- A last call whose answer is all that counts. -/
theorem licensed_last {c : Call} {reply : c.Value → α} (may : licence task past c) :
    Licensed (licence task) (fun _ _ => True) past (Io.await c >>= fun v => pure (reply v)) := by
  rw [licensed_await]
  exact ⟨may,fun _ => trivial,fun _ => trivial⟩

theorem licensed_readOwned {options : Options} {instanceId : InstanceId} {b : BindingRow}
    {next : Option CacheObject → Io α}
    (rest : ∀ later c, past <:+ later → (∀ current, c = some current →
        Read later b.ns b.binding.resourceName current ∧ Routes.describes instanceId b.binding current = true) →
      Licensed (licence task) (fun _ _ => True) later (next c)) :
    Licensed (licence task) (fun _ _ => True) past (Routes.readOwned options instanceId b >>= next) := by
  rw [licensed_bind,Routes.readOwned,licensed_bind,Routes.otherwise,licensed_tryCatch,Routes.requireKube,
    licensed_require]
  refine ⟨fun _ => licensed_getInstance_only (fun c => ?_) (fun e _ => ?_) (fun _ => trivial),fun _ => trivial⟩
  · change Licensed _ _ _ (require _ _ >>= fun _ => pure _)
    rw [licensed_require]
    refine ⟨fun described => ?_,fun _ => trivial⟩
    refine rest _ (some c) (List.suffix_cons _ _) ?_
    intro current same
    obtain rfl := Option.some.inj same
    exact ⟨List.mem_cons_self,by simpa using described⟩
  · change Licensed _ _ _ (require _ _ >>= fun _ => pure _)
    rw [licensed_require]
    exact ⟨fun _ => rest _ none (List.suffix_cons _ _) (fun _ wrong => by cases wrong),fun _ => trivial⟩

theorem updateInstance_licensed (options : Options) (caller : Caller) (instanceId : InstanceId) (input : InstanceInput)
    (expected : Revision) (drawn : Nat) : Licensed (licence task) (fun _ _ => True) past
      (Routes.updateInstance options caller instanceId input expected drawn) := by
  refine licensed_any (quiet_await rfl) (fun later _ _ => licensed_any (quiet_await rfl) (fun later previous _ => ?_))
  split
  · trivial
  rw [licensed_require]
  refine ⟨fun _ => ?_,fun _ => trivial⟩
  rw [db,licensed_await]
  refine ⟨trivial,fun b => ?_,fun _ => trivial⟩
  refine licensed_readOwned (fun later c grows owned => ?_)
  have row := grows.subset (List.mem_cons_self (a := (⟨.db (.binding caller.projectId instanceId),.ok b⟩ : Happened)))
  rw [licensed_present]
  refine ⟨fun current same => ?_,fun _ => trivial⟩
  obtain ⟨read,described⟩ := owned current same
  rw [licensed_require]
  refine ⟨fun available => ?_,fun _ => trivial⟩
  rw [licensed_require]
  refine ⟨fun _ => ?_,fun _ => trivial⟩
  rw [licensed_require]
  refine ⟨fun level => ?_,fun _ => trivial⟩
  rw [licensed_require]
  refine ⟨fun _ => ?_,fun _ => trivial⟩
  exact licensed_last ⟨b,current,row,read,described,available.2,level,rfl⟩

theorem rotateCredentials_licensed (options : Options) (caller : Caller) (instanceId : InstanceId)
    (expected : Revision) (drawn : Nat) : Licensed (licence task) (fun _ _ => True) past
      (Routes.rotateCredentials options caller instanceId expected drawn) := by
  refine licensed_any (quiet_await rfl) (fun later _ _ => ?_)
  rw [Routes.requireKube,licensed_require]
  refine ⟨fun _ => ?_,fun _ => trivial⟩
  rw [licensed_require]
  refine ⟨fun _ => licensed_any (quiet_await rfl) (fun later previous _ => ?_),fun _ => trivial⟩
  split
  · trivial
  rw [db,licensed_await]
  refine ⟨trivial,fun b => ?_,fun _ => trivial⟩
  refine licensed_readOwned (fun later c grows owned => ?_)
  have row := grows.subset (List.mem_cons_self (a := (⟨.db (.binding caller.projectId instanceId),.ok b⟩ : Happened)))
  rw [licensed_present]
  refine ⟨fun current same => ?_,fun _ => trivial⟩
  obtain ⟨read,described⟩ := owned current same
  rw [licensed_require]
  refine ⟨fun available => ?_,fun _ => trivial⟩
  exact licensed_last ⟨b,current,row,read,described,available.2.1,available.2.2,rfl⟩

theorem quiet_handled {p : Io α} {answer : Failure → Failure} (body : Quiet p)
    (plain : ∀ e code, answer e ≠ .operation code true) : Quiet (tryCatch p (fun e => throw (answer e))) :=
  quiet_tryCatch body (fun e => .inl (quiet_throw (plain e)))

theorem reclaimRetainedVolume_licensed (options : Options) (caller : Caller) (instanceId : InstanceId)
    (volumeUid : VolumeUid) (input : InstanceInput) (drawn : Nat) : Licensed (licence task) (fun _ _ => True) past
      (Routes.reclaimRetainedVolume options caller instanceId volumeUid input drawn) := by
  refine licensed_any (quiet_await rfl) (fun later _ _ => ?_)
  rw [licensed_require]
  refine ⟨fun _ => ?_,fun _ => trivial⟩
  rw [licensed_present]
  refine ⟨fun storageClass _ => licensed_any (quiet_await rfl) (fun later previous _ => ?_),fun _ => trivial⟩
  split
  · trivial
  rw [db,licensed_await]
  refine ⟨trivial,fun b => ?_,fun _ => trivial⟩
  rw [licensed_require]
  refine ⟨fun _ => ?_,fun _ => trivial⟩
  rw [licensed_present]
  refine ⟨fun uid bound => ?_,fun _ => trivial⟩
  rw [licensed_present]
  refine ⟨fun version _ => ?_,fun _ => trivial⟩
  rw [licensed_require]
  refine ⟨fun _ => ?_,fun _ => trivial⟩
  refine licensed_any (quiet_handled (quiet_bind (quiet_require (by simp)) (fun _ => quiet_getRetainedVolume _)) ?_)
    (fun later observed grows => ?_)
  · intro e code
    cases e <;> simp [Routes.storageError]
  rw [licensed_present]
  refine ⟨fun volume _ => ?_,fun _ => trivial⟩
  rw [licensed_require]
  refine ⟨fun _ => ?_,fun _ => trivial⟩
  rw [licensed_require]
  refine ⟨fun _ => ?_,fun _ => trivial⟩
  refine licensed_any (quiet_handled (quiet_bind (quiet_require (by simp)) (fun _ => quiet_getInstance _ _)) (by simp))
    (fun later' existing grows' => ?_)
  rw [licensed_require]
  refine ⟨fun _ => ?_,fun _ => trivial⟩
  have row := (grows.trans grows').subset
    (List.mem_cons_self (a := (⟨.db (.binding caller.projectId instanceId),.ok b⟩ : Happened)))
  exact licensed_last ⟨b,storageClass,version,uid,row,rfl,bound,rfl⟩

theorem handle_licensed (options : Options) (drawn : Nat) (request : Routes.Request) :
    Licensed (licence task) (fun _ _ => True) past (Routes.handle options drawn request) := by
  have quietly : ∀ {p : Io Routes.Reply}, Quiet p → Licensed (licence task) (fun _ _ => True) past p := fun quiet =>
    (quiet past).mono (fun later _ _ unrestricted => licence_free task later unrestricted) (fun _ _ _ _ => trivial)
  cases request with
  | createProject actor =>
    exact quietly (quiet_bind (quiet_await rfl) (fun _ => quiet_bind (quiet_await rfl) (fun _ => quiet_pure _)))
  | retryProject caller =>
    exact quietly (quiet_bind (quiet_await rfl) (fun _ => quiet_bind (quiet_await rfl) (fun _ => quiet_pure _)))
  | updateQuota caller limits expected =>
    exact quietly (quiet_bind (quiet_await rfl) (fun _ => quiet_bind (quiet_await rfl) (fun _ =>
      quiet_bind (quiet_await rfl) (fun _ => quiet_pure _))))
  | createInstance caller input =>
    exact quietly (quiet_bind (quiet_await rfl) (fun _ => quiet_bind (quiet_require (by simp)) (fun _ =>
      quiet_bind (quiet_require (by simp)) (fun _ => quiet_bind (quiet_present (by simp)) (fun _ =>
        quiet_bind (quiet_await rfl) (fun _ => quiet_pure _))))))
  | updateInstance caller instanceId input expected => exact updateInstance_licensed _ _ _ _ _ _
  | rotateCredentials caller instanceId expected => exact rotateCredentials_licensed _ _ _ _ _
  | deleteInstance caller instanceId =>
    exact quietly (quiet_bind (quiet_await rfl) (fun _ => quiet_bind (quiet_await rfl) (fun _ => quiet_pure _)))
  | deleteRetainedVolume caller instanceId uid =>
    exact quietly (quiet_bind (quiet_await rfl) (fun _ => quiet_bind (quiet_require (by simp)) (fun _ =>
      quiet_bind (quiet_await rfl) (fun _ => quiet_pure _))))
  | reclaimRetainedVolume caller instanceId volumeUid input => exact reclaimRetainedVolume_licensed _ _ _ _ _ _
  | retryOperation caller operationId =>
    exact quietly (quiet_bind (quiet_await rfl) (fun _ => quiet_bind (quiet_await rfl) (fun _ => quiet_pure _)))

end

/-- Every program keeps to its licence. -/
theorem licensed (task : Task) : Licensed (licence task) (fun _ _ => True) [] (program task) := by
  have ends : ∀ {α : Type} {f : α → Option Routes.Reply} (later : Past) (result : Except Failure α), [] <:+ later → True →
      andThen (licence task) (fun _ _ => True) (fun a => (pure (f a) : Io (Option Routes.Reply))) later result := by
    intro α f later result _ _
    cases result with
    | ok a => trivial
    | error e => trivial
  cases task with
  | tick gated claim =>
    rw [program,licensed_bind]
    exact (tick_licensed gated claim).mono (fun _ _ _ may => may) ends
  | request options request drawn =>
    rw [program,licensed_bind]
    exact (handle_licensed options drawn request).mono (fun _ _ _ may => may) ends

/-- A call that a thread makes in a step is licensed by its past. -/
theorem licensed_makes {s s' : System} {t : Running} {c : Call} {x : c.Answer} (makes : Makes s s' t c x) :
    licence t.tag t.history c := by
  obtain ⟨next,left⟩ := makes.next
  have ran := t.ran
  rw [left] at ran
  exact ran.licensed (licensed t.tag)

end Expbuild.Licensing
