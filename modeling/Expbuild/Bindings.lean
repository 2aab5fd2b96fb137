import Expbuild.Operating
import Expbuild.Successions

/-!
The images of an instance. The API server lets nobody change a binding once it is there;
then the operator does not either, and whatever it creates or brings up to date runs
exactly the images that the instance was bound to before, and is still bound to
(`images_pinned`). All else that it ever writes of a workload is that it stops.
-/
namespace Expbuild.Bindings
open Expbuild.Contract Expbuild.Objects Expbuild.Programs Expbuild.Runs Expbuild.Clusters Expbuild.Controllers Expbuild.Guarantees
  Expbuild.Successions
  Expbuild.Kinds Expbuild.Adapters Expbuild.Reconciler Expbuild.Permits Expbuild.Permissions Expbuild.Operating
open Expbuild.Calls (Key)

/-- The later version is still bound to the images of the earlier one. -/
def WriteOnce (old new : Instance) : Prop :=
  ∀ b, old.metadata.status.imageBinding = some b → new.metadata.status.imageBinding = some b

/-- The rule of the custom resource: a binding that is set stays as it is. -/
def Binds (c c' : Cluster scheme) : Prop := ∀ (n : Key) (old new : Instance), c.at_ Kind.cacheInstance n = some old →
  c'.at_ Kind.cacheInstance n = some new → WriteOnce old new

section
variable {t : Toolkit} {codec : Codec} {a s : Operators t codec} {d : OperatorDeed} {key : Key} {settings : Settings} {past : Past}
  {c : Cluster scheme} {i : Instance}

theorem works_read (works : Works past key i) : Read past .cacheInstance key i := works.first.subset (List.mem_singleton_self _)

theorem permit_once {n : Key} {r : Request scheme} {old new : Instance} (wf : ∀ k, Wf (c k)) (real : Controllers.Real past c)
    (may : permit t codec key settings past r) (present : c.at_ Kind.cacheInstance n = some old)
    (alters : Alters (S := scheme) Kind.cacheInstance n r old new) : WriteOnce old new := by
  intro b bound
  cases alters with
  | same same =>
    rw [same]
    exact bound
  | patched request put specified =>
    rw [request] at may
    obtain ⟨i,works,write⟩ := may
    generalize version : old.version = number at write
    cases write with
    | bound alive unbound origin vetted rendered =>
      have same := real.current wf (works_read works) present version
      rw [same,unbound] at bound
      cases bound
    | reported alive read same ready stopped =>
      have same := real.current wf read present version
      rw [put,← same]
      exact bound
    | released released =>
      have same := real.current wf (works_read works) present version
      rw [put,← same]
      exact bound
  | merged request put specified =>
    rw [put]
    exact bound
  | deleted request put specified =>
    rw [put]
    exact bound

theorem binding_rules : Rules (operator t codec) Binds (permit t codec)
    (fun c _ => Follows WriteOnce (c Kind.cacheInstance)) (fun _ _ _ _ _ => True) :=
  follows_rules (fun _ _ bound => bound) (fun first second b bound => second b (first b bound))
    (fun key config => reconcile_permitted t codec config key) (fun wf real may was alters => permit_once wf real may was alters)
    (fun keeps was now => keeps _ _ _ was now)

/-- The instance of a pass was bound when the pass read it, and it still is. -/
structure Pinned (d : OperatorDeed) (c : Instance) (b : ImageBinding) : Prop where
  works : Works d.past d.key c
  bound : c.metadata.status.imageBinding = some b
  own : b.instanceUid = c.uid ∧ b.templateRef = refOf c
  still : ∀ e, d.before.at_ Kind.cacheInstance d.key = some e → e.uid = c.uid → e.metadata.status.imageBinding = some b

/-- What the operator does to a workload. -/
inductive WorkloadDeed (d : OperatorDeed) (c : Instance) : Request scheme → Prop where
  | created {b : ImageBinding} {m : WorkloadMeta} {s : WorkloadSpec} (pinned : Pinned d c b)
      (absent : d.before.at_ Kind.workload d.key = none) (runs : podImages s.template.spec = some b.images) :
      WorkloadDeed d c (Request.create Kind.workload d.key m s)
  | applied {b : ImageBinding} {sts : Workload} {s : WorkloadSpec} (pinned : Pinned d c b)
      (met : d.before.at_ Kind.workload d.key = some sts) (ran : podImages sts.spec.template.spec = some b.images)
      (runs : podImages s.template.spec = some b.images) :
      WorkloadDeed d c (Request.patch Kind.workload d.key sts.version sts.metadata s)
  | stopped {sts : Workload} (met : d.before.at_ Kind.workload d.key = some sts) (owned : ownedWorkload c sts = true)
      (why : c.deleting = true ∨ suspended c = true) :
      WorkloadDeed d c (Request.patch Kind.workload d.key sts.version sts.metadata { sts.spec with replicas := some 0 })

theorem pinned_of_bound {adapter : Adapter} (sound : Sound (operator t codec) d) (follows : Follows WriteOnce (d.before Kind.cacheInstance))
    (works : Works d.past d.key i) (bound : Bound i adapter) : ∃ b, Pinned d i b ∧ adapter.images = b.images := by
  obtain ⟨b,binding,trusted⟩ := bound
  obtain ⟨ref,images,_,uid⟩ := trusted_tidy trusted
  obtain ⟨same,was⟩ := works_on sound works
  have template : b.templateRef = refOf i := by
    obtain ⟨_,checked,_⟩ := Renderers.bind_ok trusted
    exact (of_decide_eq_true (Renderers.require_ok checked)).2.2
  refine ⟨b,⟨works,binding,⟨uid,template⟩,fun e present identity => ?_⟩,images⟩
  rw [← same] at present
  exact follows i was e present identity b binding

/-- Everything that is wanted is wanted for a bound instance. -/
theorem wanted_bound {desired : Desired} (wanted : Wanted t settings past i desired) : ∃ adapter, Bound i adapter := by
  cases wanted with
  | cache provided member => exact ⟨_,provided.bound⟩
  | gateway set alive asked held rendered member bound => exact bound
  | monitoring alive asked held rendered member bound => exact bound

/-- A workload that is wanted runs the images that the instance is bound to. -/
theorem wanted_workload {n : Key} {m : WorkloadMeta} {spec : WorkloadSpec} (wanted : Wanted t settings past i (.workload n m spec)) :
    ∃ adapter, Bound i adapter ∧ podImages spec.template.spec = some adapter.images := by
  obtain ⟨adapter,secret,objects,d',provided,renders,same⟩ := wanted_rendered wanted (fun _ _ _ wrong => by cases wrong)
  cases renders with
  | volume => cases same
  | config name spec => cases same
  | child spec own => cases same
  | workload runs marked =>
    cases same
    exact ⟨adapter,provided.bound,runs⟩

theorem creates_pinned {k : Kind} {n : k.Name} {m : k.Meta} {spec : k.Spec} (sound : Sound (operator t codec) d)
    (follows : Follows WriteOnce (d.before Kind.cacheInstance)) (request : d.request = Request.create k n m spec) :
    ∃ c b, Pinned d c b := by
  have permitted := deed_permitted sound
  rw [request] at permitted
  obtain ⟨i,works,creates⟩ := permitted
  have pinned : ∀ {adapter : Adapter}, Bound i adapter → ∃ c b, Pinned d c b := by
    intro adapter bound
    obtain ⟨b,pinned,_⟩ := pinned_of_bound sound follows works bound
    exact ⟨i,b,pinned⟩
  cases creates with
  | volume wanted => exact pinned (wanted_bound wanted).choose_spec
  | config wanted => exact pinned (wanted_bound wanted).choose_spec
  | child wanted => exact pinned (wanted_bound wanted).choose_spec
  | workload wanted => exact pinned (wanted_bound wanted).choose_spec
  | record deleting read own bound trusted => exact pinned ⟨_,bound,trusted⟩

theorem workload_deed {n : Key} (sound : Sound (operator t codec) d) (follows : Follows WriteOnce (d.before Kind.cacheInstance))
    (touches : Touches (S := scheme) Kind.workload n d.request) : ∃ c, Works d.past d.key c ∧ WorkloadDeed d c d.request := by
  have permitted := deed_permitted sound
  generalize request : d.request = r at touches permitted ⊢
  cases touches with
  | create m spec =>
    obtain ⟨i,works,creates⟩ := permitted
    have key := (works_on sound works).1
    have absent := create_meets sound request
    cases creates with
    | workload wanted =>
      obtain ⟨adapter,bound,runs⟩ := wanted_workload wanted
      obtain ⟨b,pinned,images⟩ := pinned_of_bound sound follows works bound
      rw [key] at absent ⊢
      exact ⟨i,works,.created pinned absent (images ▸ runs)⟩
  | patch version m spec =>
    obtain ⟨i,works,write⟩ := permitted
    have key := (works_on sound works).1
    cases write with
    | stopped why read owned =>
      have met := patch_meets sound request read
      rw [key] at met ⊢
      exact ⟨i,works,.stopped met owned why⟩
    | applied wanted read own updated =>
      have met := patch_meets sound request read
      obtain ⟨adapter,bound,runs⟩ := wanted_workload wanted
      obtain ⟨b,pinned,images⟩ := pinned_of_bound sound follows works bound
      obtain ⟨same,set,asked,ran⟩ := updateWorkload_exact updated
      cases same
      rw [runs,images] at asked
      cases asked
      rw [key] at met ⊢
      exact ⟨i,works,.applied pinned met ran (images ▸ runs)⟩
  | merge p => exact permitted.elim
  | delete uid version =>
    obtain ⟨i,works,deletes⟩ := permitted
    cases deletes

/-- Nobody ever changes a binding; nothing is created for an instance that was not bound
    before; and every workload that is created or brought up to date ran and runs exactly
    the images that the instance is bound to. -/
theorem images_pinned (runs : Operates t codec Binds a s) (begins : Follows WriteOnce (a.cluster Kind.cacheInstance)) :
    Follows WriteOnce (s.cluster Kind.cacheInstance) ∧ ∀ d ∈ s.deeds,
      (∀ k n m spec, d.request = Request.create k n m spec → ∃ c b, Pinned d c b) ∧
      ∀ n : Key, Touches (S := scheme) Kind.workload n d.request → ∃ c, Works d.past d.key c ∧ WorkloadDeed d c d.request := by
  have held := binding_rules.held runs.1 begins runs.2
  refine ⟨held.common,fun d member => ?_⟩
  obtain ⟨after,before,split⟩ := List.append_of_mem member
  have follows := (held.deeds before d after split).common
  have sound := deed_sound runs member
  exact ⟨fun k n m spec request => creates_pinned sound follows request,fun n touches => workload_deed sound follows touches⟩

end

/-! ### An instance that gets its workload -/

def workingKey : Key := (⟨1⟩,⟨1⟩)
def working : Instance where
  key := workingKey
  uid := 0
  generation := 1
  version := 0
  deleting := false
  finalizers := false
  metadata :=
    { labels := labels 1 (some 1)
      finalizers := { cleanup := true }
      status := { imageBinding := some ⟨"v1",0,⟨.nxHttp,.v010⟩,Finmap.singleton "cache" image⟩ } }
  spec :=
    { instanceId := 1
      projectId := 1
      pinned := true
      templateName := .nxHttp
      templateVersion := .v010
      desiredState := .running
      storage := ⟨"standard","2Gi",.retain,none⟩
      access := ⟨.clusterInternal,.initial 1,none⟩
      eviction := ⟨1,.lru⟩
      requests := ⟨some "1",some "1"⟩
      limits := ⟨some "1",some "1"⟩ }
def workingSecret : Secret := ⟨((⟨1⟩ : Namespace),SecretName.initial 1),0,1,0,false,false,{ labels := labels 1 (some 1) },[0]⟩

/-- It is bound, and nothing has been applied yet. -/
def bare : Operators toolkit records where
  cluster := populated [
    .create Kind.project (⟨1⟩ : Namespace) (labels 1 : Labels) (),
    .create Kind.cacheInstance workingKey working.metadata working.spec,
    .create Kind.secret workingSecret.key workingSecret.metadata workingSecret.spec]

theorem bare_start : Start (operator toolkit records) bare := ⟨populated_wf _,rfl,rfl,rfl⟩

/-- One pass, which applies everything. -/
def deploys : List (Label scheme Key Settings) :=
  .start workingKey ⟨{},none,none,true⟩ :: List.replicate 15 (.run workingKey .delivered)

def createsWorkload (d : OperatorDeed) : Bool :=
  match d.request with
  | .create .workload _ _ _ => true
  | _ => false

theorem images_pinned_deploying : ∃ s, Operates toolkit records Binds bare s ∧ ∃ d ∈ s.deeds, ∃ (c : Instance) (b : ImageBinding)
    (m : WorkloadMeta) (spec : WorkloadSpec), d.request = Request.create Kind.workload d.key m spec ∧ Pinned d c b ∧
    podImages spec.template.spec = some b.images := by
  have ends : (run (step (operator toolkit records)) undisturbed deploys bare).any (fun s => s.deeds.any createsWorkload) = true := by
    decide +kernel
  obtain ⟨s,reached,created⟩ := reaches_of_run (fun _ _ alone => orderly_undisturbed alone) ends
  obtain ⟨d,member,creates⟩ := List.any_eq_true.mp created
  have bound : (bare.cluster Kind.cacheInstance).past.all
      (fun e => decide (e.metadata.status.imageBinding = working.metadata.status.imageBinding)) = true := by decide +kernel
  have bound := List.all_eq_true.mp bound
  have begins : Follows WriteOnce (bare.cluster Kind.cacheInstance) := by
    refine follows_past (bare_start.stores Kind.cacheInstance) (fun e member e' member' b binding => ?_)
    rw [of_decide_eq_true (bound e member)] at binding
    rw [of_decide_eq_true (bound e' member'),binding]
  unfold createsWorkload at creates
  split at creates
  · rename_i n m spec request
    obtain ⟨c,_,deed⟩ := ((images_pinned ⟨bare_start,reached⟩ begins).2 d member).2 n (request ▸ .create m spec)
    generalize same : d.request = r at request deed
    cases deed with
    | created pinned absent runs => exact ⟨s,⟨bare_start,reached⟩,d,member,c,_,_,_,same,pinned,runs⟩
    | applied pinned met ran runs => cases request
    | stopped met owned why => cases request
  · cases creates

end Expbuild.Bindings
