import Expbuild.Inheritance

/-!
What the operator does with the images of an instance, whatever others do to the instance
and its status meanwhile. It never changes a binding that is set. It creates nothing for
an instance that was not bound when the pass read it, and it writes a template or starts
a workload only where that ran, and will run, the images of this binding. An instance
that reclaims a volume is bound to the images in the record of that volume
(`binding_immutable`).
-/
namespace Expbuild.Immutability
open Expbuild.Contract Expbuild.Objects Expbuild.Programs Expbuild.Runs Expbuild.Clusters Expbuild.Controllers Expbuild.Guarantees
  Expbuild.Successions
  Expbuild.Kinds Expbuild.Adapters Expbuild.Reconciler Expbuild.Permits Expbuild.Permissions Expbuild.Operating Expbuild.Bindings
  Expbuild.Inheritance
open Expbuild.Calls (Key)

/-- The instance was bound when the pass read it. -/
structure Persisted (d : OperatorDeed) (c : Instance) (b : ImageBinding) : Prop where
  works : Works d.past d.key c
  bound : c.metadata.status.imageBinding = some b
  own : b.instanceUid = c.uid ∧ b.templateRef = refOf c

/-- A new version of a workload: it stops, or it ran and runs the images that its
    instance is bound to. -/
inductive Rewrites (d : OperatorDeed) (sts : Workload) (spec : WorkloadSpec) : Prop where
  | stops (same : spec = { sts.spec with replicas := some 0 })
  | runs {c : Instance} {b : ImageBinding} (persisted : Persisted d c b) (ran : podImages sts.spec.template.spec = some b.images)
      (runs : podImages spec.template.spec = some b.images)

/-- A binding that a status write carries: it was there, or the instance was not bound
    and gets it from the record of the volume that it reclaims, if it reclaims any. -/
inductive Comes (codec : Codec) (d : OperatorDeed) (n : Key) (b : ImageBinding) : Prop where
  | before {e : Instance} (met : d.before.at_ Kind.cacheInstance n = some e) (same : e.metadata.status.imageBinding = some b)
  | new {c : Instance} (works : Works d.past d.key c) (met : d.before.at_ Kind.cacheInstance n = some c)
      (unbound : c.metadata.status.imageBinding = none) (own : b.instanceUid = c.uid ∧ b.templateRef = refOf c)
      (recovered : ∀ claim, c.spec.storage.reclaim = some claim → ∃ (adapter : Adapter) (pvc : Volume) (record : ConfigMap)
        (receipt : RetainedImages), Recovered codec d.past c adapter claim pvc record receipt ∧ b.images = receipt.binding.images)

/-- What a request of a pass does with images. -/
structure Immutable (codec : Codec) (d : OperatorDeed) : Prop where
  /-- A binding that is set stays as it is. -/
  kept : ∀ after v, Served d.before d.request after v → Binds d.before after
  comes : ∀ (n : Key) (version : Nat) (m : InstanceMeta) (spec : Spec) (b : ImageBinding),
    d.request = Request.patch Kind.cacheInstance n version m spec → m.status.imageBinding = some b → Comes codec d n b
  created : ∀ (k : Kind) (n : k.Name) (m : k.Meta) (spec : k.Spec), d.request = Request.create k n m spec → ∃ c b, Persisted d c b
  started : ∀ (n : Key) (m : WorkloadMeta) (spec : WorkloadSpec), d.request = Request.create Kind.workload n m spec →
    ∃ c b, Persisted d c b ∧ podImages spec.template.spec = some b.images
  rewritten : ∀ (n : Key) (version : Nat) (m : WorkloadMeta) (spec : WorkloadSpec),
    d.request = Request.patch Kind.workload n version m spec →
      ∃ sts, d.before.at_ Kind.workload n = some sts ∧ Rewrites d sts spec

section
variable {t : Toolkit} {codec : Codec} {rely : Cluster scheme → Cluster scheme → Prop} {a s : Operators t codec} {d : OperatorDeed}
  {c : Instance} {adapter : Adapter}

theorem persisted_of_bound (works : Works d.past d.key c) (bound : Bound c adapter) : ∃ b, Persisted d c b ∧ adapter.images = b.images := by
  obtain ⟨b,binding,trusted⟩ := bound
  obtain ⟨_,images,_,uid⟩ := trusted_tidy trusted
  obtain ⟨_,checked,_⟩ := Renderers.bind_ok trusted
  have template : b.templateRef = refOf c := (of_decide_eq_true (Renderers.require_ok checked)).2.2
  exact ⟨b,⟨works,binding,uid,template⟩,images⟩

theorem creates_persisted {k : Kind} {n : k.Name} {m : k.Meta} {spec : k.Spec} (sound : Sound (operator t codec) d)
    (request : d.request = Request.create k n m spec) : ∃ c b, Persisted d c b := by
  have permitted := deed_permitted sound
  rw [request] at permitted
  obtain ⟨c,works,creates⟩ := permitted
  have persisted : ∀ {adapter : Adapter}, Bound c adapter → ∃ c b, Persisted d c b := by
    intro adapter bound
    obtain ⟨b,persisted,_⟩ := persisted_of_bound works bound
    exact ⟨c,b,persisted⟩
  cases creates with
  | volume wanted => exact persisted (wanted_bound wanted).choose_spec
  | config wanted => exact persisted (wanted_bound wanted).choose_spec
  | child wanted => exact persisted (wanted_bound wanted).choose_spec
  | workload wanted => exact persisted (wanted_bound wanted).choose_spec
  | record deleting read own bound trusted => exact persisted ⟨_,bound,trusted⟩

theorem starts_persisted {n : Key} {m : WorkloadMeta} {spec : WorkloadSpec} (sound : Sound (operator t codec) d)
    (request : d.request = Request.create Kind.workload n m spec) :
    ∃ c b, Persisted d c b ∧ podImages spec.template.spec = some b.images := by
  have permitted := deed_permitted sound
  rw [request] at permitted
  obtain ⟨c,works,creates⟩ := permitted
  cases creates with
  | workload wanted =>
    obtain ⟨adapter,bound,runs⟩ := wanted_workload wanted
    obtain ⟨b,persisted,images⟩ := persisted_of_bound works bound
    exact ⟨c,b,persisted,images ▸ runs⟩

theorem rewrites_persisted {n : Key} {version : Nat} {m : WorkloadMeta} {spec : WorkloadSpec} (sound : Sound (operator t codec) d)
    (request : d.request = Request.patch Kind.workload n version m spec) :
    ∃ sts, d.before.at_ Kind.workload n = some sts ∧ Rewrites d sts spec := by
  have permitted := deed_permitted sound
  rw [request] at permitted
  obtain ⟨c,works,write⟩ := permitted
  cases write with
  | stopped why read owned => exact ⟨_,patch_meets sound request read,.stops rfl⟩
  | applied wanted read own updated =>
    obtain ⟨adapter,bound,runs⟩ := wanted_workload wanted
    obtain ⟨b,persisted,images⟩ := persisted_of_bound works bound
    obtain ⟨same,set,asked,ran⟩ := updateWorkload_exact updated
    cases same
    rw [runs,images] at asked
    cases asked
    exact ⟨_,patch_meets sound request read,.runs persisted ran (images ▸ runs)⟩

theorem binding_comes {n : Key} {version : Nat} {m : InstanceMeta} {spec : Spec} {b : ImageBinding} (sound : Sound (operator t codec) d)
    (request : d.request = Request.patch Kind.cacheInstance n version m spec) (bound : m.status.imageBinding = some b) :
    Comes codec d n b := by
  have permitted := deed_permitted sound
  rw [request] at permitted
  obtain ⟨c,works,write⟩ := permitted
  have key := (works_on sound works).1
  cases write with
  | reported alive read same ready stopped => exact .before (patch_meets sound request read) bound
  | released released => exact .before (patch_meets sound request (key ▸ works_read works)) bound
  | bound alive unbound origin vetted rendered =>
    cases bound
    refine .new works (patch_meets sound request (key ▸ works_read works)) unbound ⟨rfl,rfl⟩ (fun claim asked => ?_)
    cases origin with
    | approved fresh resolved new =>
      rw [fresh] at asked
      cases asked
    | retained recovered =>
      have same := recovered.asked
      rw [asked] at same
      cases same
      exact ⟨_,_,_,_,recovered,(bind_images recovered.images).2.1⟩

/-- Whatever others do, the operator treats the images of an instance so. -/
theorem binding_immutable (runs : Operates t codec rely a s) : ∀ d ∈ s.deeds, Immutable codec d := by
  intro d member
  have sound := deed_sound runs member
  refine ⟨fun after v served n old new was now => ?_,fun n version m spec b request bound => binding_comes sound request bound,
    fun k n m spec request => creates_persisted sound request,fun n m spec request => starts_persisted sound request,
    fun n version m spec request => rewrites_persisted sound request⟩
  exact permit_once sound.stores sound.real (deed_permitted sound) was (served_alters sound.stores served was now)

end

/-! ### A binding that is taken from a record -/

/-- Binds an instance that was not bound and reclaims a volume. -/
def bindsReclaiming (d : OperatorDeed) : Bool :=
  match d.request with
  | .patch .cacheInstance n _ (m : InstanceMeta) _ => m.status.imageBinding.isSome &&
      (d.before.at_ Kind.cacheInstance n).any (fun (e : Instance) => e.metadata.status.imageBinding.isNone &&
        decide (e.spec.storage.reclaim = some ⟨0,0⟩))
  | _ => false

theorem binding_immutable_taking : ∃ s, Operates toolkit oneRecord Keeps handingOver s ∧ ∃ d ∈ s.deeds, Immutable oneRecord d ∧
    ∃ c claim adapter pvc record receipt, c.spec.storage.reclaim = some claim ∧ Works d.past d.key c ∧
      Recovered oneRecord d.past c adapter claim pvc record receipt := by
  have ends : (run (step (operator toolkit oneRecord)) undisturbed
      (.start discardedKey ⟨{},none,none,true⟩ :: List.replicate 7 (.run discardedKey .delivered)) taking).any
        (fun s => s.deeds.any bindsReclaiming) = true := by decide +kernel
  obtain ⟨s,reached,bound⟩ := reaches_of_run (fun _ _ alone => orderly_undisturbed alone) ends
  have runs : Operates toolkit oneRecord Keeps handingOver s := ⟨handingOver_start,.trans taking_reached.2 reached⟩
  obtain ⟨d,member,binds⟩ := List.any_eq_true.mp bound
  have immutable := binding_immutable runs d member
  unfold bindsReclaiming at binds
  split at binds
  · rename_i n version m spec request
    obtain ⟨bound,fresh⟩ := Bool.and_eq_true_iff.mp binds
    obtain ⟨b,bound⟩ := Option.isSome_iff_exists.mp bound
    obtain ⟨met,present,fresh⟩ := (Option.any_eq_true _ _).mp fresh
    obtain ⟨unbound,asked⟩ := Bool.and_eq_true_iff.mp fresh
    cases immutable.comes n version m spec b request bound with
    | before met' same =>
      rw [present] at met'
      cases met'
      rw [same] at unbound
      cases unbound
    | @new c works met' unbound own recovered =>
      rw [present] at met'
      cases met'
      obtain ⟨adapter,pvc,record,receipt,recovered,_⟩ := recovered _ (of_decide_eq_true asked)
      exact ⟨s,runs,d,member,immutable,_,_,adapter,pvc,record,receipt,of_decide_eq_true asked,works,recovered⟩
  · cases binds

end Expbuild.Immutability
