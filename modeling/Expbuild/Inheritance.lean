import Expbuild.Bindings

/-!
The images of a retained volume. When an instance is deleted and its volume stays, the
operator records the images that it was bound to. Nobody else makes such records, and their
content does not change; then an instance that takes the volume over is bound to exactly
the images that the former one was bound to (`images_inherited`).
-/
namespace Expbuild.Inheritance
open Expbuild.Contract Expbuild.Objects Expbuild.Programs Expbuild.Runs Expbuild.Clusters Expbuild.Controllers Expbuild.Guarantees
  Expbuild.Successions Expbuild.Kinds Expbuild.Adapters Expbuild.Reconciler Expbuild.Permits Expbuild.Permissions Expbuild.Operating
  Expbuild.Bindings
open Expbuild.Calls (Key)

/-- A record of retained images. -/
def IsRecord (e : ConfigMap) : Prop := e.metadata.purpose = some purpose

/-- Others make no records, and leave the content of each as it is. -/
def Keeps (c c' : Cluster scheme) : Prop := ∀ e ∈ (c' Kind.config).past, IsRecord e →
  ∃ old ∈ (c Kind.config).past, IsRecord old ∧ old.spec = e.spec

/-- The operator has made a record with this content. -/
def Makes (d : OperatorDeed) (spec : ConfigSpec) : Prop := ∃ (n : Namespace × String) (m : ConfigMeta),
  d.request = Request.create Kind.config n m spec ∧ m.purpose = some purpose

def Recorded (c : Cluster scheme) (deeds : List OperatorDeed) : Prop := ∀ e ∈ (c Kind.config).past, IsRecord e →
  ∃ d ∈ deeds, Makes d e.spec

section
variable {t : Toolkit} {codec : Codec} {a s : Operators t codec} {d : OperatorDeed} {key : Key} {settings : Settings} {past : Past}
  {c c' : Cluster scheme} {deeds : List OperatorDeed} {i : Instance}

theorem served_recorded {r : Request scheme} {v : r.Value} (wf : ∀ k, Wf (c k)) (known : Recorded c deeds)
    (may : permit t codec key settings past r) (served : Served c r c' v) : Recorded c' (⟨key,settings,past,r,c⟩ :: deeds) := by
  intro e member isRecord
  have carried : ∀ old ∈ (c Kind.config).past, IsRecord old → old.spec = e.spec →
      ∃ d ∈ (⟨key,settings,past,r,c⟩ :: deeds : List OperatorDeed), Makes d e.spec := by
    intro old was isRecord same
    obtain ⟨d,inside,made⟩ := known old was isRecord
    exact ⟨d,List.mem_cons_of_mem _ inside,same ▸ made⟩
  cases served_appears wf served member with
  | before was => exact carried e was isRecord rfl
  | created request => exact ⟨_,List.mem_cons_self,e.key,e.metadata,request,isRecord⟩
  | @altered old was uid alters =>
    have was := (wf Kind.config).past was
    cases alters with
    | same same =>
      rw [same] at isRecord
      exact carried old was isRecord (same ▸ rfl)
    | patched request put specified =>
      rw [request] at may
      exact may.elim
    | @merged p request put specified => exact Empty.elim p
    | deleted request put specified =>
      unfold IsRecord at isRecord
      rw [put] at isRecord
      exact carried old was isRecord specified.symm

theorem recording_rules : Rules (operator t codec) Keeps (permit t codec) Recorded (fun _ _ _ _ _ => True) where
  licensed key config := reconcile_permitted t codec config key
  start _ _ _ _ _ := trivial
  own := by
    intro key config past c deeds r c' x took wf real known _ may outcome
    refine ⟨?_,trivial⟩
    cases outcome with
    | failed _ => exact known
    | answered served => exact served_recorded wf known may served
    | lost served => exact served_recorded wf known may served
  elsewhere _ _ _ _ _ _ _ _ _ := trivial
  others := by
    intro c c' deeds wf known steps keeps
    refine ⟨fun e member isRecord => ?_,fun _ _ _ _ _ => trivial⟩
    obtain ⟨old,was,isRecord,same⟩ := keeps e member isRecord
    rw [← same]
    exact known old was isRecord

/-- What a record says when it is read is what was written. -/
def Faithful (codec : Codec) : Prop := ∀ r r', codec.unmarshal (codec.marshal r) = some r' → r' = r

/-- The request that left the record of a volume. -/
structure Leaves (codec : Codec) (d : OperatorDeed) (former : Instance) (pvc : Volume) (b : ImageBinding) : Prop where
  made : Makes d (recordSpec codec (receiptOf former pvc b))
  works : Works d.past d.key former
  deleting : former.deleting = true
  read : Read d.past .volume former.key pvc
  own : pvc.metadata.labels.instanceUid = some former.uid
  bound : former.metadata.status.imageBinding = some b
  identity : b.instanceUid = former.uid

/-- The configuration of an instance is no record. -/
theorem wanted_purpose {n : Namespace × String} {m : ConfigMeta} {spec : ConfigSpec}
    (wanted : Wanted t settings past i (.config n m spec)) : m.purpose = none := by
  obtain ⟨adapter,secret,objects,d',provided,renders,same⟩ := wanted_rendered wanted (fun _ _ _ wrong => by cases wrong)
  cases renders with
  | volume => cases same
  | config name spec =>
    cases same
    rfl
  | child spec own => cases same
  | workload runs marked => cases same

theorem makes_leaves {spec : ConfigSpec} (sound : Sound (operator t codec) d) (made : Makes d spec) :
    ∃ former pvc b, Leaves codec d former pvc b ∧ spec = recordSpec codec (receiptOf former pvc b) := by
  obtain ⟨n,m,request,marked⟩ := made
  have permitted := deed_permitted sound
  rw [request] at permitted
  obtain ⟨former,works,creates⟩ := permitted
  cases creates with
  | config wanted =>
    rw [wanted_purpose wanted] at marked
    cases marked
  | record deleting read own bound trusted =>
    exact ⟨former,_,_,⟨⟨_,_,request,marked⟩,works,deleting,read,own,bound,(trusted_tidy trusted).2.2.2⟩,rfl⟩

/-- A binding that was taken from the record that a request for a former instance left. -/
structure Inherited (codec : Codec) (d : OperatorDeed) (claim : Reclaim) (b : ImageBinding) (former : Instance) (pvc : Volume)
    (old : ImageBinding) : Prop where
  leaves : Leaves codec d former pvc old
  uids : former.uid = claim.previousInstanceUID ∧ pvc.uid = claim.volumeUID
  same : b.images = old.images ∧ b.templateRef = old.templateRef

/-- A binding that is new is of an instance that takes nothing over, or it has the images
    that the former owner of the volume was bound to. -/
theorem images_inherited (faithful : Faithful codec) (runs : Operates t codec Keeps a s)
    (begins : ∀ e ∈ (a.cluster Kind.config).past, ¬IsRecord e) : ∀ before d after, s.deeds = after ++ d :: before →
      ∀ (n : Key) (version : Nat) (m : InstanceMeta) (spec : Spec) (b : ImageBinding),
        d.request = Request.patch Kind.cacheInstance n version m spec → m.status.imageBinding = some b →
          (∃ e : Instance, d.before.at_ Kind.cacheInstance n = some e ∧ e.metadata.status.imageBinding = some b) ∨
            ∃ c, Works d.past d.key c ∧ (c.spec.storage.reclaim = none ∨ ∃ claim, c.spec.storage.reclaim = some claim ∧
              ∃ d' ∈ before, ∃ former pvc old, Inherited codec d' claim b former pvc old) := by
  intro before d after split n version m spec b request bound
  have member : d ∈ s.deeds := split ▸ List.mem_append_right after List.mem_cons_self
  have sound := deed_sound runs member
  have permitted := deed_permitted sound
  have held := recording_rules.held runs.1 (fun e inside isRecord => absurd isRecord (begins e inside)) runs.2
  have known := (held.deeds before d after split).common
  rw [request] at permitted
  obtain ⟨c,works,write⟩ := permitted
  have key := (works_on sound works).1
  cases write with
  | reported alive read same ready stopped => exact .inl ⟨_,patch_meets sound request read,bound⟩
  | released released => exact .inl ⟨c,patch_meets sound request (key ▸ works_read works),bound⟩
  | bound alive unbound origin vetted rendered =>
    refine .inr ⟨c,works,?_⟩
    cases bound
    cases origin with
    | approved fresh resolved new => exact .inl fresh
    | @retained claim pvc record receipt recovered =>
      refine .inr ⟨claim,recovered.asked,?_⟩
      obtain ⟨name,_,_,earlier,inside,_⟩ := recovered.named
      have was := (sound.real.got Kind.config (c.key.1,name) record (inside.subset List.mem_cons_self)).1
      obtain ⟨d',inside',made⟩ := known record was recovered.genuine.2.2.2
      have member' : d' ∈ s.deeds := split ▸ List.mem_append_right after (List.mem_cons_of_mem d inside')
      obtain ⟨former,pvc',old,leaves,content⟩ := makes_leaves (deed_sound runs member') made
      have read := recovered.content.2
      rw [content] at read
      have same := faithful (receiptOf former pvc' old) receipt (by simpa [recordSpec] using read)
      obtain ⟨volume,owner,template⟩ := recovered.matching
      obtain ⟨_,images,_⟩ := bind_images recovered.images
      rw [same] at volume owner template images
      exact ⟨d',inside',former,pvc',old,leaves,⟨leaves.identity.symm.trans owner,volume⟩,images,template.symm⟩

/-! ### A volume that is handed over -/

def formerBinding : ImageBinding := ⟨"v1",0,⟨.nxHttp,.v010⟩,Finmap.singleton "cache" image⟩
def receipt : RetainedImages := ⟨⟨1⟩,1,1,0,formerBinding⟩

/-- One record is written and read. -/
def oneRecord : Codec where
  recordName := fun uid volume => "images-" ++ toString uid ++ "-" ++ toString volume
  marshal := fun r => if r = receipt then "receipt" else ""
  unmarshal := fun text => if text = "receipt" then some receipt else none

theorem oneRecord_faithful : Faithful oneRecord := by
  intro r r' read
  by_cases same : r = receipt
  · subst same
    exact (Option.some.inj read).symm
  · simp [oneRecord,same] at read

def retainedSpec (claim : Option Reclaim) : Spec where
  instanceId := 1
  projectId := 1
  pinned := true
  templateName := .nxHttp
  templateVersion := .v010
  desiredState := .running
  storage := ⟨"standard","2Gi",.retain,claim⟩
  access := ⟨.clusterInternal,.initial 1,none⟩
  eviction := ⟨1,.lru⟩
  requests := ⟨some "1",some "1"⟩
  limits := ⟨some "1",some "1"⟩

def handingOver : Operators toolkit oneRecord where
  cluster := populated [
    .create Kind.project (⟨1⟩ : Namespace) (labels 1 : Labels) (),
    .create Kind.cacheInstance discardedKey
      ({ labels := labels 1 (some 1), finalizers := { cleanup := true }, status := { imageBinding := some formerBinding } } : InstanceMeta)
      (retainedSpec none),
    .create Kind.volume discardedKey ({ labels := discardedLabels, phase := "Bound" } : VolumeMeta)
      (⟨some "standard",["ReadWriteOnce"],some 2147483648⟩ : VolumeSpec),
    .delete Kind.cacheInstance discardedKey 0 none]

theorem handingOver_start : Start (operator toolkit oneRecord) handingOver := ⟨populated_wf _,rfl,rfl,rfl⟩

/-- The former instance is finalized. -/
def hands : List (Label scheme Key Settings) :=
  .start discardedKey ⟨{},none,none,true⟩ :: List.replicate 12 (.run discardedKey .delivered) ++ [.stop discardedKey]
def handed : Operators toolkit oneRecord := (run (step (operator toolkit oneRecord)) undisturbed hands handingOver).getD handingOver

theorem handed_reached : Operates toolkit oneRecord Keeps handingOver handed := by
  have ends : (run (step (operator toolkit oneRecord)) undisturbed hands handingOver).isSome = true := by decide +kernel
  obtain ⟨s,ran⟩ := Option.isSome_iff_exists.mp ends
  have same : handed = s := by
    unfold handed
    rw [ran]
    rfl
  rw [same]
  exact ⟨handingOver_start,reaches_run (fun _ _ alone => orderly_undisturbed alone) ran⟩

/-- Then somebody creates another instance for the volume. -/
abbrev successor : Request scheme := .create Kind.cacheInstance discardedKey
  ({ labels := labels 1 (some 1), finalizers := { cleanup := true } } : InstanceMeta) (retainedSpec (some ⟨0,0⟩))
def succeeding : Cluster scheme := (perform .delivered successor handed.cluster).1

theorem create_keeps {n : Key} {m : InstanceMeta} {spec : Spec} {x : (Request.create (S := scheme) Kind.cacheInstance n m spec).Answer}
    (performed : perform .delivered (Request.create (S := scheme) Kind.cacheInstance n m spec) c = (c',x)) : Keeps c c' := by
  have other : Kind.config ≠ Kind.cacheInstance := by decide
  have same : c' Kind.config = c Kind.config := by
    have outcome := perform_outcome performed
    generalize effective .delivered _ c = took at outcome
    cases outcome with
    | failed _ => rfl
    | answered served =>
      cases served with
      | created _ _ _ => exact with_other other c _
    | lost served =>
      cases served with
      | created _ _ _ => exact with_other other c _
  intro e member isRecord
  rw [same] at member
  exact ⟨e,member,isRecord,rfl⟩

def taking : Operators toolkit oneRecord := { handed with cluster := succeeding, earlier := handed.cluster :: handed.earlier }

theorem taking_reached : Operates toolkit oneRecord Keeps handingOver taking := by
  have known := known_reached handed_reached.1 handed_reached.2
  have performed : perform .delivered successor handed.cluster = (succeeding,(perform .delivered successor handed.cluster).2) := rfl
  have may : Orderly (operator toolkit oneRecord) Keeps handed (.others succeeding) :=
    ⟨fun k => (perform_outcome performed).steps known.stores k,create_keeps performed⟩
  exact ⟨handingOver_start,.tail handed_reached.2 may rfl⟩

/-- The last request of a run binds an instance that was not bound so. -/
def bindsLast (s : Operators toolkit oneRecord) : Bool :=
  match s.deeds with
  | d :: _ =>
    match d.request with
    | .patch .cacheInstance n _ (m : InstanceMeta) _ => m.status.imageBinding.isSome &&
        (d.before.at_ Kind.cacheInstance n).all (fun (e : Instance) => decide (e.metadata.status.imageBinding ≠ m.status.imageBinding))
    | _ => false
  | [] => false

theorem images_inherited_handed : ∃ s, Operates toolkit oneRecord Keeps handingOver s ∧ ∃ d before c b, s.deeds = d :: before ∧
    Works d.past d.key c ∧ (c.spec.storage.reclaim = none ∨ ∃ claim, c.spec.storage.reclaim = some claim ∧
      ∃ d' ∈ before, ∃ former pvc old, Inherited oneRecord d' claim b former pvc old) := by
  have ends : (run (step (operator toolkit oneRecord)) undisturbed
      (.start discardedKey ⟨{},none,none,true⟩ :: List.replicate 7 (.run discardedKey .delivered)) taking).any bindsLast = true := by
    decide +kernel
  obtain ⟨s,reached,binds⟩ := reaches_of_run (fun _ _ alone => orderly_undisturbed alone) ends
  have runs : Operates toolkit oneRecord Keeps handingOver s := ⟨handingOver_start,.trans taking_reached.2 reached⟩
  have begins : (handingOver.cluster Kind.config).past = [] := by decide +kernel
  unfold bindsLast at binds
  split at binds
  · rename_i d before split_
    split at binds
    · rename_i n version m spec request
      obtain ⟨bound,new⟩ := Bool.and_eq_true_iff.mp binds
      obtain ⟨b,bound⟩ := Option.isSome_iff_exists.mp bound
      have inherited := images_inherited oneRecord_faithful runs (fun e inside => by rw [begins] at inside; cases inside) before d [] split_
        n version m spec b request bound
      rcases inherited with ⟨e,present,same⟩ | ⟨c,works,inherited⟩
      · rw [present] at new
        exact absurd (same.trans bound.symm) (of_decide_eq_true new)
      · exact ⟨s,runs,d,before,c,b,split_,works,inherited⟩
    · cases binds
  · cases binds

end
end Expbuild.Inheritance
