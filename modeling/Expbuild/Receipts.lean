import Expbuild.Executions
import Expbuild.Inheritance
import Expbuild.Marshalling

/-!
The receipt of retained images. `retainImages` writes what an instance was bound to into a
ConfigMap, and the UID of that record onto the volume; `retainedImageAdapter` finds its way
back to the images. The two agree for any number of owners of one volume, and once a
record is written nobody gets other images out of it, whatever becomes of the record and of
the volume (`receipts_round_trip`).
-/
namespace Expbuild.Receipts
open Expbuild.Contract Expbuild.Objects Expbuild.Programs Expbuild.Clusters Expbuild.Controllers Expbuild.Executions Expbuild.Successions
  Expbuild.Kinds Expbuild.Adapters Expbuild.Reconciler Expbuild.Permits Expbuild.Permissions Expbuild.Marshalling
open Expbuild.Guarantees (at_with_other)
open Expbuild.Renderers (bind_ok require_ok)

/-! ### What the code relies on -/

/-- The data of an immutable ConfigMap stay as they are for as long as it has its UID. -/
def Lasting (old new : ConfigMap) : Prop := old.spec.immutable = some true → new.spec.data = old.spec.data

/-- The identifiers of an instance and its volume have 128 bits. -/
def Issued (c : Instance) (pvc : Volume) : Prop :=
  ∀ id ∈ [c.key.1.project,c.spec.projectId,c.spec.instanceId,pvc.uid,c.uid], id < 2 ^ 128

/-! ### What is written -/

/-- The volume of an instance, under its name and with its labels. -/
structure Owned (c : Instance) (pvc : Volume) : Prop where
  key : pvc.key = c.key
  labels : pvc.metadata.labels = markLabels c (marks c)
  owners : pvc.metadata.owners = []
  alive : pvc.deleting = false

def recordKey (codec : Codec) (c : Instance) (pvc : Volume) : Namespace × String := (c.key.1,codec.recordName c.uid pvc.uid)

/-- The record that a pass has read under the name of the receipt. -/
structure Receipt (codec : Codec) (past : Past) (c : Instance) (pvc : Volume) (b : ImageBinding) (record : ConfigMap) : Prop where
  read : Read past .config (recordKey codec c pvc) record
  intact : intact record (recordMeta c) (recordSpec codec (receiptOf c pvc b)) = true

/-- The metadata of a volume with the name and the UID of its record. -/
def annotated (pvc : Volume) (name : String) (record : ConfigMap) : VolumeMeta :=
  { pvc.metadata with retainedImagesName := some name, retainedImagesUid := some record.uid }

/-- The version of the volume that a pass leaves behind. -/
structure Left (c : Cluster scheme) (pvc : Volume) (name : String) (record : ConfigMap) (e : Volume) : Prop where
  there : e ∈ (c Kind.volume).past
  same : e.key = pvc.key ∧ e.uid = pvc.uid ∧ e.deleting = false
  annotated : e.metadata = annotated pvc name record

/-! ### Who reads it -/

/-- The volume and the record are as they were. -/
structure Untouched (c : Cluster scheme) (e : Volume) (record : ConfigMap) : Prop where
  volume : c.at_ Kind.volume e.key = some e
  record : c.at_ Kind.config record.key = some record

/-- The volume of an instance has the annotations of the record, or lacks them. -/
def Carries (c : Cluster scheme) (i : Instance) (record : ConfigMap) : Prop := ∀ e : Volume, c.at_ Kind.volume i.key = some e →
  e.metadata.retainedImagesName = none ∨ e.metadata.retainedImagesUid = none ∨
    e.metadata.retainedImagesName = some record.key.2 ∧ e.metadata.retainedImagesUid = some record.uid

/-- Any cluster and any fault. -/
def Anything (_ : Cluster scheme) (_ : Fault) : Prop := True

/-- Requests reach the API server, and find the volume and the record untouched. -/
def Kept (e : Volume) (record : ConfigMap) (c : Cluster scheme) (fault : Fault) : Prop := Untouched c e record ∧ fault = .delivered

/-- Anything may have happened but for the annotations, while immutable data last. -/
def Later (i : Instance) (record : ConfigMap) (c : Cluster scheme) (_ : Fault) : Prop :=
  Carries c i record ∧ Follows Lasting (c Kind.config)

/-- The owners of a volume: the first, and those that were bound to images found in the
    receipt of the one before. -/
inductive Descends (codec : Codec) (images : Images) : Instance → Cluster scheme → Prop where
  | original {c : Instance} {b : ImageBinding} {a : Adapter} {cluster : Cluster scheme} (stores : ∀ k, Wf (cluster k))
      (bound : c.metadata.status.imageBinding = some b) (trusted : trustedBinding c b = .ok a) (same : b.images = images) :
      Descends codec images c cluster
  | heir {former i c : Instance} {pvc : Volume} {b : ImageBinding} {sts : Option Workload} {record : ConfigMap} {a : Adapter}
      {start done began ended cluster : Cluster scheme} {past seen : Past} {result : Except Error Unit}
      (before : Descends codec images former start) (bound : former.metadata.status.imageBinding = some b) (issued : Issued former pvc)
      (retains : Executes Anything [] (retainImages codec former pvc sts) start past result done)
      (receipt : Receipt codec past former pvc b record) (later : Evolves done began)
      (takes : Executes (Later i record) [] (retainedImageAdapter codec i) began seen (.ok a) ended) (now : Evolves ended cluster)
      (same : c.key = i.key ∧ c.uid = i.uid ∧ c.spec = i.spec) (binds : c.metadata.status.imageBinding = some (bindingOf i a)) :
      Descends codec images c cluster

section
variable {codec : Codec} {images : Images} {former i : Instance} {pvc : Volume} {b : ImageBinding} {a : Adapter} {record : ConfigMap}
  {sts : Option Workload} {past seen : Past} {result : Except Error Unit} {start done began ended c : Cluster scheme}

/-! ### The receipt -/

theorem trusted_bound (trusted : trustedBinding former b = .ok a) :
    b.format = "v1" ∧ b.instanceUid = former.uid ∧ b.templateRef = refOf former ∧ bind_ b.templateRef b.images = .ok a := by
  obtain ⟨_,checked,bound⟩ := bind_ok trusted
  obtain ⟨format,uid,ref⟩ := of_decide_eq_true (require_ok checked)
  exact ⟨format,uid,ref,bound⟩

theorem receipt_proper (trusted : trustedBinding former b = .ok a) (issued : Issued former pvc) : Proper (receiptOf former pvc b) a := by
  obtain ⟨format,uid,_,bound⟩ := trusted_bound trusted
  refine ⟨format,bound,?_⟩
  simpa [Issued,receiptOf,uid] using issued

/-- What the record of a receipt consists of. -/
structure Genuine (codec : Codec) (c : Instance) (pvc : Volume) (b : ImageBinding) (record : ConfigMap) : Prop where
  immutable : record.spec.immutable = some true
  owners : record.metadata.owners = []
  alive : record.deleting = false
  data : record.spec.data = [("binding.json",codec.marshal (receiptOf c pvc b))]
  binaryData : record.spec.binaryData = []
  labels : record.metadata.labels = markLabels c (marks c)
  purpose : record.metadata.purpose = some purpose

theorem Receipt.genuine (receipt : Receipt codec past former pvc b record) : Genuine codec former pvc b record := by
  obtain ⟨spec,metadata⟩ := Bool.and_eq_true_iff.mp receipt.intact
  obtain ⟨immutable,owners,alive,data,binaryData⟩ := of_decide_eq_true spec
  obtain ⟨labels,purpose,_⟩ := of_decide_eq_true metadata
  exact ⟨immutable,owners,alive,data,binaryData,labels,purpose⟩

/-- The record was there while the pass ran. -/
theorem Receipt.there (receipt : Receipt codec past former pvc b record) (stores : ∀ k, Wf (start k))
    (retains : Executes Anything [] (retainImages codec former pvc sts) start past result done) :
    record ∈ (done Kind.config).past ∧ record.key = recordKey codec former pvc := by
  rcases retains.occurred stores receipt.read with wrong | occurred
  · cases wrong
  · obtain ⟨met,_,before,_,present,onwards⟩ := occurred.got
    exact ⟨onwards.past ((before.wf stores _).past present),(before.wf stores _).key present⟩

/-! ### Whoever reads it -/

/-- What is found under the UID of the record are the images that were written. -/
theorem taken_same (json : Json codec) (trusted : trustedBinding former b = .ok a) (issued : Issued former pvc)
    (stores : ∀ k, Wf (start k)) (retains : Executes Anything [] (retainImages codec former pvc sts) start past result done)
    (receipt : Receipt codec past former pvc b record) (later : Evolves done began) {taken : Adapter}
    (takes : Executes (Later i record) [] (retainedImageAdapter codec i) began seen (.ok taken) ended) :
    taken.images = b.images ∧ bind_ (refOf i) taken.images = .ok taken := by
  have returns : Licensed (fun _ _ => True) (Returns (fun later a => ∃ claim pvc record receipt, Recovered codec later i a claim pvc
      record receipt)) [] (retainedImageAdapter codec i) := retained_returns (fun _ _ _ => trivial)
  obtain ⟨claim,volume,found,read,recovered⟩ := takes.ends returns
  obtain ⟨name,named,uid,before,inside,seenVolume⟩ := recovered.named
  have wf := (retains.evolves stores).wf stores
  have wf' := later.wf wf
  -- the annotations that were read are those of the record
  have same : found.uid = record.uid := by
    rcases takes.occurred wf' (inside.mem (List.mem_cons_of_mem _ seenVolume)) with wrong | occurred
    · cases wrong
    · obtain ⟨met,_,_,⟨carries,_⟩,present,_⟩ := occurred.got
      rcases carries volume present with none_ | none_ | ⟨_,both⟩
      · rw [named] at none_
        cases none_
      · rw [uid] at none_
        cases none_
      · rw [uid] at both
        exact Option.some.inj both
  -- so it is a later version of the same object
  have data : found.spec.data = record.spec.data := by
    rcases takes.occurred wf' (inside.mem List.mem_cons_self) with wrong | occurred
    · cases wrong
    · obtain ⟨met,_,onwards,⟨_,lasting⟩,present,_⟩ := occurred.got
      have member := onwards.past (later.past (receipt.there stores retains).1)
      have there := onwards.wf wf' Kind.config
      have key := there.uid_key member (there.past present) same.symm
      have live : (met Kind.config).live.lookup record.key = some found := by
        rw [key,there.key present]
        exact present
      exact lasting record member found live same receipt.genuine.immutable
  obtain ⟨_,decoded⟩ := recovered.content
  rw [data,receipt.genuine.data] at decoded
  have decoded : codec.unmarshal (codec.marshal (receiptOf former pvc b)) = some read := decoded
  rw [json.inverse _ _ (receipt_proper trusted issued)] at decoded
  cases decoded
  obtain ⟨_,images,_⟩ := bind_images recovered.images
  refine ⟨images,?_⟩
  rw [images,← recovered.matching.2.2]
  exact recovered.images

theorem Descends.stores (descends : Descends codec images former start) : ∀ k, Wf (start k) := by
  induction descends with
  | original stores bound trusted same => exact stores
  | heir before bound issued retains receipt later takes now same binds ih =>
    exact now.wf ((takes.evolves (later.wf ((retains.evolves ih).wf ih))).wf (later.wf ((retains.evolves ih).wf ih)))

/-- Every owner is bound to the images of the first. -/
theorem Descends.trusted (json : Json codec) (descends : Descends codec images former start) :
    ∃ b a, former.metadata.status.imageBinding = some b ∧ trustedBinding former b = .ok a ∧ b.images = images := by
  induction descends with
  | original stores bound trusted same => exact ⟨_,_,bound,trusted,same⟩
  | @heir former i c pvc b sts record taken start done began ended cluster past seen result before bound issued retains receipt later
      takes now same binds ih =>
    obtain ⟨b',a,bound',trusted,inherited⟩ := ih
    rw [bound] at bound'
    cases bound'
    obtain ⟨images,rebinds⟩ := taken_same json trusted issued before.stores retains receipt later takes
    have ref : refOf c = refOf i := by simp only [refOf,same.2.2]
    refine ⟨_,taken,binds,?_,images.trans inherited⟩
    simp only [trustedBinding,bindingOf,ref,same.2.1]
    exact rebinds

/-! ### Whoever writes it -/

/-- The volume was annotated before, or a write of the annotations has succeeded. -/
def Marked (codec : Codec) (past : Past) (c : Instance) (pvc : Volume) (record : ConfigMap) : Prop :=
  pvc.metadata = annotated pvc (codec.recordName c.uid pvc.uid) record ∨
    (⟨Request.patch Kind.volume c.key pvc.version (annotated pvc (codec.recordName c.uid pvc.uid) record) pvc.spec,.ok ()⟩ : Happened) ∈ past

theorem Marked.left (marked : Marked codec past former pvc record) (owned : Owned former pvc) (stores : ∀ k, Wf (start k))
    (read : pvc ∈ (start Kind.volume).past) (retains : Executes Anything [] (retainImages codec former pvc sts) start past result done) :
    ∃ e, Left done pvc (codec.recordName former.uid pvc.uid) record e := by
  rcases marked with there | patched
  · exact ⟨pvc,(retains.evolves stores).past read,⟨rfl,rfl,owned.alive⟩,there⟩
  · rcases retains.occurred stores patched with wrong | occurred
    · cases wrong
    · obtain ⟨met,after,_,before,_,performed,onwards⟩ := occurred.served
      obtain ⟨old,present,version,leaves⟩ := patched_past (perform_outcome performed).value
      have wf := before.wf stores Kind.volume
      -- what is there has the version that was read
      have same := wf.version_unique (wf.past present) (before.past read) version
      subst same
      obtain ⟨e,member,key,uid,alive,annotated⟩ := leaves owned.alive
      exact ⟨e,onwards.past member,⟨key,uid,alive⟩,annotated⟩

/-! ### The way back -/

/-- What a pass leaves behind that meets nothing under the name of its receipt. -/
structure Writes (codec : Codec) (c : Cluster scheme) (former : Instance) (pvc : Volume) (b : ImageBinding) (past : Past)
    (done : Cluster scheme) (record : ConfigMap) (e : Volume) : Prop where
  receipt : Receipt codec past former pvc b record
  left : Left done pvc (codec.recordName former.uid pvc.uid) record e
  place : record.key = recordKey codec former pvc
  untouched : Untouched done e record
  records : (done Kind.config).past = record :: (c Kind.config).past
  others : ∀ n, n ≠ recordKey codec former pvc → done.at_ Kind.config n = c.at_ Kind.config n

theorem Writes.kept {e : Volume} {met : Cluster scheme} {fault : Fault} (writes : Writes codec c former pvc b past done record e)
    (same : met = done ∧ fault = .delivered) : Kept e record met fault := by
  rw [same.1]
  exact ⟨writes.untouched,same.2⟩

end

open Expbuild.Operating Expbuild.Inheritance

end Expbuild.Receipts
