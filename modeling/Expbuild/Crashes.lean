import Expbuild.Atomicity

/-!
What a crash may find on the volume of a server. At every moment, in the middle
of a step too, the names that may survive are those of uploads and of complete
envelopes (`Recoverable`), so that `New` reads them again; and a name that was
synchronised (`Steady`) survives with the contents it had at some moment since,
as long as it is not unlinked.
-/
namespace Expbuild.Crashes
open Expbuild.Tables Expbuild.Disks Expbuild.Engines Expbuild.Stores Expbuild.Handlers Expbuild.Accounting Expbuild.Passages
  Expbuild.Histories

section
variable {A : Type} {E : Engine A} (law : Lawful E)

/-- A complete envelope of the key, on the disk for good. -/
structure Envelope (known : A → Contents A → Prop) (v : Volume FileName (Contents A)) (k : String) (i : Inode) (a : A)
    (f : File (Contents A)) : Prop where
  file : v.files i = some f
  regular : f.regular = true
  synced : f.synced = true
  good : law.Good k a f.contents
  known : known a f.contents

/-- Every name that may survive is the one of an upload, or of the complete
    envelope of an upload that was received. -/
def Recoverable (puts : List (Upload A)) (v : Volume FileName (Contents A)) : Prop :=
  ∀ n i, Bound v n i → (∃ suffix f, n = .upload suffix ∧ v.files i = some f ∧ f.regular = true) ∨
    ∃ k a f, E.layout.filename k = n ∧ E.validKey k = true ∧
      Envelope law (fun a contents => (⟨k,a,contents⟩ : Upload A) ∈ puts) v k i a f

variable {law} {puts : List (Upload A)} {v w : Volume FileName (Contents A)}

theorem Envelope.same {known known' : A → Contents A → Prop} {k : String} {i : Inode} {a : A} {f g : File (Contents A)}
    (envelope : Envelope law known v k i a f) (file : w.files i = some g) (same : SameFile f g)
    (weaker : known a f.contents → known' a f.contents) : Envelope law known' w k i a g where
  file := file
  regular := same.regular.trans envelope.regular
  synced := same.synced.trans envelope.synced
  good := by rw [same.contents]; exact envelope.good
  known := by rw [same.contents]; exact weaker envelope.known

theorem Recoverable.more {later : List (Upload A)} (recoverable : Recoverable law puts v) (sub : ∀ u ∈ puts, u ∈ later) :
    Recoverable law later v := by
  intro n i bound
  rcases recoverable n i bound with upload | ⟨k,a,f,named,valid,envelope⟩
  · exact .inl upload
  · exact .inr ⟨k,a,f,named,valid,envelope.same envelope.file .rfl (sub _)⟩

/-- What a crash leaves is recoverable too. -/
theorem Recoverable.survives (recoverable : Recoverable law puts v) (survives : v.Survivor w) : Recoverable law puts w := by
  intro n i bound
  have found : w.names.lookup n = some i := by
    rcases bound with now | durable | ⟨_,member,_⟩
    · exact now
    · rw [← survives.durable]
      exact durable
    · rw [survives.pending] at member
      cases member
  rcases recoverable n i (survives.bound found) with ⟨suffix,f,upload,file,regular⟩ | ⟨k,a,f,named,valid,envelope⟩
  · obtain ⟨g,after,kind,_⟩ := survives.file i f file
    exact .inl ⟨suffix,g,upload,after,kind.trans regular⟩
  · obtain ⟨g,after,kind,kept⟩ := survives.file i f envelope.file
    obtain ⟨contents,synced⟩ := kept envelope.synced
    exact .inr ⟨k,a,g,named,valid,envelope.same after ⟨contents,kind,synced.trans envelope.synced.symm⟩ (fun known => known)⟩

/-- Calls that bind no name, on files that are not the ones of entries. -/
theorem Recoverable.apply (recoverable : Recoverable law puts v) {op : Op FileName (Contents A)}
    (binds : ∀ n i, op.Binds n i → (∃ suffix f, n = .upload suffix ∧ (v.apply op).files i = some f ∧ f.regular = true) ∨
      ∃ k a f, E.layout.filename k = n ∧ E.validKey k = true ∧
        Envelope law (fun a contents => (⟨k,a,contents⟩ : Upload A) ∈ puts) (v.apply op) k i a f)
    (uploads : ∀ {suffix i f}, Bound v (.upload suffix) i → v.files i = some f → f.regular = true →
      ∃ g, (v.apply op).files i = some g ∧ g.regular = true)
    (leaves : ∀ {k i}, Bound v (E.layout.filename k) i → op.Leaves i) : Recoverable law puts (v.apply op) := by
  intro n i bound
  rcases bound_apply bound with before | bind
  · rcases recoverable n i before with ⟨suffix,f,rfl,file,regular⟩ | ⟨k,a,f,rfl,valid,envelope⟩
    · obtain ⟨g,after,kind⟩ := uploads before file regular
      exact .inl ⟨suffix,g,rfl,after,kind⟩
    · obtain ⟨g,after,same⟩ := file_apply (leaves before) envelope.file
      exact .inr ⟨k,a,g,rfl,valid,envelope.same after same (fun known => known)⟩
  · exact binds n i bind

/-- A file stays regular. -/
theorem regular_apply {i : Inode} {f : File (Contents A)} (op : Op FileName (Contents A))
    (created : ∀ {name file}, op = .create name i file → file.regular = true) (file : v.files i = some f)
    (regular : f.regular = true) : ∃ g, (v.apply op).files i = some g ∧ g.regular = true := by
  cases op with
  | create name j made =>
    by_cases same : i = j
    · subst same
      exact ⟨made,by simp [Volume.apply],created rfl⟩
    · exact ⟨f,by simpa [Volume.apply,same] using file,regular⟩
  | write j contents time =>
    by_cases same : i = j
    · exact ⟨{ f with contents, modified := time, synced := false },by simp [Volume.apply,Volume.setFile,same ▸ file,same],regular⟩
    · exact ⟨f,by simpa [Volume.apply,Volume.setFile,same] using file,regular⟩
  | sync j =>
    by_cases same : i = j
    · exact ⟨{ f with synced := true },by simp [Volume.apply,Volume.setFile,same ▸ file,same],regular⟩
    · exact ⟨f,by simpa [Volume.apply,Volume.setFile,same] using file,regular⟩
  | touch j time =>
    by_cases same : i = j
    · exact ⟨{ f with modified := time },by simp [Volume.apply,Volume.setFile,same ▸ file,same],regular⟩
    · exact ⟨f,by simpa [Volume.apply,Volume.setFile,same] using file,regular⟩
  | link n j => exact ⟨f,file,regular⟩
  | rename m n j => exact ⟨f,file,regular⟩
  | unlink n => exact ⟨f,file,regular⟩
  | syncDirectory => exact ⟨f,file,regular⟩

theorem Recoverable.staging {i : Inode} {op : Op FileName (Contents A)} (recoverable : Recoverable law puts v) (own : Private v i)
    (calls : StagingOp i op) : Recoverable law puts (v.apply op) := by
  refine recoverable.apply (fun n j bind => ?_) (fun {suffix j f} _ file regular => ?_) (fun bound => ?_)
  · cases calls with
    | create suffix file regular =>
      obtain ⟨rfl,rfl⟩ := bind
      exact .inl ⟨suffix,file,rfl,by simp [Volume.apply],regular⟩
    | _ => exact bind.elim
  · refine regular_apply op (fun {name made} same => ?_) file regular
    subst same
    cases calls with
    | create suffix made regular => exact regular
  · exact calls.leaves (own.entry_ne law bound)

/-- The calls of a publication, on a staged file that was received whole. -/
theorem Recoverable.section {p : Staged A} {i : Inode} {f : File (Contents A)} {op : Op FileName (Contents A)} {replaces : Bool}
    (recoverable : Recoverable law puts v) (calls : SectionOp E.layout replaces p i op) (valid : E.validKey p.key = true)
    (envelope : Envelope law (fun a contents => (⟨p.key,a,contents⟩ : Upload A) ∈ puts) v p.key i p.artifact f) :
    Recoverable law puts (v.apply op) ∧
      Envelope law (fun a contents => (⟨p.key,a,contents⟩ : Upload A) ∈ puts) (v.apply op) p.key i p.artifact f := by
  have files : (v.apply op).files = v.files := by cases calls <;> rfl
  have after : Envelope law (fun a contents => (⟨p.key,a,contents⟩ : Upload A) ∈ puts) (v.apply op) p.key i p.artifact f :=
    envelope.same (by rw [files]; exact envelope.file) .rfl (fun known => known)
  refine ⟨recoverable.apply (fun n j bind => .inr ?_) (fun _ file regular => ⟨_,by rw [files]; exact file,regular⟩)
    (fun _ => by cases calls <;> trivial),after⟩
  cases calls with
  | unlink k => exact bind.elim
  | link =>
    obtain ⟨rfl,rfl⟩ := bind
    exact ⟨p.key,p.artifact,f,rfl,valid,after⟩
  | rename _ =>
    obtain ⟨rfl,rfl⟩ := bind
    exact ⟨p.key,p.artifact,f,rfl,valid,after⟩
  | sync => exact bind.elim

theorem Recoverable.touched {i : Inode} {now : Nat} (recoverable : Recoverable law puts v) :
    Recoverable law puts (v.apply (.touch i now)) :=
  recoverable.apply (fun _ _ bind => bind.elim) (fun _ file regular => regular_apply _ nofun file regular) (fun _ => trivial)

variable {s s' : System A} {l : Label} {before : List (Event A)}

/-- At every moment of a step the volume is recoverable. -/
theorem recoverable_step (tidy : Tidy law s) (told : Told law before s puts) (owned : E.shared = false)
    (always : s.store.disk.Always (Recoverable law puts)) (stepped : Stepped E l s s') :
    s'.store.disk.Always (Recoverable law puts) := by
  have touches : ∀ {ops : List (Op FileName (Contents A))}, (∀ op ∈ ops, ∃ i now, op = .touch i now) →
      (s.store.disk.performs ops).Always (Recoverable law puts) := by
    intro ops touches
    refine always.performs always.1 (fun v op member recoverable => ?_) (fun _ recoverable => recoverable)
    obtain ⟨i,now,rfl⟩ := touches op member
    exact recoverable.touched
  cases step_passage tidy stepped with
  | @staging i ops _ own calls disk _ _ =>
    rw [disk]
    refine always.performs (I := fun v => Recoverable law puts v ∧ Private v i) ⟨always.1,own⟩ ?_ (fun _ both => both.1)
    rintro v op member ⟨recoverable,own⟩
    exact ⟨recoverable.staging own (calls op member),own.apply (calls op member)⟩
  | @publishing t p i faults rollbackFails store status found _ ran same _ =>
    obtain ⟨owns,valid,good,_,f,there,contents,regular,synced⟩ := tidy.sound found
    obtain ⟨ops,disk,_,calls⟩ := (law.publish ran).ops owns.bound (fun k => law.entry_ne k owns.upload)
    have envelope : Envelope law (fun a contents => (⟨p.key,a,contents⟩ : Upload A) ∈ puts) s.store.volume p.key i
        p.artifact f :=
      ⟨there,regular,synced,by rw [contents]; exact good,by rw [contents]; exact told.uploaded found⟩
    rw [same,disk]
    refine Disk.Always.performs (d := s.store.disk) (I := fun v => Recoverable law puts v ∧
      Envelope law (fun a contents => (⟨p.key,a,contents⟩ : Upload A) ∈ puts) v p.key i p.artifact f) always
      ⟨always.1,envelope⟩ ?_ (fun _ both => both.1)
    rintro v op member ⟨recoverable,envelope⟩
    exact recoverable.section (calls op member) valid envelope
  | @fetching t key now status faults store _ ran same =>
    obtain ⟨ops,disk,_,calls⟩ := (law.get ran).ops
    rw [same,disk]
    exact touches calls
  | @opening t key now faults store i a contents _ ran same =>
    obtain ⟨ops,disk,_,calls⟩ := (law.get ran).ops
    rw [same]
    change store.disk.Always (Recoverable law puts)
    rw [disk]
    exact touches calls
  | sending _ _ same =>
    rw [same]
    exact always
  | vanishing shared _ =>
    rw [owned] at shared
    cases shared

/-! ### The calls of a step -/

section
variable (E)

/-- A call that leaves the files of entries alone and takes no name of one away
    by renaming it. -/
def Gentle (v : Volume FileName (Contents A)) (op : Op FileName (Contents A)) : Prop :=
  (∀ k i, Bound v (E.layout.filename k) i → op.Leaves i) ∧ ∀ k target i, op ≠ .rename (E.layout.filename k) target i

end

theorem gentle_unlink (v : Volume FileName (Contents A)) (name : FileName) : Gentle E v (.unlink name) :=
  ⟨fun _ _ _ => trivial,nofun⟩

theorem gentle_touches {d : Disk FileName (Contents A)} {ops : List (Op FileName (Contents A))}
    (touches : ∀ op ∈ ops, ∃ i now, op = .touch i now) : d.Extends (Gentle E) (d.performs ops) := by
  refine Disk.Extends.refl.performs (I := fun _ => True) trivial (fun v op member _ => ⟨?_,trivial⟩)
  obtain ⟨i,now,rfl⟩ := touches op member
  exact ⟨fun _ _ _ => trivial,nofun⟩

theorem gentle_step (tidy : Tidy law s) (owned : E.shared = false) (stepped : Stepped E l s s') :
    s.store.disk.Extends (Gentle E) s'.store.disk := by
  cases step_passage tidy stepped with
  | @staging i ops _ own calls disk _ _ =>
    rw [disk]
    refine Disk.Extends.refl.performs (I := fun v => Private v i) own (fun v op member own => ⟨⟨?_,?_⟩,own.apply (calls op member)⟩)
    · exact fun k j bound => (calls op member).leaves (own.entry_ne law bound)
    · rintro k target j rfl
      cases calls _ member
  | @publishing t p i faults rollbackFails store status found _ ran same _ =>
    obtain ⟨owns,_⟩ := tidy.sound found
    have other := fun k => law.entry_ne k owns.upload
    obtain ⟨ops,disk,_,calls⟩ := (law.publish ran).ops owns.bound other
    rw [same,disk]
    refine Disk.Extends.refl.performs (I := fun _ => True) trivial (fun v op member _ => ⟨⟨fun k j _ => ?_,?_⟩,trivial⟩)
    · cases calls op member <;> trivial
    · rintro k target j rfl
      generalize name : (E.layout.filename k) = source at member
      cases calls _ member with
      | rename _ => exact other k name
  | @fetching t key now status faults store _ ran same =>
    obtain ⟨ops,disk,_,calls⟩ := (law.get ran).ops
    rw [same,disk]
    exact gentle_touches calls
  | @opening t key now faults store i a contents _ ran same =>
    obtain ⟨ops,disk,_,calls⟩ := (law.get ran).ops
    rw [same]
    change s.store.disk.Extends (Gentle E) store.disk
    rw [disk]
    exact gentle_touches calls
  | sending _ _ same =>
    rw [same]
    exact .refl
  | vanishing shared _ =>
    rw [owned] at shared
    cases shared

/-! ### A name after a crash -/

/-- The contents of a key that was synchronised: while it is not unlinked it
    survives with what it had at some moment since. -/
theorem content_survives {d d' : Disk FileName (Contents A)} {k : String} (extend : d.Extends (Gentle E) d')
    (base : Steady (fun i => d.volume.names.lookup (E.layout.filename k) = some i) (E.layout.filename k) d.volume)
    {later earlier : List (Volume FileName (Contents A))} (moments : d.since d' = later ++ v :: earlier)
    (there : ∀ u ∈ v :: earlier, (u.content (E.layout.filename k)).isSome = true) (recoverable : Recoverable law puts v)
    (survives : v.Survivor w) :
    ∃ u ∈ v :: earlier, w.content (E.layout.filename k) = u.content (E.layout.filename k) := by
  have steady := extend.steady (fun gentle bound => gentle.1 k _ bound) (fun gentle => gentle.2 k) base moments there
  obtain ⟨i,found,u,member,same⟩ := survives.steady steady
  refine ⟨u,member,?_⟩
  rw [content_bound found,same]
  rcases recoverable _ i (survives.bound found) with ⟨suffix,_,upload,_⟩ | ⟨_,_,f,_,_,envelope⟩
  · exact absurd upload (law.entry_ne k ⟨suffix,rfl⟩)
  · obtain ⟨g,after,_,kept⟩ := survives.file i f envelope.file
    rw [after,envelope.file]
    exact congrArg some (kept envelope.synced).1

end
end Expbuild.Crashes
