import Expbuild.Tables

/-!
A directory on a disk that may lose power. Names are bound to inodes, files are
written and synchronised, and changes of the directory are atomic one by one but
durable only once the directory itself is synchronised. `Survivor` is what a
crash may leave; a `Disk` remembers every volume it has been through, so that a
property of every moment of a run can be stated and carried (`Always`).
-/
namespace Expbuild.Disks
open Expbuild.Tables

abbrev Inode := Nat

/-- A directory of names. -/
abbrev Directory (N : Type) := Table N Inode

structure File (C : Type) where
  contents : C
  regular : Bool
  /-- Whether it was synchronised after its last write. -/
  synced : Bool
  modified : Nat
deriving DecidableEq,Repr

/-- One atomic change of a directory: names that are bound and names that go. -/
abbrev Change (N : Type) := List (N × Option Inode)

structure Volume (N C : Type) where
  names : Directory N
  files : Inode → Option (File C)
  /-- The directory when it was last synchronised. -/
  durable : Directory N
  /-- Its changes since, the newest first. -/
  pending : List (Change N)

/-- What a call does when it succeeds. -/
inductive Op (N C : Type) where
  | create (name : N) (i : Inode) (file : File C)
  | write (i : Inode) (contents : C) (time : Nat)
  | sync (i : Inode)
  | link (name : N) (i : Inode)
  | rename (source target : N) (i : Inode)
  | unlink (name : N)
  | syncDirectory
  | touch (i : Inode) (time : Nat)

section
variable {N C : Type} [DecidableEq N]

def bindName (d : Directory N) : N × Option Inode → Directory N
  | (name,some i) => d.insert name i
  | (name,none) => d.erase name

def Change.apply (change : Change N) (d : Directory N) : Directory N := change.foldl bindName d

namespace Volume

def setFile (i : Inode) (f : File C → File C) (v : Volume N C) : Volume N C :=
  { v with files := fun j => if j = i then (v.files j).map f else v.files j }

def alter (change : Change N) (v : Volume N C) : Volume N C :=
  { v with names := Change.apply change v.names, pending := change :: v.pending }

def apply (v : Volume N C) : Op N C → Volume N C
  | .create name i file =>
    { v.alter [(name,some i)] with files := fun j => if j = i then some file else v.files j }
  | .write i contents time => v.setFile i (fun f => { f with contents, modified := time, synced := false })
  | .sync i => v.setFile i (fun f => { f with synced := true })
  | .link name i => v.alter [(name,some i)]
  | .rename source target i => v.alter [(source,none),(target,some i)]
  | .unlink name => v.alter [(name,none)]
  | .syncDirectory => { v with durable := v.names, pending := [] }
  | .touch i time => v.setFile i (fun f => { f with modified := time })

/-- The file under a name. -/
def file (v : Volume N C) (name : N) : Option (File C) := (v.names.lookup name).bind v.files

/-- What a crash may leave: of the changes of the directory that were not
    synchronised any may be lost, and a file keeps its contents if it was
    synchronised. -/
structure Survivor (v w : Volume N C) : Prop where
  kept : ∃ kept, List.Sublist kept v.pending ∧ w.names = kept.foldr Change.apply v.durable
  durable : w.durable = w.names
  pending : w.pending = []
  file : ∀ i f, v.files i = some f → ∃ f', w.files i = some f' ∧ f'.regular = f.regular ∧
    (f.synced = true → f'.contents = f.contents ∧ f'.synced = true)

/-- The bytes held by the files that have a name or are open, each file counted once. -/
def held (size : C → Nat) (opened : List Inode) (v : Volume N C) : Nat :=
  ((v.names.entries.map (fun row => row.2) ++ opened).dedup.map
    (fun i => ((v.files i).map (fun f => size f.contents)).getD 0)).sum

end Volume

/-- A name that a change does not mention keeps its binding. -/
theorem Change.lookup_other {change : Change N} {name : N} (untouched : ∀ x, (name,x) ∉ change) (d : Directory N) :
    (change.apply d).lookup name = d.lookup name := by
  induction change generalizing d with
  | nil => rfl
  | cons first rest ih =>
    have later : ∀ x, (name,x) ∉ rest := fun x member => untouched x (List.mem_cons_of_mem _ member)
    have different : name ≠ first.1 := by
      intro same
      exact untouched first.2 (by rw [same]; exact List.mem_cons_self)
    change (Change.apply rest (bindName d first)).lookup name = _
    rw [ih later]
    obtain ⟨at_,bound⟩ := first
    cases bound with
    | none => simp only [bindName]; rw [lookup_erase,if_neg different]
    | some i => simp only [bindName]; rw [lookup_insert,if_neg different]

/-- A binding after a change was there before or is one of the change's. -/
theorem Change.lookup_cases {change : Change N} {d : Directory N} {name : N} {i : Inode}
    (found : (change.apply d).lookup name = some i) : d.lookup name = some i ∨ (name,some i) ∈ change := by
  induction change generalizing d with
  | nil => exact .inl found
  | cons first rest ih =>
    rcases ih (d := bindName d first) found with before | member
    · obtain ⟨at_,bound⟩ := first
      cases bound with
      | none =>
        simp only [bindName] at before
        rw [lookup_erase] at before
        split at before
        · cases before
        · exact .inl before
      | some j =>
        simp only [bindName] at before
        rcases lookup_insert_some before with ⟨rfl,rfl⟩ | ⟨_,before⟩
        · exact .inr List.mem_cons_self
        · exact .inl before
    · exact .inr (List.mem_cons_of_mem _ member)

/-- A binding after some changes was there before or is made by one of them. -/
theorem lookup_changes {changes : List (Change N)} {d : Directory N} {name : N} {i : Inode}
    (found : (changes.foldr Change.apply d).lookup name = some i) :
    d.lookup name = some i ∨ ∃ change ∈ changes, (name,some i) ∈ change := by
  induction changes with
  | nil => exact .inl found
  | cons last before ih =>
    rcases Change.lookup_cases found with found | member
    · rcases ih found with found | ⟨change,member,binds⟩
      · exact .inl found
      · exact .inr ⟨change,List.mem_cons_of_mem _ member,binds⟩
    · exact .inr ⟨last,List.mem_cons_self,member⟩

/-! ### Bindings -/

/-- The name is bound to the inode, or may be after a crash. -/
def Bound (v : Volume N C) (name : N) (i : Inode) : Prop :=
  v.names.lookup name = some i ∨ v.durable.lookup name = some i ∨ ∃ change ∈ v.pending, (name,some i) ∈ change

theorem Volume.Survivor.bound {v w : Volume N C} {name : N} {i : Inode} (survives : v.Survivor w)
    (found : w.names.lookup name = some i) : Bound v name i := by
  obtain ⟨kept,sub,names⟩ := survives.kept
  rw [names] at found
  rcases lookup_changes found with durable | ⟨change,member,binds⟩
  · exact .inr (.inl durable)
  · exact .inr (.inr ⟨change,sub.subset member,binds⟩)

theorem bound_alter {v : Volume N C} {change : Change N} {name : N} {i : Inode} (bound : Bound (v.alter change) name i) :
    Bound v name i ∨ (name,some i) ∈ change := by
  rcases bound with now | durable | ⟨pending,member,binds⟩
  · rcases Change.lookup_cases now with before | binds
    · exact .inl (.inl before)
    · exact .inr binds
  · exact .inl (.inr (.inl durable))
  · rcases List.mem_cons.mp member with rfl | before
    · exact .inr binds
    · exact .inl (.inr (.inr ⟨pending,before,binds⟩))

/-- The bindings a call makes. -/
def Op.Binds (name : N) (i : Inode) : Op N C → Prop
  | .create n j _ => n = name ∧ j = i
  | .link n j => n = name ∧ j = i
  | .rename _ n j => n = name ∧ j = i
  | _ => False

/-- A binding after a call was there before or is one the call makes. -/
theorem bound_apply {v : Volume N C} {op : Op N C} {name : N} {i : Inode} (bound : Bound (v.apply op) name i) :
    Bound v name i ∨ op.Binds name i := by
  have single : ∀ {n : N} {j : Inode}, (name,some i) ∈ ([(n,some j)] : Change N) → n = name ∧ j = i := by
    intro n j member
    simp only [List.mem_singleton,Prod.mk.injEq,Option.some.injEq] at member
    exact ⟨member.1.symm,member.2.symm⟩
  cases op with
  | create n j file =>
    have altered : Bound (v.alter [(n,some j)]) name i := bound
    rcases bound_alter altered with before | member
    · exact .inl before
    · exact .inr (single member)
  | link n j =>
    rcases bound_alter bound with before | member
    · exact .inl before
    · exact .inr (single member)
  | rename m n j =>
    rcases bound_alter bound with before | member
    · exact .inl before
    · rcases List.mem_cons.mp member with same | member
      · cases same
      · exact .inr (single member)
  | unlink n =>
    rcases bound_alter bound with before | member
    · exact .inl before
    · simp at member
  | write j contents time => exact .inl bound
  | sync j => exact .inl bound
  | touch j time => exact .inl bound
  | syncDirectory =>
    rcases bound with now | durable | ⟨_,member,_⟩
    · exact .inl (.inl now)
    · exact .inl (.inl durable)
    · cases member

/-- A name after a call was bound before or is bound by the call. -/
theorem lookup_apply {v : Volume N C} {op : Op N C} {name : N} {i : Inode}
    (found : (v.apply op).names.lookup name = some i) : v.names.lookup name = some i ∨ op.Binds name i := by
  cases op with
  | create n j file =>
    rcases Change.lookup_cases found with before | member
    · exact .inl before
    · simp only [List.mem_singleton,Prod.mk.injEq,Option.some.injEq] at member
      exact .inr ⟨member.1.symm,member.2.symm⟩
  | link n j =>
    rcases Change.lookup_cases found with before | member
    · exact .inl before
    · simp only [List.mem_singleton,Prod.mk.injEq,Option.some.injEq] at member
      exact .inr ⟨member.1.symm,member.2.symm⟩
  | rename m n j =>
    rcases Change.lookup_cases found with before | member
    · exact .inl before
    · simp only [List.mem_cons,Prod.mk.injEq,Option.some.injEq,List.not_mem_nil,or_false,reduceCtorEq,and_false,
        false_or] at member
      exact .inr ⟨member.1.symm,member.2.symm⟩
  | unlink n =>
    rcases Change.lookup_cases found with before | member
    · exact .inl before
    · simp at member
  | write j contents time => exact .inl found
  | sync j => exact .inl found
  | touch j time => exact .inl found
  | syncDirectory => exact .inl found

/-- A file kept its bytes. -/
structure SameFile (f g : File C) : Prop where
  contents : g.contents = f.contents
  regular : g.regular = f.regular
  synced : g.synced = f.synced

omit [DecidableEq N] in
theorem SameFile.rfl {f : File C} : SameFile f f := ⟨Eq.refl _,Eq.refl _,Eq.refl _⟩

omit [DecidableEq N] in
theorem SameFile.trans {f g h : File C} (first : SameFile f g) (second : SameFile g h) : SameFile f h :=
  ⟨second.contents.trans first.contents,second.regular.trans first.regular,second.synced.trans first.synced⟩

/-- The call leaves the bytes of the file alone. -/
def Op.Leaves (i : Inode) : Op N C → Prop
  | .create _ j _ => j ≠ i
  | .write j _ _ => j ≠ i
  | .sync j => j ≠ i
  | _ => True

theorem file_apply {v : Volume N C} {op : Op N C} {i : Inode} {f : File C} (leaves : op.Leaves i)
    (found : v.files i = some f) : ∃ g, (v.apply op).files i = some g ∧ SameFile f g := by
  cases op with
  | create n j file => exact ⟨f,by simpa [Volume.apply,Ne.symm leaves] using found,.rfl⟩
  | write j contents time => exact ⟨f,by simpa [Volume.apply,Volume.setFile,Ne.symm leaves] using found,.rfl⟩
  | sync j => exact ⟨f,by simpa [Volume.apply,Volume.setFile,Ne.symm leaves] using found,.rfl⟩
  | touch j time =>
    by_cases same : i = j
    · exact ⟨{ f with modified := time },by simp [Volume.apply,Volume.setFile,same ▸ found,same],⟨rfl,rfl,rfl⟩⟩
    · exact ⟨f,by simpa [Volume.apply,Volume.setFile,same] using found,.rfl⟩
  | link n j => exact ⟨f,found,.rfl⟩
  | rename m n j => exact ⟨f,found,.rfl⟩
  | unlink n => exact ⟨f,found,.rfl⟩
  | syncDirectory => exact ⟨f,found,.rfl⟩

theorem exists_apply {v : Volume N C} {i : Inode} {f : File C} (op : Op N C) (found : v.files i = some f) :
    ∃ g, (v.apply op).files i = some g := by
  cases op with
  | create n j file =>
    by_cases same : i = j
    · exact ⟨file,by simp [Volume.apply,same]⟩
    · exact ⟨f,by simpa [Volume.apply,same] using found⟩
  | write j contents time =>
    by_cases same : i = j
    · exact ⟨_,by simp [Volume.apply,Volume.setFile,same ▸ found,same]; rfl⟩
    · exact ⟨f,by simpa [Volume.apply,Volume.setFile,same] using found⟩
  | sync j =>
    by_cases same : i = j
    · exact ⟨_,by simp [Volume.apply,Volume.setFile,same ▸ found,same]; rfl⟩
    · exact ⟨f,by simpa [Volume.apply,Volume.setFile,same] using found⟩
  | touch j time =>
    by_cases same : i = j
    · exact ⟨_,by simp [Volume.apply,Volume.setFile,same ▸ found,same]; rfl⟩
    · exact ⟨f,by simpa [Volume.apply,Volume.setFile,same] using found⟩
  | link n j => exact ⟨f,found⟩
  | rename m n j => exact ⟨f,found⟩
  | unlink n => exact ⟨f,found⟩
  | syncDirectory => exact ⟨f,found⟩

/-- Only inodes below `next` are bound, and each has a file. -/
def Allocated (next : Inode) (v : Volume N C) : Prop := ∀ n i, Bound v n i → i < next ∧ ∃ f, v.files i = some f

theorem Allocated.apply {v : Volume N C} {op : Op N C} {next : Inode} (allocated : Allocated next v)
    (binds : ∀ n i, op.Binds n i → i < next ∧ ∃ f, v.files i = some f) : Allocated next (v.apply op) := by
  intro n i bound
  have before : i < next ∧ ∃ f, v.files i = some f := by
    rcases bound_apply bound with bound | bind
    · exact allocated n i bound
    · exact binds n i bind
  obtain ⟨below,f,found⟩ := before
  exact ⟨below,exists_apply op found⟩

/-- A new file takes the next inode. -/
theorem Allocated.create {v : Volume N C} {next : Inode} (allocated : Allocated next v) (name : N) (file : File C) :
    Allocated (next + 1) (v.apply (.create name next file)) := by
  intro n i bound
  rcases bound_apply bound with before | ⟨_,rfl⟩
  · obtain ⟨below,f,found⟩ := allocated n i before
    exact ⟨Nat.lt_succ_of_lt below,exists_apply _ found⟩
  · exact ⟨Nat.lt_succ_self _,file,by simp [Volume.apply]⟩

/-- The call leaves the binding of the name alone. -/
def Op.Passes (name : N) : Op N C → Prop
  | .create n _ _ => n ≠ name
  | .link n _ => n ≠ name
  | .rename m n _ => m ≠ name ∧ n ≠ name
  | .unlink n => n ≠ name
  | _ => True

theorem names_apply {v : Volume N C} {op : Op N C} {name : N} (passes : op.Passes name) :
    (v.apply op).names.lookup name = v.names.lookup name := by
  cases op with
  | create n j file => exact Change.lookup_other (by simp [Ne.symm passes]) _
  | link n j => exact Change.lookup_other (by simp [Ne.symm passes]) _
  | rename m n j => exact Change.lookup_other (by simp [Ne.symm passes.1,Ne.symm passes.2]) _
  | unlink n => exact Change.lookup_other (by simp [Ne.symm passes]) _
  | write j contents time => rfl
  | sync j => rfl
  | touch j time => rfl
  | syncDirectory => rfl

/-! ### Names that keep a binding -/

/-- The name is bound to such an inode, and will be after any crash. -/
structure Steady (P : Inode → Prop) (n : N) (v : Volume N C) : Prop where
  now : ∃ i, v.names.lookup n = some i ∧ P i
  durable : ∃ i, v.durable.lookup n = some i ∧ P i
  pending : ∀ change ∈ v.pending, ∀ x, (n,x) ∈ change → ∃ i, x = some i ∧ P i

theorem Change.lookup_kept {P : Inode → Prop} {change : Change N} {d : Directory N} {n : N}
    (before : ∃ i, d.lookup n = some i ∧ P i) (mentions : ∀ x, (n,x) ∈ change → ∃ i, x = some i ∧ P i) :
    ∃ i, (change.apply d).lookup n = some i ∧ P i := by
  induction change generalizing d with
  | nil => exact before
  | cons first rest ih =>
    refine ih (d := bindName d first) ?_ (fun x member => mentions x (List.mem_cons_of_mem _ member))
    obtain ⟨at_,bound⟩ := first
    by_cases same : n = at_
    · obtain ⟨i,rfl,holds⟩ := mentions bound (by rw [same]; exact List.mem_cons_self)
      exact ⟨i,by rw [same]; simp [bindName],holds⟩
    · obtain ⟨i,found,holds⟩ := before
      refine ⟨i,?_,holds⟩
      cases bound with
      | none => simp only [bindName]; rw [lookup_erase,if_neg same]; exact found
      | some j => simp only [bindName]; rw [lookup_insert,if_neg same]; exact found

theorem lookup_kept {P : Inode → Prop} {changes : List (Change N)} {d : Directory N} {n : N}
    (before : ∃ i, d.lookup n = some i ∧ P i)
    (mentions : ∀ change ∈ changes, ∀ x, (n,x) ∈ change → ∃ i, x = some i ∧ P i) :
    ∃ i, (changes.foldr Change.apply d).lookup n = some i ∧ P i := by
  induction changes with
  | nil => exact before
  | cons last earlier ih =>
    refine Change.lookup_kept (d := earlier.foldr Change.apply d) ?_ (mentions last List.mem_cons_self)
    exact ih (fun change member => mentions change (List.mem_cons_of_mem _ member))

theorem Volume.Survivor.steady {P : Inode → Prop} {v w : Volume N C} {n : N} (survives : v.Survivor w) (steady : Steady P n v) :
    ∃ i, w.names.lookup n = some i ∧ P i := by
  obtain ⟨kept,sub,names⟩ := survives.kept
  rw [names]
  exact lookup_kept steady.durable (fun change member => steady.pending change (sub.subset member))

/-- Only what is bound matters. -/
theorem Steady.mono {P Q : Inode → Prop} {v : Volume N C} {n : N} (steady : Steady P n v)
    (weaker : ∀ i, Bound v n i → P i → Q i) : Steady Q n v where
  now := by
    obtain ⟨i,found,holds⟩ := steady.now
    exact ⟨i,found,weaker i (.inl found) holds⟩
  durable := by
    obtain ⟨i,found,holds⟩ := steady.durable
    exact ⟨i,found,weaker i (.inr (.inl found)) holds⟩
  pending := by
    intro change member x mention
    obtain ⟨i,rfl,holds⟩ := steady.pending change member x mention
    exact ⟨i,rfl,weaker i (.inr (.inr ⟨change,member,mention⟩)) holds⟩

theorem Steady.alter {P : Inode → Prop} {v : Volume N C} {n : N} {change : Change N} (steady : Steady P n v)
    (mentions : ∀ x, (n,x) ∈ change → ∃ i, x = some i ∧ P i) : Steady P n (v.alter change) where
  now := Change.lookup_kept steady.now mentions
  durable := steady.durable
  pending := by
    intro other member x mention
    rcases List.mem_cons.mp member with rfl | before
    · exact mentions x mention
    · exact steady.pending other before x mention

/-- Calls that leave the name alone keep it. -/
theorem Steady.passes {P : Inode → Prop} {v : Volume N C} {n : N} {op : Op N C} (steady : Steady P n v)
    (passes : op.Passes n) : Steady P n (v.apply op) := by
  cases op with
  | create m j file =>
    have altered : Steady P n (v.alter [(m,some j)]) := steady.alter (by simp [Ne.symm passes])
    exact ⟨altered.now,altered.durable,altered.pending⟩
  | link m j => exact steady.alter (by simp [Ne.symm passes])
  | rename m m' j => exact steady.alter (by simp [Ne.symm passes.1,Ne.symm passes.2])
  | unlink m => exact steady.alter (by simp [Ne.symm passes])
  | write j contents time => exact ⟨steady.now,steady.durable,steady.pending⟩
  | sync j => exact ⟨steady.now,steady.durable,steady.pending⟩
  | touch j time => exact ⟨steady.now,steady.durable,steady.pending⟩
  | syncDirectory => exact ⟨steady.now,steady.now,nofun⟩

/-- A name that is replaced by a rename. -/
theorem Steady.rename {P : Inode → Prop} {v : Volume N C} {n source : N} {i : Inode} (steady : Steady P n v)
    (other : source ≠ n) (holds : P i) : Steady P n (v.apply (.rename source n i)) := by
  refine steady.alter (fun x mention => ?_)
  simp only [List.mem_cons,Prod.mk.injEq,List.not_mem_nil,or_false] at mention
  rcases mention with ⟨same,_⟩ | ⟨_,rfl⟩
  · exact absurd same.symm other
  · exact ⟨i,rfl,holds⟩

/-- A synchronised directory keeps its names. -/
theorem steady_synced {P : Inode → Prop} {v : Volume N C} {n : N} {i : Inode} (found : v.names.lookup n = some i) (holds : P i) :
    Steady P n (v.apply .syncDirectory) :=
  ⟨⟨i,found,holds⟩,⟨i,found,holds⟩,nofun⟩

/-! ### Disks and their past -/

/-- A volume with every volume it was before, the newest first. -/
structure Disk (N C : Type) where
  volume : Volume N C
  past : List (Volume N C)

namespace Disk

def perform (op : Op N C) (d : Disk N C) : Disk N C := ⟨d.volume.apply op,d.volume :: d.past⟩

def performs (ops : List (Op N C)) (d : Disk N C) : Disk N C := ops.foldl (fun d op => d.perform op) d

omit [DecidableEq N] in
/-- Now and at every moment before. -/
def Always (P : Volume N C → Prop) (d : Disk N C) : Prop := P d.volume ∧ ∀ v ∈ d.past, P v

@[simp] theorem performs_nil (d : Disk N C) : d.performs [] = d := rfl

@[simp] theorem performs_append (first second : List (Op N C)) (d : Disk N C) :
    d.performs (first ++ second) = (d.performs first).performs second := by
  simp [performs]

/-- What every call of a list keeps, the list keeps. -/
theorem performs_invariant {I : Volume N C → Prop} {ops : List (Op N C)} {d : Disk N C} (base : I d.volume)
    (kept : ∀ v, ∀ op ∈ ops, I v → I (v.apply op)) : I (d.performs ops).volume := by
  induction ops generalizing d with
  | nil => exact base
  | cons op rest ih =>
    refine ih (d := d.perform op) (kept d.volume op List.mem_cons_self base) ?_
    intro v later member
    exact kept v later (List.mem_cons_of_mem _ member)

theorem Always.perform {P : Volume N C → Prop} {d : Disk N C} {op : Op N C} (always : d.Always P)
    (now : P (d.volume.apply op)) : (d.perform op).Always P := by
  refine ⟨now,fun v member => ?_⟩
  rcases List.mem_cons.mp member with rfl | earlier
  · exact always.1
  · exact always.2 v earlier

/-- What every call of a list keeps holds at every moment of the list. -/
theorem Always.performs {I P : Volume N C → Prop} {ops : List (Op N C)} {d : Disk N C} (always : d.Always P) (base : I d.volume)
    (kept : ∀ v, ∀ op ∈ ops, I v → I (v.apply op)) (implies : ∀ v, I v → P v) : (d.performs ops).Always P := by
  induction ops generalizing d with
  | nil => exact always
  | cons op rest ih =>
    have next := kept d.volume op List.mem_cons_self base
    refine ih (d := d.perform op) (always.perform (implies _ next)) next ?_
    intro v later member
    exact kept v later (List.mem_cons_of_mem _ member)

omit [DecidableEq N] in
theorem Always.mono {P Q : Volume N C → Prop} {d : Disk N C} (always : d.Always P) (weaker : ∀ v, P v → Q v) : d.Always Q :=
  ⟨weaker _ always.1,fun v member => weaker v (always.2 v member)⟩

omit [DecidableEq N] in
/-- The volumes a disk has been through since it was another. -/
def since (d d' : Disk N C) : List (Volume N C) := (d'.volume :: d'.past).take (d'.past.length + 1 - d.past.length)

omit [DecidableEq N] in
theorem since_self (d : Disk N C) : d.since d = [d.volume] := by
  simp [since]

/-- A call adds one volume. -/
theorem since_perform {d d' : Disk N C} (op : Op N C) (older : d.past.length ≤ d'.past.length) :
    d.since (d'.perform op) = d'.volume.apply op :: d.since d' := by
  simp only [since,perform,List.length_cons]
  rw [show d'.past.length + 1 + 1 - d.past.length = (d'.past.length + 1 - d.past.length) + 1 by omega,List.take_succ_cons]

omit [DecidableEq N] in
/-- The newest of them is the volume now. -/
theorem since_head {d d' : Disk N C} (older : d.past.length ≤ d'.past.length) : ∃ earlier, d.since d' = d'.volume :: earlier := by
  obtain ⟨n,count⟩ : ∃ n, d'.past.length + 1 - d.past.length = n + 1 := ⟨d'.past.length - d.past.length,by omega⟩
  exact ⟨d'.past.take n,by simp [since,count]⟩

/-- A disk after some calls, each of which was allowed where it was made. -/
inductive Extends (may : Volume N C → Op N C → Prop) (d : Disk N C) : Disk N C → Prop where
  | refl : Extends may d d
  | perform {d' : Disk N C} {op : Op N C} : Extends may d d' → may d'.volume op → Extends may d (d'.perform op)

namespace Extends
variable {may : Volume N C → Op N C → Prop} {d d' d'' : Disk N C}

theorem trans (first : Extends may d d') (second : Extends may d' d'') : Extends may d d'' := by
  induction second with
  | refl => exact first
  | perform _ allowed ih => exact ih.perform allowed

theorem mono {also : Volume N C → Op N C → Prop} (extend : Extends may d d') (weaker : ∀ v op, may v op → also v op) :
    Extends also d d' := by
  induction extend with
  | refl => exact .refl
  | perform _ allowed ih => exact ih.perform (weaker _ _ allowed)

theorem names {n : N} (extend : Extends may d d') (passes : ∀ v op, may v op → op.Passes n) :
    d'.volume.names.lookup n = d.volume.names.lookup n := by
  induction extend with
  | refl => rfl
  | perform _ allowed ih => exact (names_apply (passes _ _ allowed)).trans ih

theorem older (extend : Extends may d d') : d.past.length ≤ d'.past.length := by
  induction extend with
  | refl => exact Nat.le_refl _
  | perform _ _ ih => exact Nat.le_succ_of_le ih

/-- A list of calls that are allowed as long as what they keep holds. -/
theorem performs {I : Volume N C → Prop} {ops : List (Op N C)} (extend : Extends may d d') (base : I d'.volume)
    (allowed : ∀ v, ∀ op ∈ ops, I v → may v op ∧ I (v.apply op)) : Extends may d (d'.performs ops) := by
  induction ops generalizing d' with
  | nil => exact extend
  | cons op rest ih =>
    obtain ⟨now,next⟩ := allowed d'.volume op List.mem_cons_self base
    have whole : Extends may d (d'.perform op) := extend.perform now
    refine ih whole next ?_
    intro v later member
    exact allowed v later (List.mem_cons_of_mem _ member)

/-- The oldest of the moments since is the one it began with. -/
theorem oldest (extend : Extends may d d') : (d.since d').getLast? = some d.volume := by
  induction extend with
  | refl => simp [since_self]
  | @perform d' op extended allowed ih =>
    rw [since_perform op extended.older,List.getLast?_cons,ih]
    rfl

end Extends
end Disk

/-! ### What a name keeps -/

/-- The contents of the file under a name. -/
def Volume.content (v : Volume N C) (name : N) : Option C := (v.file name).map (fun f => f.contents)

theorem content_bound {v : Volume N C} {n : N} {i : Inode} (bound : v.names.lookup n = some i) :
    v.content n = (v.files i).map (fun f => f.contents) := by
  simp [Volume.content,Volume.file,bound]

theorem content_apply {v : Volume N C} {op : Op N C} {i : Inode} {c : C} (leaves : op.Leaves i)
    (held : (v.files i).map (fun f => f.contents) = some c) : ((v.apply op).files i).map (fun f => f.contents) = some c := by
  obtain ⟨f,found,rfl⟩ := Option.map_eq_some_iff.mp held
  obtain ⟨g,after,same⟩ := file_apply leaves found
  rw [after]
  exact congrArg some same.contents

/-- A call after which the name is bound: it keeps the bindings or makes its own. -/
theorem Steady.call {P : Inode → Prop} {v : Volume N C} {n : N} {op : Op N C} (steady : Steady P n v)
    (source : ∀ target i, op ≠ .rename n target i) (there : ((v.apply op).names.lookup n).isSome = true) :
    Steady (fun i => P i ∨ (v.apply op).names.lookup n = some i) n (v.apply op) := by
  have weaker : Steady (fun i => P i ∨ (v.apply op).names.lookup n = some i) n v := steady.mono (fun _ _ holds => .inl holds)
  cases op with
  | create m j file =>
    by_cases same : m = n
    · subst same
      have altered : Steady (fun i => P i ∨ (v.apply (.create m j file)).names.lookup m = some i) m (v.alter [(m,some j)]) := by
        refine weaker.alter ?_
        intro x mention
        obtain rfl : x = some j := by simpa using mention
        exact ⟨j,rfl,.inr (by simp [Volume.apply,Volume.alter,Change.apply,bindName])⟩
      exact ⟨altered.now,altered.durable,altered.pending⟩
    · exact weaker.passes same
  | link m j =>
    by_cases same : m = n
    · subst same
      refine weaker.alter (fun x mention => ?_)
      obtain rfl : x = some j := by simpa using mention
      exact ⟨j,rfl,.inr (by simp [Volume.apply,Volume.alter,Change.apply,bindName])⟩
    · exact weaker.passes same
  | rename m target j =>
    have other : m ≠ n := by
      rintro rfl
      exact source target j rfl
    by_cases same : target = n
    · subst same
      exact weaker.rename other (.inr (by simp [Volume.apply,Volume.alter,Change.apply,bindName]))
    · exact weaker.passes ⟨other,same⟩
  | unlink m =>
    by_cases same : m = n
    · subst same
      simp [Volume.apply,Volume.alter,Change.apply,bindName] at there
    · exact weaker.passes same
  | write j contents time => exact weaker.passes trivial
  | sync j => exact weaker.passes trivial
  | touch j time => exact weaker.passes trivial
  | syncDirectory => exact weaker.passes trivial

/-- A name that is bound at every moment since it was steady stays so, with what
    it was bound to at one of these moments. -/
theorem Disk.Extends.steady {may : Volume N C → Op N C → Prop} {d d' : Disk N C} {n : N} (extend : d.Extends may d')
    (leaves : ∀ {v op i}, may v op → Bound v n i → op.Leaves i)
    (source : ∀ {v op}, may v op → ∀ target i, op ≠ .rename n target i)
    (base : Steady (fun i => d.volume.names.lookup n = some i) n d.volume) {later earlier : List (Volume N C)}
    {v : Volume N C} (moments : d.since d' = later ++ v :: earlier) (there : ∀ u ∈ v :: earlier, (u.content n).isSome = true) :
    Steady (fun i => ∃ u ∈ v :: earlier, u.content n = (v.files i).map (fun f => f.contents)) n v := by
  induction extend generalizing later earlier v with
  | refl =>
    rw [since_self] at moments
    obtain ⟨rfl,rfl,rfl⟩ : later = [] ∧ v = d.volume ∧ earlier = [] := by
      cases later with
      | nil => simpa [eq_comm] using moments
      | cons first rest => simp at moments
    exact base.mono (fun i _ found => ⟨_,List.mem_cons_self,content_bound found⟩)
  | @perform d' op extended allowed ih =>
    rw [since_perform op extended.older] at moments
    cases later with
    | cons first rest => exact ih (List.cons.inj moments).2 there
    | nil =>
      obtain ⟨rfl,rfl⟩ := List.cons.inj moments
      obtain ⟨before,head⟩ := since_head extended.older
      rw [head] at there ⊢
      rw [← List.nil_append (d'.volume :: before)] at head
      have steady := ih head (fun u member => there u (List.mem_cons_of_mem _ member))
      have bound : ((d'.volume.apply op).names.lookup n).isSome = true := by
        have whole := there _ List.mem_cons_self
        cases missing : (d'.volume.apply op).names.lookup n with
        | none => simp [Volume.content,Volume.file,missing] at whole
        | some i => rfl
      -- a file that was bound keeps its bytes over the call
      have kept : Steady (fun i => ∃ u ∈ d'.volume.apply op :: d'.volume :: before,
          u.content n = ((d'.volume.apply op).files i).map (fun f => f.contents)) n d'.volume := by
        refine steady.mono (fun i old holds => ?_)
        obtain ⟨u,member,same⟩ := holds
        refine ⟨u,List.mem_cons_of_mem _ member,?_⟩
        obtain ⟨c,held⟩ := Option.isSome_iff_exists.mp (there u (List.mem_cons_of_mem _ member))
        rw [held] at same
        rw [held]
        exact (content_apply (leaves allowed old) same.symm).symm
      refine (kept.call (source allowed) bound).mono (fun i _ holds => ?_)
      rcases holds with old | new
      · exact old
      · exact ⟨_,List.mem_cons_self,content_bound new⟩

end
end Expbuild.Disks
