import Expbuild.Sections
import Expbuild.Runs

/-!
The two clocks of a Gradle archive: the access time of the index, which every hit
sets, and the modification time of its file, which a hit sets only where the access
before it is a minute old, and from which `New` restores the other one. A hit less
than a minute after the last one is not persisted, however old the file's time is
(`access_lost`); where no such hit comes too late, a restart forgets less than a
minute (`access_persisted`).
-/
namespace Expbuild.Clocks
open Expbuild.Tables Expbuild.Disks Expbuild.Engines Expbuild.Stores Expbuild.Runs Expbuild.Gradlecache

/-- A body in its staging file. -/
structure Upload where
  key : String
  body : List UInt8
  suffix : String
  /-- When its last bytes were written. -/
  written : Nat

/-- A server with the time of its last step. -/
structure Machine where
  store : Store Archive
  clock : Nat

inductive Label where
  | get (key : String) (now : Nat) (faults : List Bool)
  | put (u : Upload) (now : Nat) (faults : List Bool) (rollbackFails leaveFails : Bool)
  | restart (faults : List Bool)

/-- The store with the staging file of an upload. -/
def stage (u : Upload) (faults : List Bool) (s : Store Archive) : Store Archive :=
  { s.perform (.create (.upload u.suffix) s.next ⟨.envelope none u.body,true,true,u.written⟩) with
    next := s.next + 1, faults }

/-- What is published of an upload. -/
def staged (u : Upload) (now : Nat) : Staged Archive :=
  ⟨u.key,⟨u.body.length⟩,.upload u.suffix,.envelope none u.body,now⟩

/-- The sections of the handlers, one after the other. Staging touches no entry, so
    that an upload is staged together with its publication. -/
def step (c : Server) : Label → Machine → Option Machine
  | .get key now faults,s =>
    if s.clock ≤ now then some ⟨(Server.get key now { s.store with faults }).1,now⟩ else none
  | .put u now faults rollbackFails leaveFails,s =>
    if s.clock ≤ now ∧ u.written ≤ now ∧ validKey u.key = true ∧ (u.body.length : Int) ≤ c.maxEntry ∧
        s.store.volume.names.lookup (.upload u.suffix) = none then
      let published := (c.publish (staged u now) rollbackFails (stage u faults s.store)).1
      some ⟨({ published with faults := [leaveFails] }.remove (.upload u.suffix)).1,now⟩
    else none
  | .restart faults,s => (c.new s.store.volume s.store.next faults).map (fun store => ⟨store,s.clock⟩)

/-- A server right after `New`, on a volume whose files are not from the future. -/
def Start (c : Server) (s : Machine) : Prop :=
  ∃ v next faults, Allocated next v ∧ (∀ i f, v.files i = some f → f.modified ≤ s.clock) ∧
    c.new v next faults = some s.store

/-- A GET that finds the archive and its file. -/
structure Hits (s : Machine) (key : String) (faults : List Bool) (e : Entry Archive) (f : File (Contents Archive)) : Prop where
  known : s.store.entries.lookup key = some e
  file : s.store.volume.file (.entry key) = some f
  opens : ({ s.store with faults } : Store Archive).fails.2 = false

/-- The step loses no access: a hit comes a minute after the last access or within a
    minute of the file's time, and an upload is published within a minute of its
    last bytes. -/
def Timely (s : Machine) : Label → Prop
  | .get key now faults => ∀ e f, Hits s key faults e f → 60 ≤ now - e.accessed ∨ now < f.modified + 60
  | .put u now _ _ _ => now < u.written + 60
  | .restart _ => True

/-- Every access is persisted to within a minute. -/
def Persisted (s : Machine) : Prop :=
  ∀ key e, s.store.entries.lookup key = some e → ∃ f, s.store.volume.file (.entry key) = some f ∧ e.accessed < f.modified + 60

/-! ### The file under a name -/

section
variable {v : Volume FileName (Contents Archive)} {name other : FileName}

theorem file_unlink (different : other ≠ name) : (v.apply (.unlink other)).file name = v.file name := by
  unfold Volume.file
  have passes : (Op.unlink other : Op FileName (Contents Archive)).Passes name := different
  rw [names_apply passes]
  rfl

theorem file_link {i : Inode} (different : other ≠ name) : (v.apply (.link other i)).file name = v.file name := by
  unfold Volume.file
  have passes : (Op.link other i : Op FileName (Contents Archive)).Passes name := different
  rw [names_apply passes]
  rfl

theorem file_create {next : Inode} {file : File (Contents Archive)} (allocated : Allocated next v) (different : other ≠ name) :
    (v.apply (.create other next file)).file name = v.file name := by
  unfold Volume.file
  have passes : (Op.create other next file : Op FileName (Contents Archive)).Passes name := different
  rw [names_apply passes]
  cases bound : v.names.lookup name with
  | none => rfl
  | some i =>
    have below := (allocated name i (.inl bound)).1
    simp [Volume.apply,Nat.ne_of_lt below]

theorem file_touch (i : Inode) (now : Nat) {f : File (Contents Archive)} (found : v.file name = some f) :
    ∃ g, (v.apply (.touch i now)).file name = some g ∧ (g.modified = f.modified ∨ g.modified = now) := by
  obtain ⟨j,bound,there⟩ := Option.bind_eq_some_iff.mp found
  by_cases own : j = i
  · subst own
    refine ⟨{ f with modified := now },?_,.inr rfl⟩
    simp [Volume.file,bound,Volume.apply,Volume.setFile,there]
  · refine ⟨f,?_,.inl rfl⟩
    simp [Volume.file,bound,Volume.apply,Volume.setFile,own,there]

end
/-! ### What the sections keep -/

/-- The times of the entries and of their files are related, and in the past. -/
structure Kept (related : String → Nat → Nat → Prop) (now : Nat) (s : Store Archive) : Prop where
  allocated : Allocated s.next s.volume
  past : ∀ i f, s.volume.files i = some f → f.modified ≤ now
  persisted : ∀ key e, s.entries.lookup key = some e →
    e.accessed ≤ now ∧ ∃ f, s.volume.file (.entry key) = some f ∧ related key e.accessed f.modified

/-- Less than a minute apart. -/
def Near (_key : String) (accessed modified : Nat) : Prop := accessed < modified + 60

section
variable {related : String → Nat → Nat → Prop} {now : Nat} {s t : Store Archive}

theorem Kept.refault (kept : Kept related now s) (faults : List Bool) : Kept related now { s with faults } :=
  ⟨kept.allocated,kept.past,kept.persisted⟩

theorem Kept.later {time : Nat} (kept : Kept related now s) (passed : now ≤ time) : Kept related time s where
  allocated := kept.allocated
  past := fun i f there => Nat.le_trans (kept.past i f there) passed
  persisted := by
    intro key e found
    obtain ⟨before,file⟩ := kept.persisted key e found
    exact ⟨Nat.le_trans before passed,file⟩

theorem Kept.delete (kept : Kept related now s) (key : String) : Kept related now (s.delete Server.layout key) where
  allocated := kept.allocated
  past := kept.past
  persisted := by
    intro other e found
    simp only [Store.delete] at found
    rw [lookup_erase] at found
    split at found
    · cases found
    · exact kept.persisted other e found

/-- A name that no entry has may go. -/
theorem Kept.unlink {name : FileName} (kept : Kept related now s)
    (unused : ∀ key, name = .entry key → s.entries.lookup key = none) : Kept related now (s.perform (.unlink name)) where
  allocated := kept.allocated.apply (fun _ _ bind => bind.elim)
  past := kept.past
  persisted := by
    intro key e found
    obtain ⟨before,f,file,recent⟩ := kept.persisted key e found
    refine ⟨before,f,?_,recent⟩
    have different : name ≠ .entry key := by
      intro same
      have gone := unused key same
      rw [show s.entries.lookup key = some e from found] at gone
      cases gone
    exact (file_unlink different).trans file

theorem Kept.drop {key : String} (kept : Kept related now s) : Kept related now (dropKey Server.layout key s) := by
  unfold dropKey
  split
  · -- the entry goes with its file
    have without : Kept related now ((s.delete Server.layout key).perform (.unlink (.entry key))) := by
      refine (kept.delete key).unlink (fun other same => ?_)
      cases same
      simp [Store.delete]
    exact ⟨without.allocated,without.past,without.persisted⟩
  · exact kept.delete key

theorem Kept.evicts {keep : String → Bool} (kept : Kept related now s) (evicts : Evicts Server.layout keep s t) : Kept related now t :=
  evicts.invariant kept (fun _ _ _ kept _ _ => kept.drop)

theorem Kept.link {key : String} {name : FileName} {i : Inode} (kept : Kept related now s) (tmp : s.volume.names.lookup name = some i)
    (free : s.volume.names.lookup (.entry key) = none) : Kept related now (s.perform (.link (.entry key) i)) where
  allocated := by
    refine kept.allocated.apply (fun n j bind => ?_)
    obtain ⟨_,rfl⟩ := bind
    exact kept.allocated name i (.inl tmp)
  past := kept.past
  persisted := by
    intro other e found
    obtain ⟨before,g,file,recent⟩ := kept.persisted other e found
    refine ⟨before,g,?_,recent⟩
    have different : FileName.entry key ≠ .entry other := by
      intro same
      rw [← same] at file
      simp [Volume.file,free] at file
    exact (file_link different).trans file

theorem file_linked {key : String} {i : Inode} {f : File (Contents Archive)} (there : s.volume.files i = some f) :
    (s.perform (.link (.entry key) i)).volume.file (.entry key) = some f := by
  simp [Store.perform,Disk.perform,Volume.file,Volume.apply,Volume.alter,Change.apply,bindName,there]

theorem Kept.sync (kept : Kept related now s) : Kept related now (s.perform .syncDirectory) :=
  ⟨kept.allocated.apply (fun _ _ bind => bind.elim),kept.past,kept.persisted⟩

theorem Kept.record {key : String} {e : Entry Archive} {contents : Contents Archive} {f : File (Contents Archive)}
    (kept : Kept related now s) (file : s.volume.file (.entry key) = some f) (before : e.accessed ≤ now)
    (recent : related key e.accessed f.modified) : Kept related now (s.record Server.layout key e contents) where
  allocated := kept.allocated
  past := kept.past
  persisted := by
    intro other e' found
    simp only [Store.record] at found
    rcases lookup_insert_some found with ⟨rfl,rfl⟩ | ⟨_,found⟩
    · exact ⟨before,f,file,recent⟩
    · exact kept.persisted other e' found

/-- A publication keeps to the times of the staging file. -/
theorem Kept.publishing {maxTotal : Int} {p : Staged Archive} {rollbackFails : Bool} {status : Nat} {i : Inode}
    {f : File (Contents Archive)} (kept : Kept Near now s)
    (publishing : Publishing Server.layout maxTotal false p rollbackFails s t status)
    (tmp : s.volume.names.lookup p.tmp = some i) (upload : ∀ key, p.tmp ≠ .entry key) (there : s.volume.files i = some f)
    (before : p.accessed ≤ now) (recent : Near p.key p.accessed f.modified) : Kept Near now t := by
  -- an eviction neither moves the staging file nor touches it
  have staging : ∀ {keep u}, Evicts Server.layout keep s u →
      u.volume.names.lookup p.tmp = some i ∧ u.volume.files i = some f := by
    intro keep u evicts
    refine evicts.invariant (I := fun u => u.volume.names.lookup p.tmp = some i ∧ u.volume.files i = some f) ⟨tmp,there⟩ ?_
    rintro u k e ⟨named,file⟩ _ _
    rcases dropKey_volume Server.layout k u with unlinked | ⟨_,same⟩
    · rw [unlinked]
      refine ⟨?_,file⟩
      have passes : (Op.unlink (Server.layout.filename k) : Op FileName (Contents Archive)).Passes p.tmp := Ne.symm (upload k)
      rw [names_apply passes]
      exact named
    · rw [same]
      exact ⟨named,file⟩
  have unlinked {u : Store Archive} (kept : Kept Near now u) (gone : u.entries.lookup p.key = none) :
      Kept Near now (u.perform (.unlink (.entry p.key))) := by
    refine kept.unlink (fun key same => ?_)
    cases same
    exact gone
  cases publishing with
  | refused evicts => exact (kept.evicts evicts).refault _
  | @created u j _ _ known evicts bound free _ =>
    obtain ⟨named,file⟩ := staging evicts
    rw [named] at bound
    cases bound
    exact ((((kept.evicts evicts).link named free).sync).record (file_linked file) before recent).refault _
  | @withdrawn u j _ _ known evicts bound free _ =>
    have absent : u.entries.lookup p.key = none := by
      rw [evicts.kept (by simp)]
      exact known
    exact (unlinked ((kept.evicts evicts).link bound free) absent).refault _
  | orphaned _ _ known evicts bound free _ => exact ((kept.evicts evicts).link bound free).refault _
  | replaced _ wrong _ _ _ _ _ => cases wrong
  | @added u j _ _ known bound free evicts _ =>
    rw [tmp] at bound
    cases bound
    exact (((kept.link tmp free).record (file_linked there) before recent).evicts evicts).refault _
  | @undone u j _ _ known bound free evicts =>
    rw [tmp] at bound
    cases bound
    have room := ((kept.link tmp free).record (file_linked there) before recent).evicts evicts
    have without : Kept Near now ((u.delete Server.layout p.key).perform (.unlink (.entry p.key))) := by
      refine (room.delete p.key).unlink (fun other same => ?_)
      cases same
      simp [Store.delete]
    exact Kept.refault ⟨without.allocated,without.past,without.persisted⟩ _
  | @stranded u j _ _ _ known bound free evicts =>
    rw [tmp] at bound
    cases bound
    exact ((((kept.link tmp free).record (file_linked there) before recent).evicts evicts).delete p.key).refault _

/-- A staging file is new. -/
theorem Kept.stage {u : Upload} (faults : List Bool) (kept : Kept related now s) (written : u.written ≤ now) :
    Kept related now (stage u faults s) where
  allocated := kept.allocated.create _ _
  past := by
    intro i f there
    change (if i = s.next then some (⟨.envelope none u.body,true,true,u.written⟩ : File (Contents Archive))
      else s.volume.files i) = some f at there
    split at there
    · cases there
      exact written
    · exact kept.past i f there
  persisted := by
    intro key e found
    obtain ⟨before,f,file,recent⟩ := kept.persisted key e found
    exact ⟨before,f,(file_create kept.allocated (by simp)).trans file,recent⟩

/-- A hit keeps to the file's time, if it is persisted or comes early. -/
theorem Kept.get {key : String} (kept : Kept Near now s)
    (timely : ∀ e f, s.entries.lookup key = some e → s.volume.file (.entry key) = some f → s.fails.2 = false →
      60 ≤ now - e.accessed ∨ now < f.modified + 60) : Kept Near now (Server.get key now s).1 := by
  unfold Server.get
  cases known : s.entries.lookup key with
  | none => exact kept
  | some e =>
    simp only
    obtain ⟨faults,failed | worked⟩ := fails_cases s
    · rw [failed]
      exact kept.refault faults
    · rw [worked]
      have opens : s.fails.2 = false := by rw [worked]
      simp only [Store.volume]
      cases bound : s.disk.volume.names.lookup (Server.layout.filename key) with
      | none => exact (kept.refault faults).delete key
      | some i =>
        cases there : s.disk.volume.files i with
        | none =>
          simp only [Option.bind_some,there,Option.map_none]
          exact (kept.refault faults).delete key
        | some f =>
          simp only [Option.bind_some,there,Option.map_some]
          have file : s.volume.file (.entry key) = some f := by
            unfold Volume.file
            rw [show s.volume.names.lookup (.entry key) = some i from bound]
            exact there
          have early := timely e f known file opens
          by_cases late : now - e.accessed ≥ 60
          · rw [if_pos late]
            refine ⟨kept.allocated.apply (fun _ _ bind => bind.elim),?_,?_⟩
            · intro j g there
              simp only [Store.perform,Disk.perform,Volume.apply,Volume.setFile] at there
              split at there
              · obtain ⟨_,_,rfl⟩ := Option.map_eq_some_iff.mp there
                exact Nat.le_refl _
              · exact kept.past j g there
            · intro other e' found
              rcases lookup_insert_some found with ⟨rfl,rfl⟩ | ⟨_,found⟩
              · refine ⟨Nat.le_refl _,{ f with modified := now },?_,by simp [Near]⟩
                simp [Store.perform,Disk.perform,Volume.file,Volume.apply,Volume.setFile,there,
                  show s.disk.volume.names.lookup (.entry other) = some i from bound]
              · obtain ⟨before,g,file,recent⟩ := kept.persisted other e' found
                obtain ⟨h,file',time⟩ := file_touch i now file
                refine ⟨before,h,file',?_⟩
                unfold Near at recent ⊢
                rcases time with same | same <;> omega
          · rw [if_neg late]
            refine ⟨kept.allocated,kept.past,?_⟩
            intro other e' found
            rcases lookup_insert_some found with ⟨rfl,rfl⟩ | ⟨_,found⟩
            · refine ⟨Nat.le_refl _,f,file,?_⟩
              change now < f.modified + 60
              omega
            · exact kept.persisted other e' found

end

/-! ### New -/

/-- The time is that of the file, in the volume that `New` found. -/
def Stamped (v : Volume FileName (Contents Archive)) (key : String) (accessed modified : Nat) : Prop :=
  accessed = modified ∧ (v.file (.entry key)).map (fun f => f.modified) = some modified

section
variable {now : Nat} {s t : Store Archive} {v : Volume FileName (Contents Archive)}

/-- The loop of `New` gives every entry the time of its file. -/
theorem scan_kept {rest : List (FileName × Inode)} (kept : Kept (Stamped v) now s) (files : s.volume.files = v.files)
    (listed : ∀ key i, (.entry key,i) ∈ rest →
      s.volume.names.lookup (.entry key) = some i ∧ v.names.lookup (.entry key) = some i)
    (ran : Server.scan rest s = some t) : Kept (Stamped v) now t := by
  induction rest generalizing s with
  | nil =>
    simp only [Server.scan] at ran
    cases ran
    exact kept
  | cons item rest ih =>
    obtain ⟨name,i⟩ := item
    have others : ∀ key i, (.entry key,i) ∈ rest →
        s.volume.names.lookup (.entry key) = some i ∧ v.names.lookup (.entry key) = some i :=
      fun key i member => listed key i (List.mem_cons_of_mem _ member)
    simp only [Server.scan] at ran
    split at ran
    · rename_i file suffix there
      split at ran
      · split at ran
        · rename_i u removed
          obtain ⟨faults,failed | ⟨_,missing⟩ | ⟨j,_,gone⟩⟩ := remove_cases (.upload suffix) s
          · rw [failed] at removed; exact absurd (congrArg Prod.snd removed) (by simp)
          · rw [missing] at removed; exact absurd (congrArg Prod.snd removed) (by simp)
          · rw [gone] at removed
            obtain ⟨rfl,_⟩ := Prod.mk.inj removed
            refine ih ((kept.unlink (fun key wrong => (by cases wrong))).refault faults) files (fun key i member => ?_) ran
            have passes : (Op.unlink (.upload suffix) : Op FileName (Contents Archive)).Passes (.entry key) := by
              simp [Op.Passes]
            exact ⟨(names_apply passes).trans (others key i member).1,(others key i member).2⟩
        · cases ran
      · exact ih kept files others ran
    · rename_i file key there
      split at ran
      · obtain ⟨faults,failed | worked⟩ := fails_cases s
        · rw [failed] at ran
          cases ran
        · rw [worked] at ran
          obtain ⟨here,first⟩ := listed key i List.mem_cons_self
          have found : s.volume.file (.entry key) = some file := by
            unfold Volume.file
            rw [here]
            exact there
          have stamped : Stamped v key file.modified file.modified := by
            refine ⟨rfl,?_⟩
            simp [Volume.file,first,← files,there]
          exact ih (Kept.record (kept.refault faults) found (kept.past i _ there) stamped) files others ran
      · exact ih kept files others ran
    · exact ih kept files others ran

theorem items_listed {name : FileName} {i : Inode} (member : (name,i) ∈ items v) : v.names.lookup name = some i := by
  obtain ⟨row,there,same⟩ := List.mem_map.mp member
  cases same
  exact lookup_iff_entry.mpr there

theorem new_kept {c : Server} {next : Inode} {faults : List Bool} (allocated : Allocated next v)
    (past : ∀ i f, v.files i = some f → f.modified ≤ now) (made : c.new v next faults = some s) : Kept (Stamped v) now s := by
  unfold Server.new at made
  split at made
  · cases made
  · split at made
    · cases made
    · rename_i t scanned
      have fresh : Kept (Stamped v) now (Store.fresh v next faults) := ⟨allocated,past,fun _ _ found => (by cases found)⟩
      have kept := scan_kept fresh rfl (fun key i member => ⟨items_listed member,items_listed member⟩) scanned
      split at made
      · rename_i u ended
        obtain ⟨⟨w,f,evicts,rfl⟩,_⟩ := Sections.gradle_evictLocked ended
        cases made
        exact (kept.evicts evicts).refault f
      · cases made

theorem Kept.near (kept : Kept (Stamped v) now s) : Kept Near now s where
  allocated := kept.allocated
  past := kept.past
  persisted := by
    intro key e found
    obtain ⟨before,f,file,same,_⟩ := kept.persisted key e found
    exact ⟨before,f,file,by unfold Near; omega⟩

end
/-! ### Runs -/

theorem removed_kept {related : String → Nat → Nat → Prop} {now : Nat} {s : Store Archive} {suffix : String}
    (kept : Kept related now s) : Kept related now (s.remove (.upload suffix)).1 := by
  obtain ⟨faults,failed | ⟨_,missing⟩ | ⟨i,_,gone⟩⟩ := remove_cases (.upload suffix) s
  · rw [failed]
    exact kept.refault faults
  · rw [missing]
    exact kept.refault faults
  · rw [gone]
    exact (kept.unlink (fun key wrong => (by cases wrong))).refault faults

theorem step_kept {c : Server} {s s' : Machine} {l : Label} (kept : Kept Near s.clock s.store) (timely : Timely s l)
    (moved : step c l s = some s') : Kept Near s'.clock s'.store := by
  cases l with
  | get key now faults =>
    simp only [step] at moved
    split at moved
    · rename_i passed
      cases moved
      refine Kept.get ((kept.later passed).refault faults) (fun e f known file opens => ?_)
      exact timely e f ⟨known,file,opens⟩
    · cases moved
  | put u now faults rollbackFails leaveFails =>
    simp only [step] at moved
    split at moved
    · rename_i passed
      obtain ⟨passed,written,_,_,_⟩ := passed
      cases moved
      have staging := (kept.later passed).stage faults written
      have published := staging.publishing (p := staged u now)
        (i := s.store.next) (f := ⟨.envelope none u.body,true,true,u.written⟩)
        (Sections.gradle_publishing (c := c) (show c.publish (staged u now) rollbackFails _ = _ from rfl))
        (by simp [staged,stage,Store.perform,Disk.perform,Volume.apply,Volume.alter,Change.apply,bindName])
        (fun key => (by simp [staged])) (by simp [stage,Store.perform,Disk.perform,Volume.apply]) (Nat.le_refl _) timely
      exact removed_kept (published.refault [leaveFails])
    · cases moved
  | restart faults =>
    obtain ⟨store,made,rfl⟩ := Option.map_eq_some_iff.mp moved
    exact (new_kept kept.allocated kept.past made).near

theorem run_kept {c : Server} {s₀ s : Machine} (start : Start c s₀) (reached : Reaches (step c) Timely s₀ s) :
    Kept Near s.clock s.store := by
  obtain ⟨v,next,faults,allocated,past,made⟩ := start
  exact reached.invariant (I := fun s => Kept Near s.clock s.store) (new_kept allocated past made).near
    (fun kept timely moved => step_kept kept timely moved)

/-- What a hit leaves of the file's time. -/
theorem hit_file {s : Machine} {key : String} {now : Nat} {faults : List Bool} {e : Entry Archive}
    {f : File (Contents Archive)} (hits : Hits s key faults e f) :
    (Server.get key now { s.store with faults }).1.volume.file (.entry key) =
      some (if 60 ≤ now - e.accessed then { f with modified := now } else f) := by
  obtain ⟨known,file,opens⟩ := hits
  obtain ⟨i,bound,there⟩ := Option.bind_eq_some_iff.mp file
  obtain ⟨later,failed | worked⟩ := fails_cases ({ s.store with faults } : Store Archive)
  · rw [failed] at opens
    cases opens
  · unfold Server.get
    simp only [known,worked,Store.volume]
    have found : s.store.disk.volume.names.lookup (Server.layout.filename key) = some i := bound
    have there : s.store.disk.volume.files i = some f := there
    simp only [found,Option.bind_some,there,Option.map_some]
    by_cases late : 60 ≤ now - e.accessed
    · rw [if_pos late,if_pos late]
      simp [Store.perform,Disk.perform,Volume.file,Volume.apply,Volume.setFile,there,
        show s.store.disk.volume.names.lookup (.entry key) = some i from bound]
    · rw [if_neg late,if_neg late]
      simp [Volume.file,there,show s.store.disk.volume.names.lookup (.entry key) = some i from bound]

/-- In a run that loses no access every entry's file is less than a minute behind, and
    so is what `New` restores; a hit is persisted to within a minute if and only if
    it comes a minute after the last access or within a minute of the file's time. -/
theorem access_persisted {c : Server} {s₀ s : Machine} (start : Start c s₀) (reached : Reaches (step c) Timely s₀ s) :
    Persisted s ∧
    (∀ faults s' key e e', step c (.restart faults) s = some s' → s.store.entries.lookup key = some e →
      s'.store.entries.lookup key = some e' → e.accessed < e'.accessed + 60) ∧
    (∀ key now faults e f s', Hits s key faults e f → step c (.get key now faults) s = some s' →
      ((∃ g, s'.store.volume.file (.entry key) = some g ∧ now < g.modified + 60) ↔
        60 ≤ now - e.accessed ∨ now < f.modified + 60)) := by
  have kept := run_kept start reached
  refine ⟨fun key e found => (kept.persisted key e found).2,?_,?_⟩
  · intro faults s' key e e' moved known restored
    obtain ⟨store,made,rfl⟩ := Option.map_eq_some_iff.mp moved
    obtain ⟨_,f,file,near⟩ := kept.persisted key e known
    obtain ⟨_,g,_,same,stamp⟩ := (new_kept kept.allocated kept.past made).persisted key e' restored
    rw [file] at stamp
    have time := Option.some.inj stamp
    unfold Near at near
    simp only at time
    omega
  · intro key now faults e f s' hits moved
    simp only [step] at moved
    split at moved
    · cases moved
      simp only [hit_file hits]
      by_cases late : 60 ≤ now - e.accessed
      · simp [late]
      · simp [late]
    · cases moved

/-- Whether a step loses no access. -/
def timely (s : Machine) : Label → Bool
  | .get key now _ => match s.store.entries.lookup key,s.store.volume.file (.entry key) with
    | some e,some f => decide (60 ≤ now - e.accessed ∨ now < f.modified + 60)
    | _,_ => true
  | .put u now _ _ _ => decide (now < u.written + 60)
  | .restart _ => true

theorem timely_sound (s : Machine) (l : Label) (checked : timely s l = true) : Timely s l := by
  cases l with
  | get key now faults =>
    rintro e f ⟨known,file,_⟩
    simp only [timely,known,file,decide_eq_true_eq] at checked
    exact checked
  | put u now faults rollbackFails leaveFails =>
    simp only [timely,decide_eq_true_eq] at checked
    exact checked
  | restart faults => trivial

def smallServer : Server := ⟨8,8⟩
/-- A server on an empty volume. -/
def booted : Machine := ⟨.fresh ⟨∅,fun _ => none,∅,[]⟩ 0 [],0⟩
def archiveKey : String := "00000000000000000000000000000000"
def archive : Upload := ⟨archiveKey,[1],"a",0⟩

theorem booted_start : Start smallServer booted :=
  ⟨⟨∅,fun _ => none,∅,[]⟩,0,[],fun _ _ bound => (by rcases bound with h | h | ⟨_,h,_⟩ <;> cases h),
    fun _ _ there => (by cases there),rfl⟩

/-- An archive is stored and fetched half a minute later. -/
def fetching : List Label := [.put archive 0 [] false false,.get archiveKey 30 []]

theorem access_persisted_fetching : ∃ s, Start smallServer booted ∧ Reaches (step smallServer) Timely booted s ∧
    (s.store.entries.lookup archiveKey).map (fun e => e.accessed) = some 30 ∧ Persisted s := by
  obtain ⟨s,reached,holds⟩ := reaches_of_run timely_sound
    (show (run (step smallServer) timely fetching booted).any (fun s =>
      (s.store.entries.lookup archiveKey).map (fun e => e.accessed) = some 30) = true by decide +kernel)
  exact ⟨s,booted_start,reached,of_decide_eq_true holds,(access_persisted booted_start reached).1⟩

/-- It is fetched again half a minute after that: the file is a whole minute behind,
    and so is what `New` restores. -/
theorem access_lost : ∃ s s' s'' e f g, Start smallServer booted ∧ Reaches (step smallServer) (fun _ _ => True) booted s ∧
    Hits s archiveKey [] e f ∧ step smallServer (.get archiveKey 60 []) s = some s' ∧
    s'.store.volume.file (.entry archiveKey) = some g ∧ ¬60 < g.modified + 60 ∧
    step smallServer (.restart []) s' = some s'' ∧
    (s'.store.entries.lookup archiveKey).map (fun e => e.accessed) = some 60 ∧
    (s''.store.entries.lookup archiveKey).map (fun e => e.accessed) = some 0 := by
  obtain ⟨s,reached,holds⟩ := reaches_of_run (fun _ _ _ => trivial)
    (show (run (step smallServer) (fun _ _ => true) fetching booted).any (fun s =>
      (s.store.entries.lookup archiveKey).isSome && (s.store.volume.file (.entry archiveKey)).isSome &&
      (step smallServer (.get archiveKey 60 []) s).any (fun s' =>
        (s'.store.volume.file (.entry archiveKey)).any (fun g => !decide (60 < g.modified + 60)) &&
        (s'.store.entries.lookup archiveKey).map (fun e => e.accessed) = some 60 &&
        (step smallServer (.restart []) s').any (fun s'' =>
          (s''.store.entries.lookup archiveKey).map (fun e => e.accessed) = some 0))) = true by decide +kernel)
  simp only [Bool.and_eq_true,Option.any_eq_true,Option.isSome_iff_exists,Bool.not_eq_true',decide_eq_false_iff_not,
    decide_eq_true_eq] at holds
  obtain ⟨⟨⟨e,known⟩,f,file⟩,s',moved,⟨⟨g,written,late⟩,now⟩,s'',again,zero⟩ := holds
  exact ⟨s,s',s'',e,f,g,booted_start,reached,⟨known,file,rfl⟩,moved,written,late,again,now,zero⟩

end Expbuild.Clocks
