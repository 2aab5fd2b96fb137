import Expbuild.Booting
import Expbuild.Sections

/-!
The four engines are lawful: a body that `put` lets through makes a file that
`readArtifact` accepts again, and `New` leaves a server whose accounts are right.
-/
namespace Expbuild.Laws
open Expbuild.Tables Expbuild.Disks Expbuild.Engines Expbuild.Stores Expbuild.Handlers Expbuild.Accounting
  Expbuild.Booting Expbuild.Sections

/-- The names that look like entries. -/
def entryName {A : Type} (n : FileName) (_ : File (Contents A)) : Prop := ∃ stem, n = .entry stem

section turbocache
variable {c : Turbocache.Server} {a : Turbocache.Artifact} {f : File (Contents Turbocache.Artifact)}

theorem turbo_read (read : c.readArtifact f = some a) : f.regular = true ∧ ∃ body, f.contents = .envelope (some a) body ∧
    Turbocache.validKey a.key = true ∧ a.size = body.length := by
  unfold Turbocache.Server.readArtifact at read
  split at read
  · rename_i a' body regular contents
    split at read
    · rename_i checks
      cases read
      simp only [Bool.and_eq_true,decide_eq_true_eq] at checks
      exact ⟨regular,body,contents,checks.1.1.1.1.1,checks.1.1.1.2⟩
    · cases read
  · cases read

/-- The bytes a file of Turborepo has to have. -/
def TurboGood (c : Turbocache.Server) (k : String) (a : Turbocache.Artifact) (contents : Contents Turbocache.Artifact) : Prop :=
  a.key = k ∧ a.size ≤ c.maxEntry ∧ ∀ f : File (Contents Turbocache.Artifact), f.regular = true → f.contents = contents →
    c.readArtifact f = some a

theorem turbo_charge {k : String} {contents : Contents Turbocache.Artifact} (good : TurboGood c k a contents) :
    c.layout.charge a = contents.size Turbocache.headerSize := by
  obtain ⟨_,_,reads⟩ := good
  obtain ⟨_,body,same,_,size⟩ := turbo_read (reads ⟨contents,true,true,0⟩ rfl rfl)
  simp only at same
  rw [same]
  simp only [Layout.charge,Turbocache.Server.layout,Contents.size,size]
  push_cast
  exact add_comm _ _

theorem turbo_finish {r : Put} {now : Nat} {a' : Turbocache.Artifact} {body : List UInt8}
    (valid : Turbocache.validKey r.key = true) (started : c.start r now = .ok a) (finished : c.finish r a body = .ok a') :
    TurboGood c r.key a' (.envelope (some a') body) ∧ a'.size ≤ c.maxEntry := by
  unfold Turbocache.Server.start at started
  unfold Turbocache.Server.finish at finished
  split at started
  · cases started
  split at started
  · cases started
  rename_i small
  split at started
  · cases started
  rename_i duration
  split at started
  · cases started
  rename_i metadata
  cases started
  split at finished
  · cases finished
  rename_i whole
  simp only at finished
  split at finished
  · cases finished
  cases finished
  have bounded : (body.length : Int) ≤ c.maxEntry := by omega
  refine ⟨⟨rfl,bounded,fun f regular contents => ?_⟩,bounded⟩
  simp only [List.any_eq_true,Bool.or_eq_true,decide_eq_true_eq,Bool.not_eq_true',not_exists,not_and,not_or] at metadata
  have safe : ∀ k ∈ Turbocache.Server.metadata, Turbocache.safeMetadata (r.get k) = true := by
    intro k member
    have checked := (metadata k member).2
    simpa using checked
  have parsed : (parseUint (r.get "x-artifact-duration")).isSome = true := by
    cases read : parseUint (r.get "x-artifact-duration") with
    | none => rw [read] at duration; simp at duration
    | some n => rfl
  simp only [Turbocache.Server.readArtifact,regular,contents]
  rw [if_pos]
  simp only [List.all_cons,List.all_nil,Bool.and_true,Bool.and_eq_true,decide_eq_true_eq]
  refine ⟨⟨⟨⟨⟨valid,by omega⟩,trivial⟩,parsed⟩,safe _ ?_,safe _ ?_,safe _ ?_⟩,trivial⟩ <;> simp [Turbocache.Server.metadata]

/-- The engine of Turborepo is lawful. -/
def turboLaw (c : Turbocache.Server) : Lawful c.engine where
  Good := TurboGood c
  Reads := fun a file => c.readArtifact file = some a
  Tracked := entryName
  replaces := false
  entry := fun _ => ⟨_,rfl⟩
  charge := turbo_charge
  publish := fun ran => (turbo_linking ran).publishing
  get := turbo_fetching
  finish := fun {_ now _ _ _} valid started finished => turbo_finish valid (show c.start _ now = _ from started) finished
  sequential := fun _ => rfl
  collides := nofun
  owned := nofun
  injective := nofun
  tracked := fun _ tracked => tracked
  untracked := nofun

/-- `New` accepts only limits that leave room for every entry, reads the directory
    and evicts into the budget. -/
theorem turbo_made {m : Mounted Turbocache.Artifact} {faults : List Bool} {s : Store Turbocache.Artifact}
    (made : c.new m.volume m.next faults = some s) :
    (0 < c.maxEntry ∧ c.maxEntry + Turbocache.headerSize ≤ c.maxTotal) ∧ ∃ read t later,
      scan c.layout (fun a => a.key) c.readArtifact (fun a => a.size ≤ c.maxEntry) (items m.volume)
        (.fresh m.volume m.next faults) = some read ∧
      Evicts c.layout (fun _ => false) read t ∧ t.used ≤ c.maxTotal ∧ s = { t with faults := later } := by
  unfold Turbocache.Server.new at made
  split at made
  · cases made
  rename_i limits
  simp only [Bool.or_eq_true,decide_eq_true_eq,not_or,not_le,not_lt] at limits
  split at made
  · cases made
  rename_i read scanned
  split at made
  · rename_i u ended
    obtain ⟨⟨t,later,evicts,rfl⟩,room,_⟩ := turbo_evictLocked ended
    cases made
    have within : t.used ≤ c.maxTotal := by simpa using room rfl
    exact ⟨by omega,read,t,later,scanned,evicts,within,rfl⟩
  · cases made

theorem turbo_new {m : Mounted Turbocache.Artifact} {faults : List Bool} {s : Store Turbocache.Artifact}
    (made : c.new m.volume m.next faults = some s) :
    (0 < c.maxEntry ∧ c.maxEntry + Turbocache.headerSize ≤ c.maxTotal) ∧ Booted (turboLaw c) s := by
  obtain ⟨limits,read,t,later,scanned,evicts,within,rfl⟩ := turbo_made made
  have fresh : Scanned (turboLaw c) (items m.volume) (.fresh m.volume m.next faults) := .fresh m faults
  have whole : Scanned (turboLaw c) [] read := by
    refine scan_scanned fresh scanned (fun found accepted => ?_)
    obtain ⟨regular,body,contents,valid,_⟩ := turbo_read found
    refine ⟨regular,valid,rfl,of_decide_eq_true accepted,fun g still same => ?_⟩
    rw [← found]
    simp only [Turbocache.Server.readArtifact,still,same,regular]
  exact ⟨limits,whole.booted evicts within⟩

end turbocache

section nxcache
variable {c : Nxcache.Server} {a : Nxcache.Artifact} {f : File (Contents Nxcache.Artifact)}

theorem nx_read (read : c.readArtifact f = some a) : f.regular = true ∧ ∃ body, f.contents = .envelope (some a) body ∧
    Nxcache.validKey a.key = true ∧ a.size = body.length := by
  unfold Nxcache.Server.readArtifact at read
  split at read
  · rename_i a' body regular contents
    split at read
    · rename_i checks
      cases read
      simp only [Bool.and_eq_true,decide_eq_true_eq] at checks
      exact ⟨regular,body,contents,checks.1.1.1,checks.1.2⟩
    · cases read
  · cases read

/-- The bytes a file of Nx has to have. -/
def NxGood (c : Nxcache.Server) (k : String) (a : Nxcache.Artifact) (contents : Contents Nxcache.Artifact) : Prop :=
  a.key = k ∧ a.size ≤ c.maxEntry ∧ ∀ f : File (Contents Nxcache.Artifact), f.regular = true → f.contents = contents →
    c.readArtifact f = some a

theorem nx_charge {k : String} {contents : Contents Nxcache.Artifact} (good : NxGood c k a contents) :
    c.layout.charge a = contents.size Nxcache.headerSize := by
  obtain ⟨_,_,reads⟩ := good
  obtain ⟨_,body,same,_,size⟩ := nx_read (reads ⟨contents,true,true,0⟩ rfl rfl)
  simp only at same
  rw [same]
  simp only [Layout.charge,Nxcache.Server.layout,Contents.size,size]
  push_cast
  exact add_comm _ _

theorem nx_finish {r : Put} {now : Nat} {a' : Nxcache.Artifact} {body : List UInt8}
    (valid : Nxcache.validKey r.key = true) (started : c.start r now = .ok a) (finished : c.finish r a body = .ok a') :
    NxGood c r.key a' (.envelope (some a') body) ∧ a'.size ≤ c.maxEntry := by
  unfold Nxcache.Server.start at started
  unfold Nxcache.Server.finish at finished
  split at started
  · cases started
  split at started
  · cases started
  rename_i small
  cases started
  split at finished
  · cases finished
  rename_i whole
  simp only at finished
  split at finished
  · cases finished
  cases finished
  have bounded : (body.length : Int) ≤ c.maxEntry := by omega
  refine ⟨⟨rfl,bounded,fun f regular contents => ?_⟩,bounded⟩
  simp only [Nxcache.Server.readArtifact,regular,contents]
  rw [if_pos]
  simp only [Bool.and_eq_true,decide_eq_true_eq]
  exact ⟨⟨⟨valid,by omega⟩,trivial⟩,trivial⟩

def nxLaw (c : Nxcache.Server) : Lawful c.engine where
  Good := NxGood c
  Reads := fun a file => c.readArtifact file = some a
  Tracked := entryName
  replaces := false
  entry := fun _ => ⟨_,rfl⟩
  charge := nx_charge
  publish := fun ran => (nx_linking ran).publishing
  get := nx_fetching
  finish := fun {_ now _ _ _} valid started finished => nx_finish valid (show c.start _ now = _ from started) finished
  sequential := fun _ => rfl
  collides := nofun
  owned := nofun
  injective := nofun
  tracked := fun _ tracked => tracked
  untracked := nofun

theorem nx_made {m : Mounted Nxcache.Artifact} {faults : List Bool} {s : Store Nxcache.Artifact}
    (made : c.new m.volume m.next faults = some s) :
    (0 < c.maxEntry ∧ c.maxEntry + Nxcache.headerSize ≤ c.maxTotal) ∧ ∃ read t later,
      scan c.layout (fun a => a.key) c.readArtifact (fun a => a.size ≤ c.maxEntry) (items m.volume)
        (.fresh m.volume m.next faults) = some read ∧
      Evicts c.layout (fun _ => false) read t ∧ t.used ≤ c.maxTotal ∧ s = { t with faults := later } := by
  unfold Nxcache.Server.new at made
  split at made
  · cases made
  rename_i limits
  simp only [Bool.or_eq_true,decide_eq_true_eq,not_or,not_le,not_lt] at limits
  split at made
  · cases made
  rename_i read scanned
  split at made
  · rename_i u ended
    obtain ⟨⟨t,later,evicts,rfl⟩,room,_⟩ := nx_evictLocked ended
    cases made
    have within : t.used ≤ c.maxTotal := by simpa using room rfl
    exact ⟨by omega,read,t,later,scanned,evicts,within,rfl⟩
  · cases made

theorem nx_new {m : Mounted Nxcache.Artifact} {faults : List Bool} {s : Store Nxcache.Artifact}
    (made : c.new m.volume m.next faults = some s) :
    (0 < c.maxEntry ∧ c.maxEntry + Nxcache.headerSize ≤ c.maxTotal) ∧ Booted (nxLaw c) s := by
  obtain ⟨limits,read,t,later,scanned,evicts,within,rfl⟩ := nx_made made
  have fresh : Scanned (nxLaw c) (items m.volume) (.fresh m.volume m.next faults) := .fresh m faults
  have whole : Scanned (nxLaw c) [] read := by
    refine scan_scanned fresh scanned (fun found accepted => ?_)
    obtain ⟨regular,body,contents,valid,_⟩ := nx_read found
    refine ⟨regular,valid,rfl,of_decide_eq_true accepted,fun g still same => ?_⟩
    rw [← found]
    simp only [Nxcache.Server.readArtifact,still,same,regular]
  exact ⟨limits,whole.booted evicts within⟩

end nxcache

section gocache
variable {c : Gocache.Server} {a : Gocache.Artifact} {f : File (Contents Gocache.Artifact)}

theorem go_read (read : c.readArtifact f = some a) : f.regular = true ∧ ∃ body, f.contents = .envelope (some a) body ∧
    Gocache.validKey a.key = true ∧ a.size = body.length := by
  unfold Gocache.Server.readArtifact at read
  split at read
  · rename_i a' body regular contents
    split at read
    · rename_i checks
      cases read
      simp only [Bool.and_eq_true,decide_eq_true_eq] at checks
      have valid := checks.1.1.1
      simp only [Gocache.validMetadata,Bool.and_eq_true] at valid
      exact ⟨regular,body,contents,valid.1.1.1.1.1.1,checks.1.2⟩
    · cases read
  · cases read

/-- The bytes a file of the Go cache has to have. -/
def GoGood (c : Gocache.Server) (k : String) (a : Gocache.Artifact) (contents : Contents Gocache.Artifact) : Prop :=
  a.key = k ∧ (a.size ≤ c.maxEntry ∧ a.uncompressedSize ≤ c.maxEntry) ∧ ∀ f : File (Contents Gocache.Artifact),
    f.regular = true → f.contents = contents → c.readArtifact f = some a

theorem go_charge {k : String} {contents : Contents Gocache.Artifact} (good : GoGood c k a contents) :
    c.layout.charge a = contents.size Gocache.headerSize := by
  obtain ⟨_,_,reads⟩ := good
  obtain ⟨_,body,same,_,size⟩ := go_read (reads ⟨contents,true,true,0⟩ rfl rfl)
  simp only at same
  rw [same]
  simp only [Layout.charge,Gocache.Server.layout,Contents.size,size]
  push_cast
  exact add_comm _ _

theorem go_finish {r : Put} {now : Nat} {a' : Gocache.Artifact} {body : List UInt8}
    (started : c.start r now = .ok a) (finished : c.finish r a body = .ok a') :
    GoGood c r.key a' (.envelope (some a') body) ∧ a'.size ≤ c.maxEntry := by
  unfold Gocache.Server.start at started
  unfold Gocache.Server.finish at finished
  split at started
  · cases started
  split at started
  · cases started
  split at started
  · cases started
  rename_i small
  split at started
  · cases started
  split at started
  · cases started
  rename_i uncompressed _
  simp only at started
  split at started
  · cases started
  rename_i metadata
  split at started
  · cases started
  rename_i expanded
  split at started
  · cases started
  cases started
  split at finished
  · cases finished
  rename_i whole
  simp only at finished
  split at finished
  · cases finished
  rename_i sums
  split at finished
  · cases finished
  cases finished
  have same : (body.length : Int) = r.contentLength := by omega
  have bounded : (body.length : Int) ≤ c.maxEntry := by omega
  refine ⟨⟨rfl,⟨bounded,by simpa using expanded⟩,fun f regular contents => ?_⟩,bounded⟩
  have checked : r.get "X-Cacheprog-Sha256Sum" = c.sha256 body := by
    by_contra wrong
    exact sums (.inl wrong)
  simp only [Gocache.Server.readArtifact,regular,contents]
  rw [if_pos]
  simp only [Bool.and_eq_true,decide_eq_true_eq]
  refine ⟨⟨⟨?_,by omega⟩,trivial⟩,checked.symm⟩
  rw [same]
  simpa using metadata

/-- No two keys have one digest. -/
def CollisionFree (c : Gocache.Server) : Prop := ∀ {k j}, Gocache.validKey k = true → Gocache.validKey j = true →
  c.sha256 k.toUTF8.toList = c.sha256 j.toUTF8.toList → k = j

def goLaw (c : Gocache.Server) (free : CollisionFree c) : Lawful c.engine where
  Good := GoGood c
  Reads := fun a file => c.readArtifact file = some a
  Tracked := entryName
  replaces := true
  entry := fun _ => ⟨_,rfl⟩
  charge := go_charge
  publish := go_publishing
  get := go_fetching
  finish := fun _ => go_finish
  sequential := nofun
  collides := fun _ _ _ first second same => free first second (FileName.entry.inj same)
  owned := fun _ => rfl
  injective := nofun
  tracked := fun _ tracked => tracked
  untracked := nofun

theorem go_made {m : Mounted Gocache.Artifact} {faults : List Bool} {s : Store Gocache.Artifact}
    (made : c.new m.volume m.next faults = some s) :
    (0 < c.maxEntry ∧ c.maxEntry + Gocache.headerSize ≤ c.maxTotal) ∧ ∃ read t later,
      scan c.layout (fun a => a.key) c.readArtifact (fun a => a.size ≤ c.maxEntry && a.uncompressedSize ≤ c.maxEntry) (items m.volume)
        (.fresh m.volume m.next faults) = some read ∧
      Evicts c.layout (fun k => decide (some k = none)) read t ∧ t.used ≤ c.maxTotal ∧ s = { t with faults := later } := by
  unfold Gocache.Server.new at made
  split at made
  · cases made
  rename_i limits
  simp only [Bool.or_eq_true,decide_eq_true_eq,not_or,not_le,not_lt] at limits
  split at made
  · cases made
  rename_i read scanned
  split at made
  · rename_i u ended
    obtain ⟨⟨t,later,evicts,rfl⟩,room,_⟩ := go_evictLocked ended
    cases made
    have within : t.used ≤ c.maxTotal := by simpa using (room rfl).1
    exact ⟨by omega,read,t,later,scanned,evicts,within,rfl⟩
  · cases made

theorem go_new {m : Mounted Gocache.Artifact} {faults : List Bool} {s : Store Gocache.Artifact} (free : CollisionFree c)
    (made : c.new m.volume m.next faults = some s) :
    (0 < c.maxEntry ∧ c.maxEntry + Gocache.headerSize ≤ c.maxTotal) ∧ Booted (goLaw c free) s := by
  obtain ⟨limits,read,t,later,scanned,evicts,within,rfl⟩ := go_made made
  have fresh : Scanned (goLaw c free) (items m.volume) (.fresh m.volume m.next faults) := .fresh m faults
  have whole : Scanned (goLaw c free) [] read := by
    refine scan_scanned fresh scanned (fun found accepted => ?_)
    obtain ⟨regular,body,contents,valid,_⟩ := go_read found
    refine ⟨regular,valid,rfl,by simpa using accepted,fun g still same => ?_⟩
    rw [← found]
    simp only [Gocache.Server.readArtifact,still,same,regular]
  exact ⟨limits,whole.booted evicts within⟩

end gocache

section gradlecache
variable {c : Gradlecache.Server}

/-- The archives that others leave in the directory do not count. -/
def gradleTracked (n : FileName) (f : File (Contents Gradlecache.Archive)) : Prop :=
  ∃ key, n = .entry key ∧ Gradlecache.validKey key = true ∧ f.regular = true

def gradleLaw (c : Gradlecache.Server) : Lawful c.engine where
  Good := fun _ a contents => a.size = contents.size 0
  Reads := fun _ _ => True
  Tracked := gradleTracked
  replaces := false
  entry := fun _ => ⟨_,rfl⟩
  charge := by
    intro k a contents good
    simp only [Layout.charge,Gradlecache.Server.engine,Gradlecache.Server.layout,good]
    simp
  publish := gradle_publishing
  get := gradle_fetching
  finish := by
    intro r now a body a' _ _ finished
    have finished : c.finish r a body = .ok a' := finished
    unfold Gradlecache.Server.finish at finished
    split at finished
    · cases finished
    · rename_i small
      cases finished
      exact ⟨by simp [Contents.size],not_lt.mp small⟩
  sequential := fun _ => rfl
  collides := nofun
  owned := nofun
  injective := fun _ _ _ same => FileName.entry.inj same
  tracked := fun same ⟨key,named,valid,regular⟩ => ⟨key,named,valid,same.regular.symm.trans regular⟩
  untracked := fun ⟨_,named,_⟩ => by cases named

/-- The loop of Gradle, which passes over what it does not know. -/
theorem gradle_scanned {rest : List (FileName × Inode)} {s s' : Store Gradlecache.Archive}
    (scanned : Scanned (gradleLaw c) rest s) (ran : Gradlecache.Server.scan rest s = some s') :
    Scanned (gradleLaw c) [] s' := by
  induction rest generalizing s with
  | nil =>
    simp only [Gradlecache.Server.scan] at ran
    cases ran
    exact scanned
  | cons item rest ih =>
    obtain ⟨name,i⟩ := item
    simp only [Gradlecache.Server.scan] at ran
    split at ran
    · rename_i file suffix there
      split at ran
      · split at ran
        · rename_i t removed
          obtain ⟨faults,failed | ⟨_,missing⟩ | ⟨j,_,gone⟩⟩ := remove_cases (.upload suffix) s
          · rw [failed] at removed; exact absurd (congrArg Prod.snd removed) (by simp)
          · rw [missing] at removed; exact absurd (congrArg Prod.snd removed) (by simp)
          · rw [gone] at removed
            obtain ⟨rfl,_⟩ := Prod.mk.inj removed
            exact ih ((scanned.removed ⟨suffix,rfl⟩).refault faults) ran
        · cases ran
      · exact ih (scanned.passed (fun _ _ tracked => (gradleLaw c).untracked tracked)) ran
    · rename_i file key there
      split at ran
      · rename_i known
        simp only [Bool.and_eq_true] at known
        obtain ⟨faults,failed | worked⟩ := fails_cases s
        · rw [failed] at ran
          cases ran
        · rw [worked] at ran
          have good : (gradleLaw c).Good key ⟨file.contents.size 0⟩ file.contents := rfl
          have recorded := (scanned.refault faults).recorded (e := ⟨⟨file.contents.size 0⟩,file.modified⟩) rfl there known.2
            known.1 good
          exact ih recorded ran
      · rename_i unknown
        refine ih (scanned.passed (fun f found tracked => ?_)) ran
        obtain ⟨key',named,valid,regular⟩ := tracked
        cases named
        rw [there] at found
        cases found
        exact unknown (by rw [valid,regular]; rfl)
    · rename_i odd
      refine ih (scanned.passed (fun f found tracked => ?_)) ran
      obtain ⟨key,rfl,_⟩ := tracked
      exact odd f key found rfl

theorem gradle_new {m : Mounted Gradlecache.Archive} {faults : List Bool} {s : Store Gradlecache.Archive}
    (made : c.new m.volume m.next faults = some s) :
    (0 < c.maxEntry ∧ c.maxEntry ≤ c.maxTotal) ∧ Booted (gradleLaw c) s := by
  unfold Gradlecache.Server.new at made
  split at made
  · cases made
  rename_i limits
  simp only [Bool.or_eq_true,decide_eq_true_eq,not_or,not_le,not_lt] at limits
  split at made
  · cases made
  rename_i t scanned
  have whole : Scanned (gradleLaw c) [] t := gradle_scanned (.fresh m faults) scanned
  split at made
  · rename_i u ended
    obtain ⟨⟨t',f,evicts,rfl⟩,room,_⟩ := gradle_evictLocked ended
    cases made
    exact ⟨by omega,whole.booted evicts (room rfl)⟩
  · cases made

end gradlecache
end Expbuild.Laws
