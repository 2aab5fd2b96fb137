import Expbuild.Capacity

/-!
Publication is atomic. Between any steps of any requests a key has one published
envelope at most, which is the one every reader gets; what New found when it
started counts as published before.
-/
namespace Expbuild.Atomicity
open Expbuild.Tables Expbuild.Disks Expbuild.Engines Expbuild.Stores Expbuild.Handlers Expbuild.Accounting Expbuild.Passages
  Expbuild.Histories Expbuild.Booting Expbuild.Sections Expbuild.Laws Expbuild.Capacity

section
variable {A : Type} {E : Engine A}

/-- What the log of a run shows about its publications and its readers; `before`
    is the log of the server when it started, `puts` are the uploads completed since. -/
structure Atomic (E : Engine A) (replaces : Bool) (before : List (Event A)) (s : System A) (puts : List (Upload A)) : Prop where
  completed : ∀ k a contents, .published k a contents ∈ s.store.log →
    .published k a contents ∈ before ∨ (⟨k,a,contents⟩ : Upload A) ∈ puts
  whole : ∀ u ∈ puts, Complete E u
  /-- A key is published only where it is absent. -/
  once : replaces = false → ∀ later k a contents earlier,
    s.store.log = later ++ .published k a contents :: earlier → latest k earlier = none
  /-- What a reader opens was published last and not dropped since. -/
  opened : ∀ later t k a contents earlier,
    s.store.log = later ++ .opened t k a contents :: earlier → latest k earlier = some (a,contents)
  /-- What a reader is sent is what it opened. -/
  served : ∀ later t k a contents earlier,
    s.store.log = later ++ .served t k a contents :: earlier → .opened t k a contents ∈ earlier
  /-- A key that is published can be opened where no call fails. -/
  available : ∀ t k a contents now, latest k s.store.log = some (a,contents) → s.threads.lookup t = some (.asked k) →
    s.mu = none → ∃ s', step E (.fetch t now []) s = some s' ∧ s'.store.log = .opened t k a contents :: s.store.log

/-- A PUT of a key that is there changes nothing. -/
def Refuses (E : Engine A) (status : A → A → Nat) (s : System A) : Prop :=
  ∀ t p i old faults rollbackFails, s.threads.lookup t = some (.staged p i) → s.mu = none →
    s.store.entries.lookup p.key = some old → ∃ s', step E (.publish t faults rollbackFails) s = some s' ∧
      s'.store = s.enter faults ∧ s'.threads.lookup t = some (.leaving p.tmp i (status old.artifact p.artifact))

theorem Disciplined.split {replaces : Bool} {later earlier : List (Event A)} {event : Event A}
    (disciplined : Disciplined replaces (later ++ event :: earlier)) : Disciplined replaces (event :: earlier) := by
  induction later with
  | nil => exact disciplined
  | cons first rest ih =>
    cases first with
    | published k a contents => exact ih disciplined.2
    | dropped k => exact ih disciplined
    | opened t k a contents => exact ih disciplined.2
    | served t k a contents => exact ih disciplined.2

/-- What is published last was published. -/
theorem latest_mem {k : String} {a : A} {contents : Contents A} {log : List (Event A)}
    (told : latest k log = some (a,contents)) : .published k a contents ∈ log := by
  induction log with
  | nil => cases told
  | cons event rest ih =>
    cases event with
    | published key a' contents' =>
      simp only [latest] at told
      split at told
      · rename_i same
        cases told
        rw [same]
        exact List.mem_cons_self
      · exact List.mem_cons_of_mem _ (ih told)
    | dropped key =>
      simp only [latest] at told
      split at told
      · cases told
      · exact List.mem_cons_of_mem _ (ih told)
    | opened t key a' contents' => exact List.mem_cons_of_mem _ (ih told)
    | served t key a' contents' => exact List.mem_cons_of_mem _ (ih told)

/-- What is published last was published since, or last before. -/
theorem latest_append {k : String} {a : A} {contents : Contents A} {middle log : List (Event A)}
    (told : latest k (middle ++ log) = some (a,contents)) :
    .published k a contents ∈ middle ∨ latest k log = some (a,contents) := by
  induction middle with
  | nil => exact .inr told
  | cons event rest ih =>
    have add : .published k a contents ∈ rest ∨ latest k log = some (a,contents) →
        .published k a contents ∈ event :: rest ∨ latest k log = some (a,contents) :=
      Or.imp_left (fun member => List.mem_cons_of_mem _ member)
    cases event with
    | published key a' contents' =>
      simp only [List.cons_append,latest] at told
      split at told
      · rename_i same
        cases told
        rw [same]
        exact .inl List.mem_cons_self
      · exact add (ih told)
    | dropped key =>
      simp only [List.cons_append,latest] at told
      split at told
      · cases told
      · exact add (ih told)
    | opened t key a' contents' => exact add (ih told)
    | served t key a' contents' => exact add (ih told)

section
variable (law : Lawful E)

/-- The invariant of a run. -/
structure Sound (before : List (Event A)) (s : System A) (puts : List (Upload A)) : Prop where
  tidy : Tidy law s
  balanced : Balanced law s
  told : Told law before s puts

/-- A reader of an entry whose file is good opens it, where no call fails. -/
def Opens : Prop := ∀ key now s e i f, s.faults = [] → s.entries.lookup key = some e →
  s.volume.names.lookup (E.layout.filename key) = some i → s.volume.files i = some f → f.regular = true →
  law.Good key e.artifact f.contents → ∃ store, E.get key now s = (store,.opened i e.artifact f.contents) ∧ store.log = s.log

end

variable {law : Lawful E} {s : System A} {puts : List (Upload A)} {store : Store A}

theorem sound_run (booted : Booted law store) (ran : Run E (.boot store) s puts) : Sound law store.log s puts := by
  induction ran with
  | refl => exact ⟨booted.tidy,booted.balanced,booted.told⟩
  | tail _ moved ih =>
    have stepped := step_stepped moved
    exact ⟨ih.tidy.step stepped,ih.balanced.step ih.tidy stepped,ih.told.step ih.tidy ih.balanced stepped⟩

theorem Sound.available (sound : Sound law store.log s puts) (opens : Opens law) {t : Nat} {k : String} {a : A}
    {contents : Contents A} (now : Nat) (published : latest k s.store.log = some (a,contents))
    (asked : s.threads.lookup t = some (.asked k)) (free : s.mu = none) :
    ∃ s', step E (.fetch t now []) s = some s' ∧ s'.store.log = .opened t k a contents :: s.store.log := by
  have mirrored := sound.told.mirror k
  cases found : s.store.entries.lookup k with
  | none =>
    rw [mirrored.absent found] at published
    cases published
  | some e =>
    cases bound : s.store.volume.names.lookup (E.layout.filename k) with
    | none =>
      rw [mirrored.gone bound] at published
      cases published
    | some i =>
      obtain ⟨f,file,regular,told⟩ := mirrored.present found bound
      rw [published] at told
      cases told
      have good : law.Good k e.artifact f.contents := by
        rcases sound.balanced.kept.filed found with away | ⟨j,g,bound',file',good⟩
        · rw [sound.balanced.kept.gone k away] at bound
          cases bound
        · rw [bound] at bound'
          cases bound'
          rw [file] at file'
          cases file'
          exact good
      obtain ⟨store',ran,log⟩ := opens k now (s.enter []) e i f rfl found bound file regular good
      simp only [step,asked,free]
      rw [ran]
      refine ⟨_,rfl,?_⟩
      simp only [log]
      rfl

theorem Sound.atomic (sound : Sound law store.log s puts) (opens : Opens law) : Atomic E law.replaces store.log s puts where
  completed := fun _ _ _ member => sound.told.published member
  whole := sound.told.complete
  once := by
    intro replaces later k a contents earlier log
    have disciplined := sound.told.disciplined
    rw [log] at disciplined
    exact (Disciplined.split disciplined).1 replaces
  opened := by
    intro later t k a contents earlier log
    have disciplined := sound.told.disciplined
    rw [log] at disciplined
    exact (Disciplined.split disciplined).1
  served := by
    intro later t k a contents earlier log
    have disciplined := sound.told.disciplined
    rw [log] at disciplined
    exact (Disciplined.split disciplined).1
  available := fun _ _ _ _ now published asked free => sound.available opens now published asked free

/-- The readers of the engines whose files carry a header. -/
theorem getEntry_opens {readArtifact : File (Contents A) → Option A} {sameArtifact : A → A → Bool} {L : Layout A}
    {key : String} {now : Nat} {s : Store A} {e : Entry A} {i : Inode} {f : File (Contents A)} (calm : s.faults = [])
    (found : s.entries.lookup key = some e) (bound : s.volume.names.lookup (L.filename key) = some i)
    (file : s.volume.files i = some f) (read : readArtifact f = some e.artifact)
    (same : sameArtifact e.artifact e.artifact = true) :
    ∃ store, getEntry L readArtifact sameArtifact key now s = (store,.opened i e.artifact f.contents) ∧ store.log = s.log := by
  have works : s.fails = (s,false) := by simp [Store.fails,calm]
  simp only [getEntry,openFile,found,works,bound,file,read,Option.map_some,same,if_true]
  exact ⟨_,rfl,rfl⟩

/-- A PUT of a key that is there, in the engines with a header that do not replace it. -/
theorem addEntry_refuses {evictLocked : Int → Store A → Store A × Evicted} {duplicate : A → A → Nat} {L : Layout A}
    (publishes : E.publish = addEntry L evictLocked duplicate) (s : System A) : Refuses E duplicate s := by
  intro t p i old faults rollbackFails found free there
  have there : (s.enter faults).entries.lookup p.key = some old := there
  simp only [step,found,free,publishes,addEntry,there]
  exact ⟨_,rfl,rfl,by simp [System.setPhase]⟩

/-- Once a PUT has published, readers get its envelope or a later one. -/
def Newest (E : Engine A) (s : System A) : Prop :=
  ∀ t p i faults rollbackFails status s₂, s.threads.lookup t = some (.staged p i) →
    step E (.publish t faults rollbackFails) s = some s₂ → s₂.threads.lookup t = some (.leaving p.tmp i status) →
    status = 200 → ∀ s₃ puts later t' a contents middle, Run E s₂ s₃ puts →
      s₃.store.log = later ++ .opened t' p.key a contents :: middle ++ s₂.store.log →
      .published p.key a contents ∈ middle ∨ (a = p.artifact ∧ contents = p.contents)

end

section
variable {A : Type} {E : Engine A} {law : Lawful E} {store : Store A}

theorem Run.trans {start s₂ s₃ : System A} {first second : List (Upload A)} (ran : Run E start s₂ first)
    (more : Run E s₂ s₃ second) : Run E start s₃ (second ++ first) := by
  induction more with
  | refl => exact ran
  | tail _ moved ih =>
    rw [List.append_assoc]
    exact .tail ih moved

/-- What the publishing step of a request does. -/
theorem publish_moved {s s' : System A} {t : Nat} {p : Staged A} {i : Inode} {faults : List Bool} {rollbackFails : Bool}
    (found : s.threads.lookup t = some (.staged p i)) (moved : step E (.publish t faults rollbackFails) s = some s') :
    ∃ status, E.publish p rollbackFails (s.enter faults) = (s'.store,status) ∧
      s'.threads.lookup t = some (.leaving p.tmp i status) := by
  cases free : s.mu with
  | some reader => simp [step,found,free] at moved
  | none =>
    simp only [step,found,free,Option.some.injEq] at moved
    subst moved
    exact ⟨_,rfl,by simp [System.setPhase]⟩

/-- A publication that is told last is the one that readers get from then on. -/
theorem newest_run {s : System A} {puts : List (Upload A)} (booted : Booted law store) (ran : Run E (.boot store) s puts)
    (acknowledged : ∀ {p rollbackFails store store'}, E.publish p rollbackFails store = (store',200) →
      ∃ rest, store'.log = .published p.key p.artifact p.contents :: rest) : Newest E s := by
  intro t p i faults rollbackFails status s₂ found moved ended done s₃ more later t' a contents middle ran₃ log
  subst done
  have sound := sound_run booted (Run.trans (.tail ran moved) ran₃)
  have disciplined := sound.told.disciplined
  rw [log,List.append_assoc] at disciplined
  have told := (Disciplined.split disciplined).1
  rcases latest_append told with since | first
  · exact .inl since
  · right
    obtain ⟨status,published,answered⟩ := publish_moved found moved
    rw [ended] at answered
    cases answered
    obtain ⟨rest,head⟩ := acknowledged published
    rw [head,latest_published] at first
    simp only [Option.some.injEq,Prod.mk.injEq] at first
    exact ⟨first.1.symm,first.2.symm⟩

end

section turbocache
variable {c : Turbocache.Server} {s : System Turbocache.Artifact} {puts : List (Upload Turbocache.Artifact)}

theorem turbo_opens : Opens (turboLaw c) := by
  intro key now s e i f calm found bound file regular good
  exact getEntry_opens calm found bound file (good.2.2 f regular rfl) (by simp [Turbocache.Server.sameArtifact])

theorem turbo_atomic {m : Mounted Turbocache.Artifact} {faults : List Bool} {store : Store Turbocache.Artifact}
    (made : c.new m.volume m.next faults = some store) (ran : Run c.engine (.boot store) s puts) :
    Atomic c.engine false store.log s puts ∧ Refuses c.engine Turbocache.Server.duplicate s :=
  ⟨(sound_run (turbo_new made).2 ran).atomic turbo_opens,addEntry_refuses rfl s⟩

end turbocache

section nxcache
variable {c : Nxcache.Server} {s : System Nxcache.Artifact} {puts : List (Upload Nxcache.Artifact)}

theorem nx_opens : Opens (nxLaw c) := by
  intro key now s e i f calm found bound file regular good
  exact getEntry_opens calm found bound file (good.2.2 f regular rfl) (by simp [Nxcache.Server.sameArtifact])

/-- Nx refuses a key that is there before it takes a body. -/
def Declines (c : Nxcache.Server) (s : System Nxcache.Artifact) : Prop :=
  ∀ t r a suffix now faults old, s.threads.lookup t = some (.admitted r a) → s.mu = none →
    s.store.entries.lookup r.key = some old → ∃ s', step c.engine (.create t suffix now faults) s = some s' ∧
      s'.store = s.store ∧ s'.threads.lookup t = some (.releasing 409)

theorem nx_declines (c : Nxcache.Server) (s : System Nxcache.Artifact) : Declines c s := by
  intro t r a suffix now faults old found free there
  simp only [step,found,free,there,Nxcache.Server.engine]
  exact ⟨_,rfl,rfl,by simp [System.setPhase]⟩

theorem nx_atomic {m : Mounted Nxcache.Artifact} {faults : List Bool} {store : Store Nxcache.Artifact}
    (made : c.new m.volume m.next faults = some store) (ran : Run c.engine (.boot store) s puts) :
    Atomic c.engine false store.log s puts ∧ Refuses c.engine (fun _ _ => 409) s ∧ Declines c s :=
  ⟨(sound_run (nx_new made).2 ran).atomic nx_opens,addEntry_refuses rfl s,nx_declines c s⟩

end nxcache

section gradlecache
variable {c : Gradlecache.Server} {s : System Gradlecache.Archive} {puts : List (Upload Gradlecache.Archive)}

theorem gradle_opens : Opens (gradleLaw c) := by
  intro key now s e i f calm found bound file regular good
  have works : s.fails = (s,false) := by simp [Store.fails,calm]
  have there : (s.volume.names.lookup (Gradlecache.Server.layout.filename key)).bind
      (fun i => (s.volume.files i).map (fun f => (i,f))) = some (i,f) := by
    have bound : s.volume.names.lookup (Gradlecache.Server.layout.filename key) = some i := bound
    simp [bound,file]
  change ∃ store, Gradlecache.Server.get key now s = _ ∧ _
  simp only [Gradlecache.Server.get,found,works,there]
  split
  · exact ⟨_,rfl,rfl⟩
  · exact ⟨_,rfl,rfl⟩

theorem gradle_refuses (s : System Gradlecache.Archive) : Refuses c.engine (fun _ _ => 409) s := by
  intro t p i old faults rollbackFails found free there
  have there : (s.enter faults).entries.lookup p.key = some old := there
  simp only [step,found,free,Gradlecache.Server.engine,Gradlecache.Server.publish,there]
  exact ⟨_,rfl,rfl,by simp [System.setPhase]⟩

theorem gradle_atomic {m : Mounted Gradlecache.Archive} {faults : List Bool} {store : Store Gradlecache.Archive}
    (made : c.new m.volume m.next faults = some store) (ran : Run c.engine (.boot store) s puts) :
    Atomic c.engine false store.log s puts ∧ Refuses c.engine (fun _ _ => 409) s :=
  ⟨(sound_run (gradle_new made).2 ran).atomic gradle_opens,gradle_refuses s⟩

end gradlecache

section gocache
variable {c : Gocache.Server} {s : System Gocache.Artifact} {puts : List (Upload Gocache.Artifact)}

theorem go_opens {free : CollisionFree c} : Opens (goLaw c free) := by
  intro key now s e i f calm found bound file regular good
  exact getEntry_opens calm found bound file (good.2.2 f regular rfl) (by simp [Gocache.Server.sameArtifact])

/-- A PUT that does not rename its envelope is refused, and the key stays as it was. -/
def Keeps (c : Gocache.Server) (s : System Gocache.Artifact) : Prop :=
  ∀ t p i faults rollbackFails s', s.threads.lookup t = some (.staged p i) →
    step c.engine (.publish t faults rollbackFails) s = some s' →
    (∃ rest, s'.store.log = .published p.key p.artifact p.contents :: rest) ∨
    (s'.threads.lookup t = some (.leaving p.tmp i 503) ∧
      s'.store.entries.lookup p.key = s.store.entries.lookup p.key ∧
      s'.store.volume.file (c.filename p.key) = s.store.volume.file (c.filename p.key) ∧
      latest p.key s'.store.log = latest p.key s.store.log)

/-- What a publication of the Go cache answers; it acknowledges what it has
    synchronised. -/
theorem go_answers {p : Staged Gocache.Artifact} {rollbackFails : Bool} {s s' : Store Gocache.Artifact} {status : Nat}
    (ran : c.engine.publish p rollbackFails s = (s',status)) :
    ((∃ rest, s'.log = .published p.key p.artifact p.contents :: rest) ∧
      (status = 200 → s'.volume.durable = s'.volume.names ∧ s'.volume.pending = [])) ∨
    (status = 503 ∧ ∃ t faults, Evicts c.layout (fun k => decide (k = p.key)) s t ∧ s' = { t with faults }) := by
  change c.publish p rollbackFails s = _ at ran
  simp only [Gocache.Server.publish] at ran
  generalize c.incoming p.key p.artifact s = extra at ran
  cases evicted : c.evictLocked extra (some p.key) (s.entries.lookup p.key).isNone s with
  | mk out r =>
    rw [evicted] at ran
    obtain ⟨⟨t,faults,evicts,rfl⟩,_⟩ := go_evictLocked evicted
    have apart : Evicts c.layout (fun k => decide (k = p.key)) s t := by simpa using evicts
    cases r with
    | failed =>
      obtain ⟨rfl,rfl⟩ := Prod.mk.inj ran
      exact .inr ⟨rfl,t,faults,apart,rfl⟩
    | exceeded =>
      obtain ⟨rfl,rfl⟩ := Prod.mk.inj ran
      exact .inr ⟨rfl,t,faults,apart,rfl⟩
    | ok =>
      simp only at ran
      obtain ⟨f,failed | ⟨i,tmp,renamed⟩⟩ := rename_cases p.tmp (c.filename p.key) { t with faults }
      · rw [failed] at ran
        obtain ⟨rfl,rfl⟩ := Prod.mk.inj ran
        exact .inr ⟨rfl,t,f,apart,rfl⟩
      · rw [renamed] at ran
        simp only at ran
        generalize built : Store.record c.layout p.key _ p.contents _ = u at ran
        obtain ⟨g,unsynced | synced⟩ := syncRoot_cases u
        · rw [unsynced] at ran
          obtain ⟨rfl,rfl⟩ := Prod.mk.inj ran
          subst built
          exact .inl ⟨⟨_,rfl⟩,nofun⟩
        · rw [synced] at ran
          obtain ⟨rfl,rfl⟩ := Prod.mk.inj ran
          subst built
          exact .inl ⟨⟨_,rfl⟩,fun _ => ⟨rfl,rfl⟩⟩

/-- Evictions of other keys leave the file of a key alone. -/
theorem go_evicts_file {free : CollisionFree c} {vanished : List String} {s t : Store Gocache.Artifact} {key : String}
    (kept : Kept (goLaw c free) vanished s.entries s.used s.volume) (valid : Gocache.validKey key = true)
    (evicts : Evicts c.layout (fun k => decide (k = key)) s t) :
    t.volume.file (c.filename key) = s.volume.file (c.filename key) ∧ latest key t.log = latest key s.log := by
  have all : Kept (goLaw c free) vanished t.entries t.used t.volume ∧
      t.volume.file (c.filename key) = s.volume.file (c.filename key) ∧ latest key t.log = latest key s.log := by
    refine evicts.invariant (I := fun t => Kept (goLaw c free) vanished t.entries t.used t.volume ∧
      t.volume.file (c.filename key) = s.volume.file (c.filename key) ∧ latest key t.log = latest key s.log)
      ⟨kept,rfl,rfl⟩ ?_
    rintro t k e ⟨kept,file,told⟩ found other
    have different : key ≠ k := by
      rintro rfl
      simp at other
    refine ⟨kept.dropKey found,?_,by rw [dropKey_log,latest_dropped_other different,told]⟩
    rcases dropKey_volume c.layout k t with unlinked | ⟨_,same⟩
    · have passes : (Op.unlink (c.layout.filename k) : Op FileName (Contents Gocache.Artifact)).Passes (c.filename key) := by
        intro same
        exact different (free valid (kept.valid found) (FileName.entry.inj same.symm))
      rw [unlinked,← file]
      simp only [Volume.file]
      rw [names_apply passes]
      rfl
    · rw [same,file]
  exact all.2

theorem go_keeps {free : CollisionFree c} {before : List (Event Gocache.Artifact)} (sound : Sound (goLaw c free) before s puts) :
    Keeps c s := by
  intro t p i faults rollbackFails s' found moved
  obtain ⟨_,valid,_⟩ := sound.tidy.sound found
  obtain ⟨status,ran,ended⟩ := publish_moved found moved
  rcases go_answers ran with ⟨published,_⟩ | ⟨rfl,u,later,evicts,same⟩
  · exact .inl published
  · obtain ⟨file,told⟩ := go_evicts_file (s := s.enter faults) sound.balanced.kept valid evicts
    have entry : u.entries.lookup p.key = s.store.entries.lookup p.key := evicts.kept (by simp)
    rw [same]
    exact .inr ⟨ended,entry,file,told⟩

theorem go_atomic {m : Mounted Gocache.Artifact} {faults : List Bool} {store : Store Gocache.Artifact} (free : CollisionFree c)
    (made : c.new m.volume m.next faults = some store) (ran : Run c.engine (.boot store) s puts) :
    Atomic c.engine true store.log s puts ∧ Keeps c s ∧ Newest c.engine s := by
  have booted := (go_new free made).2
  have sound := sound_run booted ran
  refine ⟨sound.atomic go_opens,go_keeps sound,newest_run booted ran (fun ended => ?_)⟩
  rcases go_answers ended with ⟨published,_⟩ | ⟨never,_⟩
  · exact published
  · cases never

end gocache

/-- The publications of the four servers are atomic in every run. -/
theorem publications_atomic :
    (∀ (c : Nxcache.Server) (m : Mounted Nxcache.Artifact) faults store s puts,
      c.new m.volume m.next faults = some store → Run c.engine (.boot store) s puts →
      Atomic c.engine false store.log s puts ∧ Refuses c.engine (fun _ _ => 409) s ∧ Declines c s) ∧
    (∀ (c : Gradlecache.Server) (m : Mounted Gradlecache.Archive) faults store s puts,
      c.new m.volume m.next faults = some store → Run c.engine (.boot store) s puts →
      Atomic c.engine false store.log s puts ∧ Refuses c.engine (fun _ _ => 409) s) ∧
    (∀ (c : Turbocache.Server) (m : Mounted Turbocache.Artifact) faults store s puts,
      c.new m.volume m.next faults = some store → Run c.engine (.boot store) s puts →
      Atomic c.engine false store.log s puts ∧
        Refuses c.engine (fun old a => if old.digest = a.digest ∧ old.tag = a.tag then 200 else 409) s) ∧
    (∀ (c : Gocache.Server) (m : Mounted Gocache.Artifact) faults store s puts, CollisionFree c →
      c.new m.volume m.next faults = some store → Run c.engine (.boot store) s puts →
      Atomic c.engine true store.log s puts ∧ Keeps c s ∧ Newest c.engine s) :=
  ⟨fun _ _ _ _ _ _ made ran => nx_atomic made ran,fun _ _ _ _ _ _ made ran => gradle_atomic made ran,
    fun _ _ _ _ _ _ made ran => turbo_atomic made ran,fun _ _ _ _ _ _ free made ran => go_atomic free made ran⟩

/-! ### An upload and a download -/

/-- Executes the labels, with the uploads they complete. -/
def follow {A : Type} (E : Engine A) : List Label → System A → Option (System A × List (Upload A))
  | [],s => some (s,[])
  | l :: rest,s => (step E l s).bind (fun s' => (follow E rest s').map (fun out => (out.1,out.2 ++ received l s')))

theorem run_of_follow {A : Type} {E : Engine A} {labels : List Label} {s s' : System A} {puts : List (Upload A)}
    (followed : follow E labels s = some (s',puts)) : Run E s s' puts := by
  induction labels generalizing s s' puts with
  | nil =>
    cases followed
    exact .refl
  | cons l rest ih =>
    obtain ⟨middle,moved,goes⟩ := Option.bind_eq_some_iff.mp followed
    obtain ⟨⟨last,more⟩,ends,same⟩ := Option.map_eq_some_iff.mp goes
    cases same
    have first : Run E s middle (received l middle ++ []) := .tail .refl moved
    rw [List.append_nil] at first
    exact Run.trans first (ih ends)

/-- Whether the last thing a server did was to send these bytes. -/
def sent {A : Type} (body : List UInt8) (s : System A) : Bool :=
  match s.store.log with
  | .served _ _ _ (.envelope _ bytes) :: _ => bytes = body
  | _ => false

/-- What is checked after the labels holds of a run. -/
theorem reached_of_follow {A : Type} (E : Engine A) (made : Option (Store A)) (labels : List Label) (check : System A → Bool)
    (executed : (made.bind (fun store => follow E labels (.boot store))).any (fun out => check out.1) = true) :
    ∃ store s puts, made = some store ∧ Run E (.boot store) s puts ∧ check s = true := by
  obtain ⟨⟨s,puts⟩,ran,holds⟩ := (Option.any_eq_true _ _).mp executed
  obtain ⟨store,built,followed⟩ := Option.bind_eq_some_iff.mp ran
  exact ⟨store,s,puts,built,run_of_follow followed,holds⟩

def download (key : String) : List Label := [.get key,.fetch 1 9 [],.send 1]

theorem publications_atomic_download :
    (∃ store s puts, nxServer.new blank.volume 0 [] = some store ∧ sent [1,2,3] s = true ∧
      Atomic nxServer.engine false store.log s puts) ∧
    (∃ store s puts, gradleServer.new blank.volume 0 [] = some store ∧ sent [1,2,3] s = true ∧
      Atomic gradleServer.engine false store.log s puts) ∧
    (∃ store s puts, turboServer.new blank.volume 0 [] = some store ∧ sent [1,2,3] s = true ∧
      Atomic turboServer.engine false store.log s puts) ∧
    (∃ store s puts, goServer.new blank.volume 0 [] = some store ∧ sent [1,2,3] s = true ∧
      Atomic goServer.engine true store.log s puts) := by
  obtain ⟨nx,gradle,turbo,go⟩ := publications_atomic
  refine ⟨?_,?_,?_,?_⟩
  · obtain ⟨store,s,puts,made,ran,body⟩ := reached_of_follow nxServer.engine (nxServer.new blank.volume 0 [])
      (upload ⟨"key",3,fun _ => []⟩ ++ download "key") (sent [1,2,3]) (by decide +kernel)
    exact ⟨store,s,puts,made,body,(nx nxServer blank [] store s puts made ran).1⟩
  · let key := String.ofList (List.replicate 32 '0')
    obtain ⟨store,s,puts,made,ran,body⟩ := reached_of_follow gradleServer.engine (gradleServer.new blank.volume 0 [])
      ([.put ⟨key,3,fun _ => []⟩,.start 0 1,.create 0 "1" 2 [],.receive 0 [1,2,3] 3 false,.finish 0 4 [],
        .publish 0 [] false,.leave 0 false,.release 0] ++ download key) (sent [1,2,3]) (by decide +kernel)
    exact ⟨store,s,puts,made,body,(gradle gradleServer blank [] store s puts made ran).1⟩
  · obtain ⟨store,s,puts,made,ran,body⟩ := reached_of_follow turboServer.engine (turboServer.new blank.volume 0 [])
      (upload turboPut ++ download "key") (sent [1,2,3]) (by decide +kernel)
    exact ⟨store,s,puts,made,body,(turbo turboServer blank [] store s puts made ran).1⟩
  · obtain ⟨store,s,puts,made,ran,body⟩ := reached_of_follow goServer.engine (goServer.new blank.volume 0 [])
      (upload goPut ++ download goPut.key) (sent [1,2,3]) (by decide +kernel)
    exact ⟨store,s,puts,made,body,(go goServer blank [] store s puts goServer_free made ran).1⟩

end Expbuild.Atomicity
