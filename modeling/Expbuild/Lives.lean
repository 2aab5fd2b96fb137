import Expbuild.Recovery

/-!
The lives of a server. Over any number of lives, each ended by a crash at any
moment, `New` finds nothing but complete envelopes of uploads that were received,
what was acknowledged is among them, and it evicts no more of them than its budget takes.
-/
namespace Expbuild.Lives
open Expbuild.Tables Expbuild.Disks Expbuild.Engines Expbuild.Stores Expbuild.Handlers Expbuild.Accounting Expbuild.Passages
  Expbuild.Histories Expbuild.Booting Expbuild.Sections Expbuild.Laws Expbuild.Capacity Expbuild.Atomicity Expbuild.Crashes
  Expbuild.Evictions Expbuild.Recovery

/-! ### Lives of a server -/

section
variable {A : Type}

/-- The lives of a server: it starts on an empty directory, serves requests, and
    after a crash at any moment starts again on what is left. `begun` is its store
    when the current life began, `puts` are the uploads received in all lives. -/
inductive Lived (E : Engine A) (new : Volume FileName (Contents A) → Inode → List Bool → Option (Store A)) :
    Store A → System A → List (Upload A) → Prop where
  | first {faults : List Bool} {store : Store A} : new blank.volume 0 faults = some store →
      Lived E new store (.boot store) []
  | next {begun : Store A} {s s' : System A} {puts : List (Upload A)} {l : Label} : Lived E new begun s puts →
      step E l s = some s' → Lived E new begun s' (received l s' ++ puts)
  | crash {begun store : Store A} {s : System A} {puts : List (Upload A)} {v : Volume FileName (Contents A)} {m : Mounted A}
      {faults : List Bool} : Lived E new begun s puts → v ∈ s.store.volume :: s.store.disk.past → v.Survivor m.volume →
      new m.volume m.next faults = some store → Lived E new store (.boot store) puts

/-- The key keeps what it has at the given moments, the newest first: if it is
    never unlinked, a crash leaves what it had at one of them. -/
def Lasting (E : Engine A) (moments : List (Volume FileName (Contents A))) (k : String) : Prop :=
  ∀ later v earlier (m : Mounted A), moments = later ++ v :: earlier →
    (∀ u ∈ v :: earlier, (u.content (E.layout.filename k)).isSome = true) → v.Survivor m.volume →
    ∃ u ∈ v :: earlier, m.volume.content (E.layout.filename k) = u.content (E.layout.filename k)

/-- What a crash finds at any moment of the current life. -/
structure Recovers (E : Engine A) (met : Table String (Entry A) → Prop)
    (new : Volume FileName (Contents A) → Inode → List Bool → Option (Store A)) (s : System A) (puts : List (Upload A)) : Prop where
  complete : ∀ u ∈ puts, Complete E u
  /-- Whatever is opened or sent is a whole envelope. -/
  served : ∀ t k a contents, .opened t k a contents ∈ s.store.log ∨ .served t k a contents ∈ s.store.log →
    (⟨k,a,contents⟩ : Upload A) ∈ puts
  envelopes : ∀ v ∈ s.store.volume :: s.store.disk.past, ∀ k contents, v.content (E.layout.filename k) = some contents →
    ∃ u ∈ puts, E.layout.filename u.key = E.layout.filename k ∧ u.contents = contents
  starts : ∀ v (m : Mounted A), v ∈ s.store.volume :: s.store.disk.past → v.Survivor m.volume →
    ∃ store, new m.volume m.next [] = some store
  restored : ∀ v (m : Mounted A) faults store, v ∈ s.store.volume :: s.store.disk.past → v.Survivor m.volume →
    new m.volume m.next faults = some store → ∃ found gone, Restored E met puts m store found gone
  /-- What was in the directory when the life began. -/
  lasting : ∀ k, Lasting E (s.store.volume :: s.store.disk.past) k

/-- What becomes of the envelope of a PUT that is acknowledged in a state: `Same`
    says for which artifacts an envelope that is there already will do. -/
def Acknowledged (E : Engine A) (met : Table String (Entry A) → Prop)
    (new : Volume FileName (Contents A) → Inode → List Bool → Option (Store A)) (Same : A → A → Prop) (s : System A)
    (puts : List (Upload A)) : Prop :=
  ∀ t p i faults rollbackFails s₂ s₃ more, s.threads.lookup t = some (.staged p i) →
    step E (.publish t faults rollbackFails) s = some s₂ → s₂.threads.lookup t = some (.leaving p.tmp i 200) →
    Run E s₂ s₃ more → ∃ u ∈ puts, u.key = p.key ∧ s₂.store.volume.content (E.layout.filename p.key) = some u.contents ∧
      ((u.artifact = p.artifact ∧ u.contents = p.contents) ∨ Same u.artifact p.artifact) ∧
      Lasting E (s₂.store.disk.since s₃.store.disk) p.key ∧
      -- while it is neither evicted nor replaced it is found again, and stays unless the budget does not take it
      ∀ later v earlier (m : Mounted A) faults store, s₂.store.disk.since s₃.store.disk = later ++ v :: earlier →
        (∀ w ∈ v :: earlier, w.content (E.layout.filename p.key) = some u.contents) → v.Survivor m.volume →
        new m.volume m.next faults = some store → ∃ found gone accessed, Restored E met (more ++ puts) m store found gone ∧
          found.lookup p.key = some ⟨u.artifact,accessed⟩ ∧ (p.key ∈ gone ∨
            (store.entries.lookup p.key = some ⟨u.artifact,accessed⟩ ∧
              store.volume.content (E.layout.filename p.key) = some u.contents))

end

section
variable {A : Type} {E : Engine A} {law : Lawful E} {new : Volume FileName (Contents A) → Inode → List Bool → Option (Store A)}
  {puts : List (Upload A)} {begun : Store A} {s s' : System A} {l : Label} {m : Mounted A}

/-- The invariant of the lives of a server. -/
structure Alive (law : Lawful E) (limits : Prop) (begun : Store A) (s : System A) (puts : List (Upload A)) : Prop where
  limits : limits
  sound : Atomicity.Sound law begun.log s puts
  always : s.store.disk.Always (Recoverable law puts)
  published : ∀ {k a contents}, .published k a contents ∈ begun.log → (⟨k,a,contents⟩ : Upload A) ∈ puts
  firm : law.replaces = false → Firm E s.store.entries s.store.volume
  mounted : ∃ w, Settled w ∧ (⟨w,[]⟩ : Disk FileName (Contents A)).Extends (Gentle E) s.store.disk

theorem told_boot {store : Store A} (booted : Booted law store) (complete : ∀ u ∈ puts, Complete E u) :
    Told law store.log (.boot store) puts :=
  ⟨booted.told.mirror,booted.told.disciplined,nofun,nofun,complete,fun told => .inl told⟩

/-- A life begins. -/
theorem alive_opened {met : Table String (Entry A) → Prop} {store : Store A} {limits : Prop} (within : limits)
    (complete : ∀ u ∈ puts, Complete E u) (settled : Settled m.volume) (recoverable : Recoverable law puts m.volume)
    (opened : Opened law met puts m store) :
    Alive law limits store (.boot store) puts where
  limits := within
  sound := ⟨opened.booted.tidy,opened.booted.balanced,told_boot opened.booted complete⟩
  always := recoverable_unlinks (d := ⟨m.volume,[]⟩) ⟨recoverable,nofun⟩ opened.unlinks
  published := opened.published
  firm := by
    intro _ k e found
    rcases opened.booted.balanced.kept.filed found with away | ⟨i,_,bound,_⟩
    · cases away
    · exact ⟨i,settled.left opened.unlinks bound⟩
  mounted := ⟨m.volume,settled,gentle_unlinks opened.unlinks⟩

theorem Alive.step {limits : Prop} (opener : Opener law new) (alive : Alive law limits begun s puts) (stepped : Stepped E l s s') :
    Alive law limits begun s' (received l s' ++ puts) where
  limits := alive.limits
  sound := ⟨alive.sound.tidy.step stepped,alive.sound.balanced.step alive.sound.tidy stepped,
    alive.sound.told.step alive.sound.tidy alive.sound.balanced stepped⟩
  always := (recoverable_step alive.sound.tidy alive.sound.told opener.owned alive.always stepped).mono
    (fun _ recoverable => recoverable.more (fun _ member => List.mem_append_right _ member))
  published := fun member => List.mem_append_right _ (alive.published member)
  firm := fun replaces => firm_step alive.sound.tidy alive.sound.balanced opener.owned (opener.links replaces)
    (alive.firm replaces) stepped
  mounted := by
    obtain ⟨w,settled,extend⟩ := alive.mounted
    exact ⟨w,settled,extend.trans (gentle_step alive.sound.tidy opener.owned stepped)⟩

theorem recoverable_blank : Recoverable law ([] : List (Upload A)) (blank : Mounted A).volume := by
  rintro n i (bound | bound | ⟨_,member,_⟩)
  · cases bound
  · cases bound
  · cases member

theorem always_at {P : Volume FileName (Contents A) → Prop} {d : Disk FileName (Contents A)} (always : d.Always P)
    {v : Volume FileName (Contents A)} (member : v ∈ d.volume :: d.past) : P v := by
  rcases List.mem_cons.mp member with rfl | past
  · exact always.1
  · exact always.2 v past

theorem alive_lived (opener : Opener law new) (lived : Lived E new begun s puts) : Alive law opener.limits begun s puts := by
  induction lived with
  | first made =>
    have recoverable : Recoverable law ([] : List (Upload A)) (blank : Mounted A).volume := recoverable_blank
    have complete : ∀ u ∈ ([] : List (Upload A)), Complete E u := fun _ member => nomatch member
    have opened := opener.opened (m := blank) complete recoverable made
    exact alive_opened (opener.made (m := blank) made).1 complete ⟨rfl,rfl⟩ recoverable opened
  | next _ moved ih => exact ih.step opener (step_stepped moved)
  | @crash begun store s puts v m faults _ moment survives made ih =>
    have recoverable := (always_at ih.always moment).survives survives
    have complete := ih.sound.told.complete
    exact alive_opened ih.limits complete ⟨survives.durable,survives.pending⟩ recoverable (opener.opened complete recoverable made)

theorem Alive.known {limits : Prop} (alive : Alive law limits begun s puts) {k : String} {a : A} {contents : Contents A}
    (member : .published k a contents ∈ s.store.log) : (⟨k,a,contents⟩ : Upload A) ∈ puts := by
  rcases alive.sound.told.published member with before | since
  · exact alive.published before
  · exact since

/-- A name that is steady lasts through the calls of the server. -/
theorem Alive.lasting {limits : Prop} {d : Disk FileName (Contents A)} {k : String} (alive : Alive law limits begun s puts)
    (extend : d.Extends (Gentle E) s.store.disk)
    (base : Steady (fun i => d.volume.names.lookup (E.layout.filename k) = some i) (E.layout.filename k) d.volume)
    (sub : ∀ v ∈ d.since s.store.disk, v ∈ s.store.volume :: s.store.disk.past) :
    Lasting E (d.since s.store.disk) k := by
  intro later v earlier m moments there survives
  have member : v ∈ s.store.volume :: s.store.disk.past := sub v (by rw [moments]; simp)
  exact content_survives extend base moments there (always_at alive.always member) survives

theorem steady_own {v : Volume FileName (Contents A)} {n : FileName} {i : Inode} (steady : Steady (fun j => j = i) n v) :
    Steady (fun j => v.names.lookup n = some j) n v := by
  obtain ⟨j,found,rfl⟩ := steady.now
  exact steady.mono (fun k _ same => by rw [same]; exact found)

theorem since_mem {d d' : Disk FileName (Contents A)} {v : Volume FileName (Contents A)} (member : v ∈ d.since d') :
    v ∈ d'.volume :: d'.past :=
  List.mem_of_mem_take member

theorem recovers_lived (opener : Opener law new) (lived : Lived E new begun s puts) : Recovers E opener.met new s puts := by
  have alive := alive_lived opener lived
  have complete := alive.sound.told.complete
  have opened : ∀ {t k a contents}, .opened t k a contents ∈ s.store.log → (⟨k,a,contents⟩ : Upload A) ∈ puts := by
    intro t k a contents member
    obtain ⟨later,earlier,log⟩ := List.append_of_mem member
    have disciplined := alive.sound.told.disciplined
    rw [log] at disciplined
    have told := latest_mem (Disciplined.split disciplined).1
    exact alive.known (by rw [log]; exact List.mem_append_right _ (List.mem_cons_of_mem _ told))
  refine ⟨complete,?_,?_,?_,?_,?_⟩
  · intro t k a contents told
    rcases told with told | told
    · exact opened told
    · obtain ⟨later,earlier,log⟩ := List.append_of_mem told
      have disciplined := alive.sound.told.disciplined
      rw [log] at disciplined
      have before := (Disciplined.split disciplined).1
      exact opened (t := t) (by rw [log]; exact List.mem_append_right _ (List.mem_cons_of_mem _ before))
  · intro v moment k contents held
    obtain ⟨i,f,bound,file,rfl⟩ := content_iff.mp held
    rcases always_at alive.always moment _ i (.inl bound) with ⟨suffix,_,upload,_⟩ | ⟨key,a,g,named,_,envelope⟩
    · exact absurd upload (law.entry_ne _ ⟨suffix,rfl⟩)
    · have there := envelope.file
      rw [file] at there
      cases there
      exact ⟨_,envelope.known,named,rfl⟩
  · intro v m moment survives
    exact opener.recovers alive.limits ((always_at alive.always moment).survives survives)
  · intro v m faults store moment survives made
    exact (opener.opened complete ((always_at alive.always moment).survives survives) made).restored
  · intro k
    obtain ⟨w,settled,extend⟩ := alive.mounted
    have all : (⟨w,[]⟩ : Disk FileName (Contents A)).since s.store.disk = s.store.volume :: s.store.disk.past := by
      simp [Disk.since]
    cases found : w.names.lookup (E.layout.filename k) with
    | some i =>
      have lasting := alive.lasting extend (steady_own (settled.steady found)) (fun v member => since_mem member)
      rwa [all] at lasting
    | none =>
      -- a key that was not there when the life began is missing at its first moment
      intro later v earlier m moments there
      have last : w ∈ v :: earlier := by
        have oldest := extend.oldest
        rw [all,moments] at oldest
        exact List.mem_of_getLast? (by simpa using oldest)
      have bound := there w last
      simp [Volume.content,Volume.file,found] at bound

/-- A life goes on. -/
theorem lived_run (opener : Opener law new) {more : List (Upload A)} (lived : Lived E new begun s puts) (ran : Run E s s' more) :
    Lived E new begun s' (more ++ puts) ∧ s.store.disk.Extends (Gentle E) s'.store.disk := by
  induction ran with
  | refl => exact ⟨lived,.refl⟩
  | tail _ moved ih =>
    obtain ⟨living,extend⟩ := ih
    have alive := alive_lived opener living
    rw [List.append_assoc]
    exact ⟨.next living moved,extend.trans (gentle_step alive.sound.tidy opener.owned (step_stepped moved))⟩

/-- The envelope that an acknowledged PUT leaves, and its name, which is steady. -/
theorem answered (opener : Opener law new) {t : Nat} {p : Staged A} {i : Inode} {faults : List Bool} {rollbackFails : Bool}
    (lived : Lived E new begun s puts) (found : s.threads.lookup t = some (.staged p i))
    (moved : step E (.publish t faults rollbackFails) s = some s')
    (ended : s'.threads.lookup t = some (.leaving p.tmp i 200)) : ∃ u ∈ puts, u.key = p.key ∧
      s'.store.volume.content (E.layout.filename p.key) = some u.contents ∧
      ((u.artifact = p.artifact ∧ u.contents = p.contents) ∨
        (law.replaces = false ∧ opener.duplicate u.artifact p.artifact = 200)) ∧
      Steady (fun j => s'.store.volume.names.lookup (E.layout.filename p.key) = some j) (E.layout.filename p.key)
        s'.store.volume := by
  have alive := alive_lived opener lived
  have after := alive_lived opener (.next lived moved)
  obtain ⟨status,ran,answer⟩ := publish_moved found moved
  rw [ended] at answer
  cases answer
  have mirrored := after.sound.told.mirror p.key
  rcases opener.acknowledges ran with ⟨settled,rest,log⟩ | ⟨replaces,old,there,same,equal⟩
  · have last : latest p.key s'.store.log = some (p.artifact,p.contents) := by rw [log]; exact latest_published _ _ _ _
    refine ⟨_,alive.sound.told.uploaded found,rfl,?_⟩
    cases entry : s'.store.entries.lookup p.key with
    | none =>
      rw [mirrored.absent entry] at last
      cases last
    | some e =>
      cases bound : s'.store.volume.names.lookup (E.layout.filename p.key) with
      | none =>
        rw [mirrored.gone bound] at last
        cases last
      | some j =>
        obtain ⟨f,file,_,told⟩ := mirrored.present entry bound
        rw [last] at told
        obtain ⟨_,contents⟩ := Prod.mk.inj (Option.some.inj told)
        refine ⟨content_iff.mpr ⟨j,f,bound,file,contents.symm⟩,.inl ⟨rfl,rfl⟩,?_⟩
        have steady := steady_own (settled.steady bound)
        simpa only [bound] using steady
  · have entry : s'.store.entries.lookup p.key = some old := by rw [same]; exact there
    obtain ⟨j,steady⟩ := after.firm replaces p.key old entry
    obtain ⟨_,bound,rfl⟩ := steady.now
    obtain ⟨f,file,_,told⟩ := mirrored.present entry bound
    have known : (⟨p.key,old.artifact,f.contents⟩ : Upload A) ∈ puts := after.known (latest_mem told)
    exact ⟨_,known,rfl,content_iff.mpr ⟨_,f,bound,file,rfl⟩,.inr ⟨replaces,equal⟩,steady_own steady⟩

theorem acknowledged_lived (opener : Opener law new) (lived : Lived E new begun s puts) :
    Acknowledged E opener.met new (fun old a => law.replaces = false ∧ opener.duplicate old a = 200) s puts := by
  intro t p i faults rollbackFails s₂ s₃ more found moved ended ran
  obtain ⟨u,member,key,content,which,steady⟩ := answered opener lived found moved ended
  obtain ⟨living,extend⟩ := lived_run opener (.next lived moved) ran
  have lasting := (alive_lived opener living).lasting extend steady (fun v member => since_mem member)
  refine ⟨u,member,key,content,which,lasting,?_⟩
  intro later v earlier m faults store moments there survives made
  have bound : ∀ w ∈ v :: earlier, (w.content (E.layout.filename p.key)).isSome = true := by
    intro w among
    rw [there w among]
    rfl
  obtain ⟨w,among,same⟩ := lasting later v earlier m moments bound survives
  have moment : v ∈ s₃.store.volume :: s₃.store.disk.past := since_mem (by rw [moments]; simp)
  obtain ⟨found,gone,restored⟩ := (recovers_lived opener living).restored v m faults store moment survives made
  rw [there w among] at same
  obtain ⟨i,f,name,file,held⟩ := content_iff.mp same
  have put : (⟨p.key,u.artifact,f.contents⟩ : Upload A) ∈ more ++ puts := by
    rw [held,← key]
    exact List.mem_append_right _ member
  have indexed : found.lookup p.key = some ⟨u.artifact,f.modified⟩ := (restored.indexes _ _).mpr ⟨i,f,name,file,rfl,put⟩
  refine ⟨found,gone,f.modified,restored,indexed,restored.trims.kept.imp_right (fun left => ?_)⟩
  have entry : store.entries.lookup p.key = some ⟨u.artifact,f.modified⟩ := left.trans indexed
  obtain ⟨contents,_,here,before⟩ := restored.whole _ _ entry
  rw [same] at before
  cases before
  exact ⟨entry,here⟩

theorem Acknowledged.mono {met : Table String (Entry A) → Prop} {Same Same' : A → A → Prop}
    (acknowledged : Acknowledged E met new Same s puts) (weaker : ∀ old a, Same old a → Same' old a) :
    Acknowledged E met new Same' s puts := by
  intro t p i faults rollbackFails s₂ s₃ more found moved ended ran
  obtain ⟨u,member,key,content,which,lasting,restored⟩ := acknowledged t p i faults rollbackFails s₂ s₃ more found moved ended ran
  exact ⟨u,member,key,content,which.imp_right (weaker _ _),lasting,restored⟩

end

/-- Whatever a crash leaves of the directory of a server, at any moment of any of
    its lives, `New` starts on it, finds exactly the complete envelopes there and
    evicts the fewest of them, the oldest first, that its budget does not take; what was
    acknowledged is among them while it is neither evicted nor replaced. A PUT that
    Turborepo acknowledges because its digest and tag are there already has the
    envelope of the first writer. -/
theorem crashes_recovered :
    (∀ (c : Turbocache.Server) begun s puts, Lived c.engine c.new begun s puts →
      Recovers c.engine (Fits c.layout c.maxTotal 0) c.new s puts ∧
        Acknowledged c.engine (Fits c.layout c.maxTotal 0) c.new (fun old a => old.digest = a.digest ∧ old.tag = a.tag) s puts) ∧
    (∀ (c : Nxcache.Server) begun s puts, Lived c.engine c.new begun s puts →
      Recovers c.engine (Fits c.layout c.maxTotal 0) c.new s puts ∧
        Acknowledged c.engine (Fits c.layout c.maxTotal 0) c.new (fun _ _ => False) s puts) ∧
    (∀ (c : Gocache.Server) begun s puts, CollisionFree c → Lived c.engine c.new begun s puts →
      Recovers c.engine (fun entries => Fits c.layout c.maxTotal 0 entries ∧ Few false entries) c.new s puts ∧
        Acknowledged c.engine (fun entries => Fits c.layout c.maxTotal 0 entries ∧ Few false entries) c.new
          (fun _ _ => False) s puts) := by
  refine ⟨fun c begun s puts lived => ?_,fun c begun s puts lived => ?_,fun c begun s puts free lived => ?_⟩
  · refine ⟨recovers_lived (turboOpener c) lived,(acknowledged_lived (turboOpener c) lived).mono (fun old a same => ?_)⟩
    have equal : Turbocache.Server.duplicate old a = 200 := same.2
    unfold Turbocache.Server.duplicate at equal
    split at equal
    · assumption
    · cases equal
  · refine ⟨recovers_lived (nxOpener c) lived,(acknowledged_lived (nxOpener c) lived).mono (fun old a same => ?_)⟩
    have never : (409 : Nat) = 200 := same.2
    cases never
  · refine ⟨recovers_lived (goOpener c free) lived,(acknowledged_lived (goOpener c free) lived).mono (fun old a same => ?_)⟩
    cases same.1

/-! ### A crash -/

/-- The directory as it was synchronised last, all that came later being lost. -/
def lost {A : Type} (v : Volume FileName (Contents A)) : Volume FileName (Contents A) := ⟨v.durable,v.files,v.durable,[]⟩

theorem survivor_lost {A : Type} (v : Volume FileName (Contents A)) : v.Survivor (lost v) where
  kept := ⟨[],List.nil_sublist _,rfl⟩
  durable := rfl
  pending := rfl
  file := fun _ f found => ⟨f,found,rfl,fun synced => ⟨rfl,synced⟩⟩

/-- A server whose power fails now. -/
def failed {A : Type} {s : System A} (allocated : Allocated s.store.next s.store.volume) : Mounted A where
  volume := lost s.store.volume
  next := s.store.next
  allocated := by
    rintro n i (bound | bound | ⟨_,member,_⟩)
    · exact allocated n i (.inr (.inl bound))
    · exact allocated n i (.inr (.inl bound))
    · cases member

/-- A server that stored an entry finds it again, and keeps it. -/
def Returns {A : Type} (E : Engine A) (met : Table String (Entry A) → Prop)
    (new : Volume FileName (Contents A) → Inode → List Bool → Option (Store A)) (k : String) : Prop :=
  ∃ (begun : Store A) (s : System A) (puts : List (Upload A)) (m : Mounted A) (store : Store A) (e : Entry A),
    Lived E new begun s puts ∧ s.store.volume.Survivor m.volume ∧ new m.volume m.next [] = some store ∧
    (∃ found gone, Restored E met puts m store found gone) ∧ store.entries.lookup k = some e

theorem returns_of_follow {A : Type} {E : Engine A} {met : Table String (Entry A) → Prop}
    {new : Volume FileName (Contents A) → Inode → List Bool → Option (Store A)}
    {law : Lawful E} (opener : Opener law new) (k : String) (labels : List Label)
    (recovers : ∀ begun s puts, Lived E new begun s puts → Recovers E met new s puts)
    (executed : ((new blank.volume 0 []).bind (fun store => follow E labels (.boot store))).any
      (fun out => (new (lost out.1.store.volume) out.1.store.next []).any (fun store => (store.entries.lookup k).isSome)) = true) :
    Returns E met new k := by
  obtain ⟨begun,s,puts,made,ran,there⟩ := reached_of_follow E (new blank.volume 0 []) labels
    (fun s => (new (lost s.store.volume) s.store.next []).any (fun store => (store.entries.lookup k).isSome)) executed
  obtain ⟨lived,_⟩ := lived_run opener (.first made) ran
  have survives := survivor_lost s.store.volume
  let m := failed (alive_lived opener lived).sound.tidy.allocated
  obtain ⟨store,again,present⟩ := (Option.any_eq_true _ _).mp there
  obtain ⟨e,found⟩ := Option.isSome_iff_exists.mp present
  exact ⟨begun,s,_,m,store,e,lived,survives,again,
    (recovers begun s _ lived).restored _ m [] store List.mem_cons_self survives again,found⟩

theorem crashes_recovered_upload :
    Returns turboServer.engine (Fits turboServer.layout turboServer.maxTotal 0) turboServer.new "key" ∧
    Returns nxServer.engine (Fits nxServer.layout nxServer.maxTotal 0) nxServer.new "key" ∧
    Returns goServer.engine (fun entries => Fits goServer.layout goServer.maxTotal 0 entries ∧ Few false entries) goServer.new
      goPut.key := by
  obtain ⟨turbo,nx,go⟩ := crashes_recovered
  refine ⟨?_,?_,?_⟩
  · exact returns_of_follow (turboOpener turboServer) "key" (upload turboPut)
      (fun begun s puts lived => (turbo turboServer begun s puts lived).1) (by decide +kernel)
  · exact returns_of_follow (nxOpener nxServer) "key" (upload ⟨"key",3,fun _ => []⟩)
      (fun begun s puts lived => (nx nxServer begun s puts lived).1) (by decide +kernel)
  · exact returns_of_follow (goOpener goServer goServer_free) goPut.key (upload goPut)
      (fun begun s puts lived => (go goServer begun s puts goServer_free lived).1) (by decide +kernel)

/-- A second PUT of the same bytes, with another duration, up to its publication. -/
def repeated : List Label :=
  [.put ⟨"key",3,fun name => if name = "x-artifact-duration" then ["8"] else []⟩,.start 1 5,.acquire 1,.create 1 "2" 6 [],
    .receive 1 [1,2,3] 7 false,.finish 1 8 []]

/-- The second request has been told 200 for its file. -/
def acknowledged (tmp : FileName) (i : Inode) (s : System Turbocache.Artifact) : Bool :=
  match s.threads.lookup 1 with
  | some (.leaving tmp' j 200) => tmp' = tmp && j = i
  | _ => false

/-- Its publication is acknowledged, and another file stays under the key. -/
def hidden (s : System Turbocache.Artifact) : Bool :=
  match s.threads.lookup 1 with
  | some (.staged p i) => (step turboServer.engine (.publish 1 [] false) s).any (fun s₂ =>
      acknowledged p.tmp i s₂ && s₂.store.volume.content (turboServer.filename p.key) ≠ some p.contents)
  | _ => false

/-- It is acknowledged, but the envelope that is found again is the first one. -/
theorem repeated_metadata_lost : ¬∀ begun s puts, Lived turboServer.engine turboServer.new begun s puts →
    Acknowledged turboServer.engine (Fits turboServer.layout turboServer.maxTotal 0) turboServer.new (fun _ _ => False) s puts := by
  intro always
  obtain ⟨begun,s,puts,made,ran,check⟩ := reached_of_follow turboServer.engine (turboServer.new blank.volume 0 [])
    (upload turboPut ++ repeated) hidden (by decide +kernel)
  obtain ⟨lived,_⟩ := lived_run (turboOpener turboServer) (.first made) ran
  unfold hidden at check
  split at check
  · rename_i p i found
    obtain ⟨s₂,moved,ended⟩ := (Option.any_eq_true _ _).mp check
    simp only [Bool.and_eq_true,decide_eq_true_eq,ne_eq] at ended
    obtain ⟨ended,other⟩ := ended
    unfold acknowledged at ended
    split at ended
    · rename_i tmp j answered
      simp only [Bool.and_eq_true,decide_eq_true_eq] at ended
      obtain ⟨rfl,rfl⟩ := ended
      obtain ⟨u,_,_,content,which,_⟩ := always begun s _ lived 1 p j [] false s₂ s₂ [] found moved answered .refl
      rcases which with ⟨_,same⟩ | never
      · rw [same] at content
        exact other content
      · exact never
    · cases ended
  · cases check

end Expbuild.Lives
