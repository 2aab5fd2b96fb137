import Expbuild.Crashes
import Expbuild.Evictions

/-!
What `New` makes of what a crash left. It removes the staging files, reads every
envelope again and evicts no more than its budget takes (`Restored`); the entries of
the engines that link their files are on the disk for good (`Firm`).
-/
namespace Expbuild.Recovery
open Expbuild.Tables Expbuild.Disks Expbuild.Engines Expbuild.Stores Expbuild.Handlers Expbuild.Accounting Expbuild.Passages
  Expbuild.Histories Expbuild.Booting Expbuild.Sections Expbuild.Laws Expbuild.Capacity Expbuild.Atomicity Expbuild.Crashes
  Expbuild.Evictions

/-! ### The loop of `New` -/

section
variable {A : Type} {L : Layout A} {keyOf : A → String} {readArtifact : File (Contents A) → Option A} {accepts : A → Bool}
  {rest : List (FileName × Inode)} {s s' t : Store A}

/-- A file that the loop passes: of an upload, or an envelope under its own name. -/
def Readable (L : Layout A) (keyOf : A → String) (readArtifact : File (Contents A) → Option A) (accepts : A → Bool)
    (n : FileName) (f : File (Contents A)) : Prop :=
  f.regular = true ∧ ((∃ suffix, n = .upload suffix) ∨
    ∃ stem a, n = .entry stem ∧ readArtifact f = some a ∧ L.filename (keyOf a) = n ∧ accepts a = true)

/-- Where no call fails the loop ends if it can read every file. -/
theorem scan_succeeds (calm : s.faults = []) (distinct : (rest.map Prod.fst).Nodup)
    (here : ∀ {n i}, (n,i) ∈ rest → s.volume.names.lookup n = some i)
    (readable : ∀ {n i}, (n,i) ∈ rest → ∃ f, s.volume.files i = some f ∧ Readable L keyOf readArtifact accepts n f) :
    ∃ s', scan L keyOf readArtifact accepts rest s = some s' ∧ s'.faults = [] := by
  induction rest generalizing s with
  | nil => exact ⟨s,rfl,calm⟩
  | cons item rest ih =>
    obtain ⟨name,i⟩ := item
    have works : s.fails = (s,false) := by simp [Store.fails,calm]
    have bound := here List.mem_cons_self
    obtain ⟨fresh,apart⟩ := List.nodup_cons.mp distinct
    obtain ⟨f,file,regular,⟨suffix,rfl⟩ | ⟨stem,a,rfl,read,named,accepted⟩⟩ := readable List.mem_cons_self
    · have left : ∀ {n j}, (n,j) ∈ rest → (s.perform (.unlink (.upload suffix))).volume.names.lookup n = some j := by
        intro n j member
        have passes : (Op.unlink (.upload suffix) : Op FileName (Contents A)).Passes n := by
          rintro rfl
          exact fresh (List.mem_map.mpr ⟨(_,j),member,rfl⟩)
        exact (names_apply passes).trans (here (List.mem_cons_of_mem _ member))
      obtain ⟨s',ran,still⟩ := ih (s := s.perform (.unlink (.upload suffix))) calm apart left
        (fun member => readable (List.mem_cons_of_mem _ member))
      refine ⟨s',?_,still⟩
      simp only [scan,file,regular,if_true,Store.remove,works,bound]
      exact ran
    · obtain ⟨s',ran,still⟩ := ih (s := s.record L (keyOf a) ⟨a,f.modified⟩ f.contents) calm apart
        (fun member => here (List.mem_cons_of_mem _ member)) (fun member => readable (List.mem_cons_of_mem _ member))
      refine ⟨s',?_,still⟩
      simp only [scan,file,regular,if_true,openFile,works,bound,read,Option.map_some,named,accepted,decide_true,Bool.and_true]
      exact ran

/-- The loop only removes staging files, and records what it reads. -/
theorem scan_disk (ran : scan L keyOf readArtifact accepts rest s = some s') :
    s.disk.Extends (fun _ op => ∃ suffix, op = .unlink (.upload suffix)) s'.disk ∧
    ∃ new, s'.log = new ++ s.log ∧ ∀ event ∈ new, ∃ n i a f, s.volume.names.lookup n = some i ∧ s.volume.files i = some f ∧
      readArtifact f = some a ∧ L.filename (keyOf a) = n ∧ event = .published (keyOf a) a f.contents := by
  induction rest generalizing s with
  | nil =>
    simp only [scan] at ran
    cases ran
    exact ⟨.refl,[],rfl,by simp⟩
  | cons item rest ih =>
    obtain ⟨name,i⟩ := item
    obtain ⟨faults,⟨suffix,rfl,ran⟩ | ⟨stem,j,a,f,rfl,bound,file,read,named,_,ran⟩⟩ := scan_cons ran
    · obtain ⟨extend,new,log,told⟩ := ih ran
      refine ⟨(Disk.Extends.refl.perform ⟨suffix,rfl⟩).trans extend,new,log,fun event member => ?_⟩
      obtain ⟨n,j,a,f,bound,found⟩ := told event member
      exact ⟨n,j,a,f,(lookup_apply bound).resolve_right (fun bind => bind),found⟩
    · obtain ⟨extend,new,log,told⟩ := ih ran
      refine ⟨extend,new ++ [.published (keyOf a) a f.contents],by rw [log]; simp [Store.record],fun event member => ?_⟩
      rcases List.mem_append.mp member with later | first
      · exact told event later
      · obtain rfl := List.mem_singleton.mp first
        exact ⟨_,j,a,f,bound,file,read,named,rfl⟩

/-- An eviction whose calls do not fail ends. -/
theorem evict_calm {enough fits : Store A → Bool} {keys : List String} {r : Evicted} (calm : s.faults = [])
    (ended : evict L enough fits keys s = (s',r)) : r ≠ .failed := by
  induction keys generalizing s with
  | nil =>
    simp only [evict] at ended
    obtain ⟨_,rfl⟩ := Prod.mk.inj ended
    split <;> simp
  | cons k rest ih =>
    simp only [evict] at ended
    split at ended
    · obtain ⟨_,rfl⟩ := Prod.mk.inj ended
      simp
    · have works : s.fails = (s,false) := by simp [Store.fails,calm]
      simp only [Store.remove,works] at ended
      cases bound : s.volume.names.lookup (L.filename k) with
      | none =>
        simp only [bound] at ended
        exact ih (s := s.delete L k) calm ended
      | some i =>
        simp only [bound] at ended
        exact ih (s := (s.perform (.unlink (L.filename k))).delete L k) calm ended

theorem evicts_disk {keep : String → Bool} (evicts : Evicts L keep s t) :
    s.disk.Extends (fun _ op => ∃ k, op = .unlink (L.filename k)) t.disk := by
  obtain ⟨ops,disk,_,unlinks⟩ := evicts.ops
  rw [disk]
  exact Disk.Extends.refl.performs (I := fun _ => True) trivial (fun _ op member _ => ⟨unlinks op member,trivial⟩)

end

/-! ### The times of the entries -/

section
variable {A : Type} {E : Engine A} {s s' : Store A} {keyOf : A → String} {readArtifact : File (Contents A) → Option A}
  {accepts : A → Bool} {rest : List (FileName × Inode)}

/-- Every entry has the time of its file. -/
def Timed (E : Engine A) (s : Store A) : Prop := ∀ k e, s.entries.lookup k = some e →
  ∃ i f, s.volume.names.lookup (E.layout.filename k) = some i ∧ s.volume.files i = some f ∧ f.modified = e.accessed

theorem scan_timed (law : Lawful E) (timed : Timed E s) (ran : scan E.layout keyOf readArtifact accepts rest s = some s') :
    Timed E s' := by
  induction rest generalizing s with
  | nil =>
    simp only [scan] at ran
    cases ran
    exact timed
  | cons item rest ih =>
    obtain ⟨name,j⟩ := item
    obtain ⟨faults,⟨suffix,rfl,ran⟩ | ⟨stem,i,a,f,rfl,bound,file,_,named,_,ran⟩⟩ := scan_cons ran
    · refine ih (fun k e found => ?_) ran
      obtain ⟨i,f,bound,file,time⟩ := timed k e found
      have passes : (Op.unlink (.upload suffix) : Op FileName (Contents A)).Passes (E.layout.filename k) :=
        Ne.symm (law.entry_ne k ⟨suffix,rfl⟩)
      exact ⟨i,f,(names_apply passes).trans bound,file,time⟩
    · refine ih (fun k e found => ?_) ran
      rcases lookup_insert_some found with ⟨rfl,rfl⟩ | ⟨_,before⟩
      · rw [named]
        exact ⟨i,f,bound,file,rfl⟩
      · exact timed k e before

end

/-! ### Directories that only lose names -/

section
variable {A : Type} {E : Engine A} {law : Lawful E} {puts : List (Upload A)} {d d' : Disk FileName (Contents A)}

/-- A call that takes a name away. -/
def Unlinks (_ : Volume FileName (Contents A)) (op : Op FileName (Contents A)) : Prop := ∃ name, op = .unlink name

theorem recoverable_unlinks (always : d.Always (Recoverable law puts)) (extend : d.Extends Unlinks d') :
    d'.Always (Recoverable law puts) := by
  induction extend with
  | refl => exact always
  | perform _ unlink ih =>
    obtain ⟨name,rfl⟩ := unlink
    refine ih.perform (ih.1.apply (fun _ _ bind => bind.elim) (fun _ file regular => ?_) (fun _ => trivial))
    exact regular_apply _ (by simp) file regular

theorem gentle_unlinks (extend : d.Extends Unlinks d') : d.Extends (Gentle E) d' := by
  induction extend with
  | refl => exact .refl
  | perform _ unlink ih =>
    obtain ⟨name,rfl⟩ := unlink
    exact ih.perform (gentle_unlink _ name)

/-- Files stay as they are, and names that are left were there. -/
theorem unlinks_kept (extend : d.Extends Unlinks d') : d'.volume.files = d.volume.files ∧
    ∀ {n i}, d'.volume.names.lookup n = some i → d.volume.names.lookup n = some i := by
  induction extend with
  | refl => exact ⟨rfl,fun found => found⟩
  | perform _ unlink ih =>
    obtain ⟨name,rfl⟩ := unlink
    exact ⟨ih.1,fun found => ih.2 ((lookup_apply found).resolve_right (fun bind => bind))⟩

/-- A directory as a crash leaves it. -/
structure Settled (v : Volume FileName (Contents A)) : Prop where
  durable : v.durable = v.names
  pending : v.pending = []

theorem Settled.steady {v : Volume FileName (Contents A)} {n : FileName} {i : Inode} (settled : Settled v)
    (found : v.names.lookup n = some i) : Steady (fun j => j = i) n v where
  now := ⟨i,found,rfl⟩
  durable := ⟨i,by rw [settled.durable]; exact found,rfl⟩
  pending := by
    intro change member
    rw [settled.pending] at member
    cases member

/-- What is left of a settled directory stays. -/
theorem Settled.left {n : FileName} {i : Inode} (settled : Settled d.volume) (extend : d.Extends Unlinks d')
    (found : d'.volume.names.lookup n = some i) : Steady (fun j => j = i) n d'.volume := by
  induction extend with
  | refl => exact settled.steady found
  | perform _ unlink ih =>
    obtain ⟨name,rfl⟩ := unlink
    have before := ih ((lookup_apply found).resolve_right (fun bind => bind))
    have passes : (Op.unlink name : Op FileName (Contents A)).Passes n := by
      rintro rfl
      exact absurd ((names_unlink _ _).symm.trans found) (by simp)
    exact before.passes passes

end

/-! ### Entries that stay -/

section
variable {A : Type} {E : Engine A} {law : Lawful E} {vanished : List String} {entries : Table String (Entry A)} {used : Int}
  {v : Volume FileName (Contents A)} {s s' : System A} {l : Label}

/-- The name of every entry survives a crash. -/
def Firm (E : Engine A) (entries : Table String (Entry A)) (v : Volume FileName (Contents A)) : Prop :=
  ∀ k e, entries.lookup k = some e → ∃ i, Steady (fun j => j = i) (E.layout.filename k) v

theorem Firm.apply (firm : Firm E entries v) (op : Op FileName (Contents A))
    (passes : ∀ {k}, (entries.lookup k).isSome = true → op.Passes (E.layout.filename k)) : Firm E entries (v.apply op) := by
  intro k e found
  obtain ⟨i,steady⟩ := firm k e found
  exact ⟨i,steady.passes (passes (by rw [found]; rfl))⟩

theorem Firm.fewer {later : Table String (Entry A)} (firm : Firm E entries v)
    (sub : ∀ {k}, (later.lookup k).isSome = true → (entries.lookup k).isSome = true) : Firm E later v := by
  intro k e found
  obtain ⟨e',before⟩ := Option.isSome_iff_exists.mp (sub (k := k) (by rw [found]; rfl))
  exact firm k e' before

theorem Firm.evicts {keep : String → Bool} {a b : Store A} (kept : Kept law vanished a.entries a.used a.volume)
    (firm : Firm E a.entries a.volume) (evicts : Evicts E.layout keep a b) : Firm E b.entries b.volume := by
  have both : Kept law vanished b.entries b.used b.volume ∧ Firm E b.entries b.volume := by
    refine evicts.invariant (I := fun b => Kept law vanished b.entries b.used b.volume ∧ Firm E b.entries b.volume)
      ⟨kept,firm⟩ ?_
    rintro b k e ⟨kept,firm⟩ found _
    refine ⟨kept.dropKey found,?_⟩
    rw [dropKey_entries]
    -- what is left has other names than the file that goes
    have rest : ∀ {j}, ((b.entries.erase k).lookup j).isSome = true → j ≠ k ∧ (b.entries.lookup j).isSome = true := by
      intro j there
      rw [lookup_erase] at there
      split at there
      · cases there
      · exact ⟨‹_›,there⟩
    have fewer := firm.fewer (fun there => (rest there).2)
    rcases dropKey_volume E.layout k b with unlinked | ⟨_,same⟩
    · rw [unlinked]
      refine fewer.apply _ (fun {j} there same => ?_)
      obtain ⟨other,there⟩ := rest there
      obtain ⟨e',found'⟩ := Option.isSome_iff_exists.mp there
      exact other (kept.apart found' found same.symm)
    · rw [same]
      exact fewer
  exact both.2

/-- The publications of the engines that synchronise before they record. -/
theorem firm_linking {p : Staged A} {rollbackFails : Bool} {duplicate : A → A → Nat} {a b : Store A} {status : Nat}
    (kept : Kept law vanished a.entries a.used a.volume) (firm : Firm E a.entries a.volume)
    (linking : Linking E.layout E.maxTotal duplicate p rollbackFails a b status) : Firm E b.entries b.volume := by
  have missing : ∀ {t : Store A}, Evicts E.layout (fun k => decide (k = p.key)) a t → a.entries.lookup p.key = none →
      t.entries.lookup p.key = none := by
    intro t evicts absent
    rw [evicts.kept (by simp),absent]
  have linked : ∀ {t : Store A} {i : Inode}, Evicts E.layout (fun k => decide (k = p.key)) a t →
      a.entries.lookup p.key = none → t.volume.names.lookup (E.layout.filename p.key) = none →
      Firm E t.entries (t.volume.apply (.link (E.layout.filename p.key) i)) ∧
        ∀ {k}, (t.entries.lookup k).isSome = true → E.layout.filename p.key ≠ E.layout.filename k := by
    intro t i evicts absent free
    have other : ∀ {k}, (t.entries.lookup k).isSome = true → E.layout.filename p.key ≠ E.layout.filename k :=
      fun there => Ne.symm ((kept.evicts evicts).unnamed (missing evicts absent) free there)
    exact ⟨(firm.evicts kept evicts).apply _ (fun there => other there),other⟩
  cases linking with
  | known _ => exact firm
  | refused _ evicts =>
    have after := firm.evicts kept evicts
    exact after
  | @created t i faults absent evicts tmp free room =>
    obtain ⟨before,_⟩ := linked (i := i) evicts absent free
    have synced := before.apply .syncDirectory (fun _ => trivial)
    intro k e found
    rcases lookup_insert_some found with ⟨rfl,_⟩ | ⟨_,found⟩
    · exact ⟨i,steady_synced (names_link _ _ _) rfl⟩
    · exact synced k e found
  | @withdrawn t i faults absent evicts tmp free room =>
    obtain ⟨before,other⟩ := linked (i := i) evicts absent free
    exact before.apply (.unlink (E.layout.filename p.key)) (fun there => other there)
  | orphaned _ absent evicts tmp free room => exact (linked evicts absent free).1

theorem firm_fetching {Reads : A → File (Contents A) → Prop} {key : String} {a b : Store A} {answer : Answer A}
    (firm : Firm E a.entries a.volume) (fetched : Fetching E.layout Reads key a b answer) : Firm E b.entries b.volume := by
  cases fetched with
  | refused => exact firm
  | missed _ _ =>
    refine firm.fewer (fun {k} there => ?_)
    simp only [Store.delete] at there
    rw [lookup_erase] at there
    split at there
    · cases there
    · exact there
  | @opened touched e i file faults now found _ _ _ =>
    have inserted : Firm E (a.entries.insert key { e with accessed := now }) a.volume := by
      refine firm.fewer (fun {k} there => ?_)
      by_cases same : k = key
      · rw [same,found]; rfl
      · rwa [lookup_insert,if_neg same] at there
    cases touched with
    | true => exact inserted.apply (.touch i now) (fun _ => trivial)
    | false => exact inserted

theorem firm_step {duplicate : A → A → Nat} (tidy : Tidy law s) (balanced : Balanced law s) (owned : E.shared = false)
    (links : ∀ {p rollbackFails a b status}, E.publish p rollbackFails a = (b,status) →
      Linking E.layout E.maxTotal duplicate p rollbackFails a b status)
    (firm : Firm E s.store.entries s.store.volume) (stepped : Stepped E l s s') : Firm E s'.store.entries s'.store.volume := by
  cases step_passage tidy stepped with
  | @staging i ops _ _ calls disk entries _ =>
    rw [entries,Store.volume,disk]
    exact Disk.performs_invariant (I := fun v => Firm E s.store.entries v) firm
      (fun v op member held => held.apply op (fun {k} _ => (calls op member).passes law k))
  | @publishing t p i faults rollbackFails store status found _ ran same _ =>
    rw [same]
    exact firm_linking (a := s.enter faults) balanced.kept firm (links ran)
  | @fetching t key now status faults store _ ran same =>
    rw [same]
    exact firm_fetching (a := s.enter faults) firm (law.get ran)
  | @opening t key now faults store i a contents _ ran same =>
    rw [same]
    have after := firm_fetching (a := s.enter faults) firm (law.get ran)
    exact after
  | sending _ _ same =>
    rw [same]
    exact firm
  | vanishing shared _ =>
    rw [owned] at shared
    cases shared

end

/-! ### `New` on what a crash left -/

section
variable {A : Type} {E : Engine A}

/-- How `New` of an engine reads its directory. -/
structure Opener (law : Lawful E) (new : Volume FileName (Contents A) → Inode → List Bool → Option (Store A)) where
  keyOf : A → String
  readArtifact : File (Contents A) → Option A
  accepts : A → Bool
  keep : String → Bool
  /-- Whether the entries are few and small enough. -/
  met : Table String (Entry A) → Prop
  limits : Prop
  /-- It reads what the engine stores. -/
  reads : ∀ {k a f}, law.Good k a f.contents → f.regular = true → readArtifact f = some a ∧ keyOf a = k ∧ accepts a = true
  sound : ∀ {f a}, readArtifact f = some a → accepts a = true →
    f.regular = true ∧ E.validKey (keyOf a) = true ∧ law.Good (keyOf a) a f.contents
  tracked : ∀ {stem f}, law.Tracked (.entry stem) f
  made : ∀ {m : Mounted A} {faults s}, new m.volume m.next faults = some s → limits ∧ ∃ read t later,
    scan E.layout keyOf readArtifact accepts (items m.volume) (.fresh m.volume m.next faults) = some read ∧
    Evicts E.layout keep read t ∧ t.used ≤ E.maxTotal ∧ s = { t with faults := later }
  trims : ∀ {m : Mounted A} {faults s}, new m.volume m.next faults = some s → ∃ read,
    scan E.layout keyOf readArtifact accepts (items m.volume) (.fresh m.volume m.next faults) = some read ∧
    (read.used = usage E.layout read.entries → Minimal E.layout (fun _ => false) met read s .ok)
  starts : ∀ {m : Mounted A} {read}, limits →
    scan E.layout keyOf readArtifact accepts (items m.volume) (.fresh m.volume m.next []) = some read → read.faults = [] →
    Scanned law [] read → ∃ s, new m.volume m.next [] = some s
  owned : E.shared = false
  duplicate : A → A → Nat
  links : law.replaces = false → ∀ {p rollbackFails a b status}, E.publish p rollbackFails a = (b,status) →
    Linking E.layout E.maxTotal duplicate p rollbackFails a b status
  /-- What is acknowledged is synchronised, or was there before. -/
  acknowledges : ∀ {p rollbackFails a b}, E.publish p rollbackFails a = (b,200) →
    (Settled b.volume ∧ ∃ rest, b.log = .published p.key p.artifact p.contents :: rest) ∨
    (law.replaces = false ∧ ∃ old, a.entries.lookup p.key = some old ∧ b = a ∧ duplicate old.artifact p.artifact = 200)

variable {law : Lawful E} {new : Volume FileName (Contents A) → Inode → List Bool → Option (Store A)}
  {puts : List (Upload A)} {m : Mounted A} {faults : List Bool} {store : Store A}

theorem items_bound {v : Volume FileName (Contents A)} {n : FileName} {i : Inode} :
    (n,i) ∈ items v ↔ v.names.lookup n = some i := by
  constructor
  · intro member
    obtain ⟨row,found,same⟩ := List.mem_map.mp member
    cases same
    exact lookup_iff_entry.mpr found
  · intro found
    exact List.mem_map.mpr ⟨⟨n,i⟩,lookup_iff_entry.mp found,rfl⟩

/-- Where no call fails, `New` starts on whatever is recoverable. -/
theorem Opener.recovers (opener : Opener law new) (limits : opener.limits) (recoverable : Recoverable law puts m.volume) :
    ∃ store, new m.volume m.next [] = some store := by
  have fresh : Scanned law (items m.volume) (.fresh m.volume m.next []) := .fresh m []
  have readable : ∀ {n i}, (n,i) ∈ items m.volume → ∃ f, (Store.fresh m.volume m.next []).volume.files i = some f ∧
      Readable E.layout opener.keyOf opener.readArtifact opener.accepts n f := by
    intro n i member
    rcases recoverable n i (.inl (items_bound.mp member)) with ⟨suffix,f,rfl,file,regular⟩ | ⟨k,a,f,rfl,_,envelope⟩
    · exact ⟨f,file,regular,.inl ⟨suffix,rfl⟩⟩
    · obtain ⟨stem,named⟩ := law.entry k
      obtain ⟨read,same,accepted⟩ := opener.reads envelope.good envelope.regular
      exact ⟨f,envelope.file,envelope.regular,.inr ⟨stem,a,named,read,by rw [same],accepted⟩⟩
  obtain ⟨read,ran,calm⟩ := scan_succeeds rfl fresh.distinct fresh.here readable
  exact opener.starts limits ran calm (scan_scanned fresh ran opener.sound)

/-- The index of the envelopes of uploads that are in a directory, each with the time of
    its file. -/
def Indexes (E : Engine A) (puts : List (Upload A)) (v : Volume FileName (Contents A)) (found : Table String (Entry A)) : Prop :=
  ∀ k e, found.lookup k = some e ↔ ∃ i f, v.names.lookup (E.layout.filename k) = some i ∧ v.files i = some f ∧
    f.modified = e.accessed ∧ (⟨k,e.artifact,f.contents⟩ : Upload A) ∈ puts

/-- What `New` makes of the directory `m`: no staging files, and of the envelopes that it
    finds all but those that are gone because the budget does not take them. -/
structure Restored (E : Engine A) (met : Table String (Entry A) → Prop) (puts : List (Upload A)) (m : Mounted A) (store : Store A)
    (found : Table String (Entry A)) (gone : List String) : Prop where
  clean : ∀ n i, store.volume.names.lookup n = some i → ∃ stem, n = .entry stem
  indexes : Indexes E puts m.volume found
  trims : Trims met found store.entries gone
  whole : ∀ k e, store.entries.lookup k = some e → ∃ contents, (⟨k,e.artifact,contents⟩ : Upload A) ∈ puts ∧
    store.volume.content (E.layout.filename k) = some contents ∧ m.volume.content (E.layout.filename k) = some contents

theorem content_iff {v : Volume FileName (Contents A)} {n : FileName} {contents : Contents A} :
    v.content n = some contents ↔ ∃ i f, v.names.lookup n = some i ∧ v.files i = some f ∧ f.contents = contents := by
  simp only [Volume.content,Volume.file,Option.map_eq_some_iff,Option.bind_eq_some_iff]
  constructor
  · rintro ⟨f,⟨i,bound,file⟩,same⟩
    exact ⟨i,f,bound,file,same⟩
  · rintro ⟨i,f,bound,file,same⟩
    exact ⟨f,⟨i,bound,file⟩,same⟩

/-- An envelope has one key and one artifact. -/
theorem Opener.unique (opener : Opener law new) {k j : String} {a b : A} {f : File (Contents A)} (regular : f.regular = true)
    (first : law.Good k a f.contents) (second : law.Good j b f.contents) : k = j ∧ a = b := by
  obtain ⟨read,same,_⟩ := opener.reads first regular
  obtain ⟨read',same',_⟩ := opener.reads second regular
  rw [read] at read'
  cases read'
  exact ⟨same.symm.trans same',rfl⟩

/-- What a server that has just started knows of its directory. -/
structure Opened (law : Lawful E) (met : Table String (Entry A) → Prop) (puts : List (Upload A)) (m : Mounted A) (store : Store A) :
    Prop where
  booted : Booted law store
  unlinks : (⟨m.volume,[]⟩ : Disk FileName (Contents A)).Extends Unlinks store.disk
  published : ∀ {k a contents}, .published k a contents ∈ store.log → (⟨k,a,contents⟩ : Upload A) ∈ puts
  restored : ∃ found gone, Restored E met puts m store found gone

/-- A complete upload makes an envelope that is read again. -/
theorem Complete.good {u : Upload A} (complete : Complete E u) : law.Good u.key u.artifact u.contents := by
  obtain ⟨r,now,a,body,same,valid,started,finished,contents⟩ := complete
  rw [contents,← same]
  exact (law.finish valid started finished).1

theorem Opener.opened (opener : Opener law new) (complete : ∀ u ∈ puts, Complete E u)
    (recoverable : Recoverable law puts m.volume) (made : new m.volume m.next faults = some store) :
    Opened law opener.met puts m store := by
  obtain ⟨_,ran,minimal⟩ := opener.trims made
  obtain ⟨_,read,t,later,again,evicts,within,rfl⟩ := opener.made made
  rw [again] at ran
  obtain rfl := Option.some.inj ran
  have ran := again
  have scanned := scan_scanned (.fresh m faults) ran opener.sound
  have booted : Booted law { t with faults := later } := scanned.booted evicts within
  have blank : Timed E (.fresh m.volume m.next faults) := by
    intro k e found
    cases found
  have timed := scan_timed law blank ran
  obtain ⟨extend,new,log,told⟩ := scan_disk ran
  have first : (⟨m.volume,[]⟩ : Disk FileName (Contents A)).Extends Unlinks read.disk :=
    extend.mono (fun _ _ ⟨suffix,same⟩ => ⟨_,same⟩)
  have second : read.disk.Extends Unlinks t.disk := (evicts_disk evicts).mono (fun _ _ ⟨k,same⟩ => ⟨_,same⟩)
  obtain ⟨files,older⟩ := unlinks_kept first
  have known : ∀ {k a contents}, .published k a contents ∈ read.log → (⟨k,a,contents⟩ : Upload A) ∈ puts := by
    intro k a contents member
    rw [log] at member
    rcases List.mem_append.mp member with member | member
    · obtain ⟨n,i,b,f,bound,file,read,named,same⟩ := told _ member
      cases same
      rcases recoverable n i (.inl bound) with ⟨suffix,_,upload,_⟩ | ⟨k,a,g,rfl,_,envelope⟩
      · exact absurd (named.trans upload) (law.entry_ne _ ⟨suffix,rfl⟩)
      · have there := envelope.file
        have file : m.volume.files i = some f := file
        rw [file] at there
        cases there
        obtain ⟨again,rfl,_⟩ := opener.reads envelope.good envelope.regular
        rw [read] at again
        cases again
        exact envelope.known
    · cases member
  obtain ⟨new',log',drops⟩ := evicts_log evicts
  have published : ∀ {k a contents}, .published k a contents ∈ t.log → (⟨k,a,contents⟩ : Upload A) ∈ puts := by
    intro k a contents member
    rw [log'] at member
    rcases List.mem_append.mp member with member | member
    · obtain ⟨_,never,_⟩ := drops _ member
      cases never
    · exact known member
  -- what is recorded was there
  have recorded : ∀ {k e}, read.entries.lookup k = some e → ∃ i f, m.volume.names.lookup (E.layout.filename k) = some i ∧
      m.volume.files i = some f ∧ f.modified = e.accessed ∧ (⟨k,e.artifact,f.contents⟩ : Upload A) ∈ puts := by
    intro k e found
    obtain ⟨i,f,bound,file,time⟩ := timed k e found
    obtain ⟨g,there,_,last⟩ := (scanned.mirror k).present found bound
    rw [file] at there
    cases there
    exact ⟨i,f,older bound,(congrFun files i).symm.trans file,time,known (latest_mem last)⟩
  -- what was there is recorded under its own key
  have complete : ∀ {k a i f}, m.volume.names.lookup (E.layout.filename k) = some i → m.volume.files i = some f →
      (⟨k,a,f.contents⟩ : Upload A) ∈ puts → ∃ e, read.entries.lookup k = some e ∧ e.artifact = a := by
    intro k a i f bound file member
    have own : law.Good k a f.contents := Complete.good (complete _ member)
    rcases recoverable _ i (.inl bound) with ⟨suffix,_,upload,_⟩ | ⟨key,b,g,named,_,envelope⟩
    · exact absurd upload (law.entry_ne _ ⟨suffix,rfl⟩)
    have there := envelope.file
    rw [file] at there
    cases there
    have still : read.volume.names.lookup (E.layout.filename k) = some i := by
      refine (extend.names (fun _ op gone => ?_)).trans bound
      obtain ⟨suffix,rfl⟩ := gone
      exact Ne.symm (law.entry_ne k ⟨suffix,rfl⟩)
    have there : read.volume.files i = some f := (congrFun files i).trans file
    obtain ⟨stem,entry⟩ := law.entry k
    have tracked : law.Tracked (E.layout.filename k) f := by rw [entry]; exact opener.tracked
    obtain ⟨j,e,found,equal⟩ := (scanned.indexed still there tracked).resolve_left (by simp)
    have good : law.Good j e.artifact f.contents := by
      rcases scanned.kept.filed found with away | ⟨i',f',bound',file',good⟩
      · cases away
      · rw [equal,still] at bound'
        cases bound'
        rw [there] at file'
        cases file'
        exact good
    obtain ⟨rfl,artifact⟩ := opener.unique envelope.regular own good
    exact ⟨e,found,artifact.symm⟩
  obtain ⟨gone,trims⟩ := (minimal scanned.kept.counted).trims
  refine ⟨booted,first.trans second,published,read.entries,gone,?_,fun k e => ⟨recorded,?_⟩,trims,fun k e found => ?_⟩
  · have names : ∀ {n i}, (Store.fresh m.volume m.next faults : Store A).volume.names.lookup n = some i →
        (n,i) ∈ items m.volume ∨ ∃ stem, n = .entry stem := fun there => .inl (items_bound.mpr there)
    exact fun n i bound => scan_entries names ran ((unlinks_kept second).2 bound)
  · rintro ⟨i,f,bound,file,time,member⟩
    obtain ⟨e',found,artifact⟩ := complete bound file member
    obtain ⟨i',f',bound',file',time',_⟩ := recorded found
    rw [bound] at bound'
    cases bound'
    rw [file] at file'
    cases file'
    have same : e' = e := by
      cases e
      cases e'
      exact congrArg₂ Entry.mk artifact (time'.symm.trans time)
    rw [← same]
    exact found
  · rcases booted.balanced.kept.filed found with away | ⟨i,f,bound,file,good⟩
    · cases away
    · obtain ⟨g,there,_,last⟩ := (booted.told.mirror k).present found bound
      rw [file] at there
      cases there
      have before := older ((unlinks_kept second).2 bound)
      have file' : m.volume.files i = some f := by
        rw [← files,← (unlinks_kept second).1]
        exact file
      exact ⟨f.contents,published (latest_mem last),content_iff.mpr ⟨i,f,bound,file,rfl⟩,content_iff.mpr ⟨i,f,before,file',rfl⟩⟩

/-- An index that is emptied fits any budget. -/
theorem emptied {keep : String → Bool} {read t : Store A} (scanned : Scanned law [] read) (evicts : Evicts E.layout keep read t)
    (gone : ∀ k, t.entries.lookup k = none) : t.used = 0 := by
  have kept := scanned.kept.evicts evicts
  have empty : t.entries.entries = [] := by
    have keys := empty_of_lookup gone
    simpa [AList.keys,List.keys] using keys
  rw [kept.counted]
  simp [sumOf,empty]

end

/-! ### The engines -/

section engines

section
variable {c : Turbocache.Server}

theorem turbo_reads {k : String} {a : Turbocache.Artifact} {f : File (Contents Turbocache.Artifact)}
    (good : (turboLaw c).Good k a f.contents) (regular : f.regular = true) :
    c.readArtifact f = some a ∧ a.key = k ∧ decide (a.size ≤ c.maxEntry) = true :=
  ⟨good.2.2 _ regular rfl,good.1,decide_eq_true good.2.1⟩

theorem turbo_sound {f : File (Contents Turbocache.Artifact)} {a : Turbocache.Artifact} (read : c.readArtifact f = some a)
    (accepted : decide (a.size ≤ c.maxEntry) = true) :
    f.regular = true ∧ c.engine.validKey a.key = true ∧ (turboLaw c).Good a.key a f.contents := by
  obtain ⟨regular,body,contents,valid,_⟩ := turbo_read read
  refine ⟨regular,valid,rfl,of_decide_eq_true accepted,fun g still same => ?_⟩
  rw [← read]
  simp only [Turbocache.Server.readArtifact,still,same,regular]

theorem turbo_tracked {stem : String} {f : File (Contents Turbocache.Artifact)} : (turboLaw c).Tracked (.entry stem) f :=
  ⟨_,rfl⟩

/-- `New` evicts what it has read into the budget. -/
theorem turbo_trims {m : Mounted Turbocache.Artifact} {faults : List Bool} {s : Store Turbocache.Artifact}
    (made : c.new m.volume m.next faults = some s) : ∃ read,
      scan c.layout (fun a => a.key) c.readArtifact (fun a => decide (a.size ≤ c.maxEntry)) (items m.volume) (.fresh m.volume m.next faults) =
        some read ∧
      (read.used = usage c.layout read.entries → Minimal c.layout (fun _ => false) (Fits c.layout c.maxTotal 0) read s .ok) := by
  unfold Turbocache.Server.new at made
  split at made
  · cases made
  split at made
  · cases made
  rename_i read scanned
  split at made
  · rename_i t ended
    cases made
    exact ⟨read,scanned,fun counted => turbo_minimal counted ended⟩
  · cases made

theorem turbo_restarts {m : Mounted Turbocache.Artifact} {read : Store Turbocache.Artifact}
    (limits : 0 < c.maxEntry ∧ c.maxEntry + Turbocache.headerSize ≤ c.maxTotal)
    (ran : scan c.layout (fun a => a.key) c.readArtifact (fun a => decide (a.size ≤ c.maxEntry)) (items m.volume)
      (.fresh m.volume m.next []) = some read)
    (calm : read.faults = []) (scanned : Scanned (turboLaw c) [] read) : ∃ s, c.new m.volume m.next [] = some s := by
  have header : (Turbocache.headerSize : Int) = 4096 := rfl
  unfold Turbocache.Server.new
  rw [if_neg (by simp; omega)]
  simp only [ran]
  cases ended : c.evictLocked 0 read with
  | mk out r =>
    obtain ⟨⟨t,later,evicts,rfl⟩,_,exceeded⟩ := turbo_evictLocked ended
    cases r with
    | ok => exact ⟨_,rfl⟩
    | failed => exact absurd rfl (evict_calm calm ended)
    | exceeded =>
      obtain ⟨large,gone⟩ := exceeded rfl
      have zero := emptied scanned evicts gone
      simp only [zero] at large
      omega

/-- A PUT that answers 200 has stored its file, or has found one that is no different. -/
theorem turbo_acknowledges {p : Staged Turbocache.Artifact} {rollbackFails : Bool} {a b : Store Turbocache.Artifact}
    (ran : c.engine.publish p rollbackFails a = (b,200)) :
    (Settled b.volume ∧ ∃ rest, b.log = .published p.key p.artifact p.contents :: rest) ∨
    ((turboLaw c).replaces = false ∧ ∃ old, a.entries.lookup p.key = some old ∧ b = a ∧
      Turbocache.Server.duplicate old.artifact p.artifact = 200) := by
  have linking := turbo_linking ran
  generalize answer : 200 = status at linking
  cases linking with
  | @known old found => exact .inr ⟨rfl,old,found,rfl,rfl⟩
  | refused _ _ => cases answer
  | created _ _ _ _ _ => exact .inl ⟨⟨rfl,rfl⟩,_,rfl⟩
  | withdrawn _ _ _ _ _ => cases answer
  | orphaned _ _ _ _ _ _ => cases answer

end

section
variable {c : Nxcache.Server}

theorem nx_reads {k : String} {a : Nxcache.Artifact} {f : File (Contents Nxcache.Artifact)}
    (good : (nxLaw c).Good k a f.contents) (regular : f.regular = true) :
    c.readArtifact f = some a ∧ a.key = k ∧ decide (a.size ≤ c.maxEntry) = true :=
  ⟨good.2.2 _ regular rfl,good.1,decide_eq_true good.2.1⟩

theorem nx_sound {f : File (Contents Nxcache.Artifact)} {a : Nxcache.Artifact} (read : c.readArtifact f = some a)
    (accepted : decide (a.size ≤ c.maxEntry) = true) :
    f.regular = true ∧ c.engine.validKey a.key = true ∧ (nxLaw c).Good a.key a f.contents := by
  obtain ⟨regular,body,contents,valid,_⟩ := nx_read read
  refine ⟨regular,valid,rfl,of_decide_eq_true accepted,fun g still same => ?_⟩
  rw [← read]
  simp only [Nxcache.Server.readArtifact,still,same,regular]

theorem nx_tracked {stem : String} {f : File (Contents Nxcache.Artifact)} : (nxLaw c).Tracked (.entry stem) f :=
  ⟨_,rfl⟩

/-- `New` evicts what it has read into the budget. -/
theorem nx_trims {m : Mounted Nxcache.Artifact} {faults : List Bool} {s : Store Nxcache.Artifact}
    (made : c.new m.volume m.next faults = some s) : ∃ read,
      scan c.layout (fun a => a.key) c.readArtifact (fun a => decide (a.size ≤ c.maxEntry)) (items m.volume) (.fresh m.volume m.next faults) =
        some read ∧
      (read.used = usage c.layout read.entries → Minimal c.layout (fun _ => false) (Fits c.layout c.maxTotal 0) read s .ok) := by
  unfold Nxcache.Server.new at made
  split at made
  · cases made
  split at made
  · cases made
  rename_i read scanned
  split at made
  · rename_i t ended
    cases made
    exact ⟨read,scanned,fun counted => nx_minimal counted ended⟩
  · cases made

theorem nx_restarts {m : Mounted Nxcache.Artifact} {read : Store Nxcache.Artifact}
    (limits : 0 < c.maxEntry ∧ c.maxEntry + Nxcache.headerSize ≤ c.maxTotal)
    (ran : scan c.layout (fun a => a.key) c.readArtifact (fun a => decide (a.size ≤ c.maxEntry)) (items m.volume)
      (.fresh m.volume m.next []) = some read)
    (calm : read.faults = []) (scanned : Scanned (nxLaw c) [] read) : ∃ s, c.new m.volume m.next [] = some s := by
  have header : (Nxcache.headerSize : Int) = 4096 := rfl
  unfold Nxcache.Server.new
  rw [if_neg (by simp; omega)]
  simp only [ran]
  cases ended : c.evictLocked 0 read with
  | mk out r =>
    obtain ⟨⟨t,later,evicts,rfl⟩,_,exceeded⟩ := nx_evictLocked ended
    cases r with
    | ok => exact ⟨_,rfl⟩
    | failed => exact absurd rfl (evict_calm calm ended)
    | exceeded =>
      obtain ⟨large,gone⟩ := exceeded rfl
      have zero := emptied scanned evicts gone
      simp only [zero] at large
      omega

/-- A PUT that answers 200 has stored its file. -/
theorem nx_acknowledges {p : Staged Nxcache.Artifact} {rollbackFails : Bool} {a b : Store Nxcache.Artifact}
    (ran : c.engine.publish p rollbackFails a = (b,200)) :
    Settled b.volume ∧ ∃ rest, b.log = .published p.key p.artifact p.contents :: rest := by
  have linking := nx_linking ran
  generalize answer : 200 = status at linking
  cases linking with
  | known _ => cases answer
  | refused _ _ => cases answer
  | created _ _ _ _ _ => exact ⟨⟨rfl,rfl⟩,_,rfl⟩
  | withdrawn _ _ _ _ _ => cases answer
  | orphaned _ _ _ _ _ _ => cases answer

end

section
variable {c : Gocache.Server} {free : CollisionFree c}

theorem go_reads {k : String} {a : Gocache.Artifact} {f : File (Contents Gocache.Artifact)}
    (good : (goLaw c free).Good k a f.contents) (regular : f.regular = true) :
    c.readArtifact f = some a ∧ a.key = k ∧ (decide (a.size ≤ c.maxEntry) && decide (a.uncompressedSize ≤ c.maxEntry)) = true :=
  ⟨good.2.2 _ regular rfl,good.1,by simpa using good.2.1⟩

theorem go_sound {f : File (Contents Gocache.Artifact)} {a : Gocache.Artifact} (read : c.readArtifact f = some a)
    (accepted : (decide (a.size ≤ c.maxEntry) && decide (a.uncompressedSize ≤ c.maxEntry)) = true) :
    f.regular = true ∧ c.engine.validKey a.key = true ∧ (goLaw c free).Good a.key a f.contents := by
  obtain ⟨regular,body,contents,valid,_⟩ := go_read read
  refine ⟨regular,valid,rfl,by simpa using accepted,fun g still same => ?_⟩
  rw [← read]
  simp only [Gocache.Server.readArtifact,still,same,regular]

theorem go_tracked {stem : String} {f : File (Contents Gocache.Artifact)} : (goLaw c free).Tracked (.entry stem) f :=
  ⟨_,rfl⟩

/-- `New` evicts what it has read into the budget. -/
theorem go_trims {m : Mounted Gocache.Artifact} {faults : List Bool} {s : Store Gocache.Artifact}
    (made : c.new m.volume m.next faults = some s) : ∃ read,
      scan c.layout (fun a => a.key) c.readArtifact
        (fun a => decide (a.size ≤ c.maxEntry) && decide (a.uncompressedSize ≤ c.maxEntry)) (items m.volume)
        (.fresh m.volume m.next faults) = some read ∧
      (read.used = usage c.layout read.entries → Minimal c.layout (fun _ => false)
        (fun entries => Fits c.layout c.maxTotal 0 entries ∧ Few false entries) read s .ok) := by
  unfold Gocache.Server.new at made
  split at made
  · cases made
  split at made
  · cases made
  rename_i read scanned
  split at made
  · rename_i t ended
    cases made
    refine ⟨read,scanned,fun counted => ?_⟩
    have minimal := go_minimal counted ended
    simpa using minimal
  · cases made

theorem go_restarts {m : Mounted Gocache.Artifact} {read : Store Gocache.Artifact}
    (limits : 0 < c.maxEntry ∧ c.maxEntry + Gocache.headerSize ≤ c.maxTotal)
    (ran : scan c.layout (fun a => a.key) c.readArtifact
      (fun a => decide (a.size ≤ c.maxEntry) && decide (a.uncompressedSize ≤ c.maxEntry)) (items m.volume)
      (.fresh m.volume m.next []) = some read)
    (calm : read.faults = []) (scanned : Scanned (goLaw c free) [] read) : ∃ s, c.new m.volume m.next [] = some s := by
  have header : (Gocache.headerSize : Int) = 4096 := rfl
  unfold Gocache.Server.new
  rw [if_neg (by simp; omega)]
  simp only [ran]
  cases ended : c.evictLocked 0 none false read with
  | mk out r =>
    obtain ⟨⟨t,later,evicts,rfl⟩,_,exceeded⟩ := go_evictLocked ended
    cases r with
    | ok => exact ⟨_,rfl⟩
    | failed => exact absurd rfl (evict_calm calm ended)
    | exceeded =>
      obtain ⟨large,gone⟩ := exceeded rfl
      have zero := emptied scanned evicts (fun k => gone k (by simp))
      simp only [zero] at large
      omega

/-- A PUT that answers 200 has stored its file. -/
theorem go_acknowledges {p : Staged Gocache.Artifact} {rollbackFails : Bool} {a b : Store Gocache.Artifact}
    (ran : c.engine.publish p rollbackFails a = (b,200)) :
    Settled b.volume ∧ ∃ rest, b.log = .published p.key p.artifact p.contents :: rest := by
  rcases go_answers ran with ⟨published,synced⟩ | ⟨never,_⟩
  · obtain ⟨durable,pending⟩ := synced rfl
    exact ⟨⟨durable,pending⟩,published⟩
  · cases never

theorem go_replaces : ¬(goLaw c free).replaces = false := by
  intro kept
  cases kept

end

def turboOpener (c : Turbocache.Server) : Opener (turboLaw c) c.new where
  keyOf := fun a => a.key
  readArtifact := c.readArtifact
  accepts := fun a => a.size ≤ c.maxEntry
  keep := fun _ => false
  met := Fits c.layout c.maxTotal 0
  limits := 0 < c.maxEntry ∧ c.maxEntry + Turbocache.headerSize ≤ c.maxTotal
  reads := turbo_reads
  sound := turbo_sound
  tracked := turbo_tracked
  made := turbo_made
  trims := turbo_trims
  starts := turbo_restarts
  owned := rfl
  duplicate := Turbocache.Server.duplicate
  links := fun _ _ _ _ _ _ ran => turbo_linking ran
  acknowledges := turbo_acknowledges

def nxOpener (c : Nxcache.Server) : Opener (nxLaw c) c.new where
  keyOf := fun a => a.key
  readArtifact := c.readArtifact
  accepts := fun a => a.size ≤ c.maxEntry
  keep := fun _ => false
  met := Fits c.layout c.maxTotal 0
  limits := 0 < c.maxEntry ∧ c.maxEntry + Nxcache.headerSize ≤ c.maxTotal
  reads := nx_reads
  sound := nx_sound
  tracked := nx_tracked
  made := nx_made
  trims := nx_trims
  starts := nx_restarts
  owned := rfl
  duplicate := fun _ _ => 409
  links := fun _ _ _ _ _ _ ran => nx_linking ran
  acknowledges := fun ran => .inl (nx_acknowledges ran)

def goOpener (c : Gocache.Server) (free : CollisionFree c) : Opener (goLaw c free) c.new where
  keyOf := fun a => a.key
  readArtifact := c.readArtifact
  accepts := fun a => a.size ≤ c.maxEntry && a.uncompressedSize ≤ c.maxEntry
  keep := fun k => decide (some k = none)
  met := fun entries => Fits c.layout c.maxTotal 0 entries ∧ Few false entries
  limits := 0 < c.maxEntry ∧ c.maxEntry + Gocache.headerSize ≤ c.maxTotal
  reads := go_reads
  sound := go_sound
  tracked := go_tracked
  made := go_made
  trims := go_trims
  starts := go_restarts
  owned := rfl
  duplicate := fun _ _ => 409
  links := fun kept => absurd kept go_replaces
  acknowledges := fun ran => .inl (go_acknowledges ran)

end engines

end Expbuild.Recovery
