import Expbuild.Capacity
import Expbuild.Renderers

/-!
The bytes of a volume. A server with one upload slot whose readers keep its lock
holds no more than its entries and one staging file, so the limits that the
renderers choose fit the volume they request.
-/
namespace Expbuild.Headroom
open Expbuild.Tables Expbuild.Disks Expbuild.Engines Expbuild.Stores Expbuild.Handlers Expbuild.Accounting Expbuild.Runs
  Expbuild.Passages Expbuild.Histories Expbuild.Booting Expbuild.Laws Expbuild.Capacity Expbuild.Renderers

section
variable {A : Type} {E : Engine A}

/-- The file that a request has open. -/
def openInode : Phase A → Option Inode
  | .copying _ _ _ i _ => some i
  | .staged _ i => some i
  | .leaving _ i _ => some i
  | .reading _ i _ => some i
  | _ => none

def openInodes (s : System A) : List Inode := s.threads.entries.filterMap (fun row => openInode row.2)

/-- The bytes held on the volume: files that have a name or are still open. -/
def occupied (E : Engine A) (s : System A) : Nat :=
  s.store.volume.held (fun contents => contents.size E.layout.header) (openInodes s)

/-- The name that an upload was staged under is removed. -/
def Cleans (l : Label) : Prop := ∀ t, l ≠ .leave t true

/-- And where its publication failed, the name it was given is removed as well. -/
def Tidies (l : Label) : Prop := Cleans l ∧ Restores l

/-- An engine with one staging file, whose readers keep its lock and whose
    uploads are no longer than an entry. -/
structure Sole (E : Engine A) : Prop where
  exclusive : E.exclusive = true
  keepsLock : E.keepsLock = true
  owned : E.shared = false
  positive : 0 ≤ E.maxEntry
  limited : ∀ {r now a}, E.start r now = .ok a → (E.limit r : Int) ≤ E.maxEntry

/-- The name is one of an entry, or the one of an upload that goes on. -/
def Known (threads : Table Nat (Phase A)) (n : FileName) : Prop :=
  (∃ stem, n = .entry stem) ∨ ∃ t phase, threads.lookup t = some phase ∧ tmp phase = some n

/-- Bytes that one upload may take. -/
def Fits (E : Engine A) (contents : Contents A) : Prop :=
  (contents.size E.layout.header : Int) ≤ E.maxEntry + E.layout.header

section
variable (E)

/-- Every file is the one of an entry or a small one of an upload, and open files
    have names. -/
structure Confined (s : System A) : Prop where
  named : ∀ {n i}, s.store.volume.names.lookup n = some i → Known s.threads n
  small : ∀ {suffix i f}, s.store.volume.names.lookup (.upload suffix) = some i → s.store.volume.files i = some f →
    Fits E f.contents
  locked : ∀ {t key i a}, s.threads.lookup t = some (.reading key i a) → s.mu = some t ∧
    s.store.volume.names.lookup (E.layout.filename key) = some i
  leaving : ∀ {t name i status}, s.threads.lookup t = some (.leaving name i status) →
    ∃ n, s.store.volume.names.lookup n = some i

end

variable {law : Lawful E} {s s' : System A} {l : Label} {t : Nat} {phase : Phase A}

theorem names_create (v : Volume FileName (Contents A)) (name : FileName) (i : Inode) (file : File (Contents A)) :
    (v.apply (.create name i file)).names.lookup name = some i := by
  simp [Volume.apply,Volume.alter,Change.apply,bindName]

/-- The names that a publication leaves. -/
theorem published_names {p : Staged A} {i : Inode} {rollbackFails : Bool} {status : Nat} {store store' : Store A}
    (ran : E.publish p rollbackFails store = (store',status)) (law : Lawful E) (upload : ∃ suffix, p.tmp = .upload suffix)
    (staged : store.volume.names.lookup p.tmp = some i) :
    (∀ {n j}, store'.volume.names.lookup n = some j → store.volume.names.lookup n = some j ∨ ∃ stem, n = .entry stem) ∧
      store'.volume.files = store.volume.files := by
  obtain ⟨ops,disk,_,calls⟩ := (law.publish ran).ops staged (fun k => law.entry_ne k upload)
  have both : (∀ {n j}, (store.disk.performs ops).volume.names.lookup n = some j →
      store.volume.names.lookup n = some j ∨ ∃ stem, n = .entry stem) ∧
      (store.disk.performs ops).volume.files = store.volume.files := by
    refine Disk.performs_invariant (I := fun v => (∀ {n j}, v.names.lookup n = some j →
      store.volume.names.lookup n = some j ∨ ∃ stem, n = .entry stem) ∧ v.files = store.volume.files) ⟨.inl,rfl⟩ ?_
    rintro v op member ⟨names,files⟩
    refine ⟨fun {n j} bound => ?_,?_⟩
    · rcases lookup_apply bound with before | binds
      · exact names before
      · right
        cases calls op member with
        | unlink k => exact binds.elim
        | link =>
          obtain ⟨stem,entry⟩ := law.entry p.key
          exact ⟨stem,binds.1.symm.trans entry⟩
        | rename _ =>
          obtain ⟨stem,entry⟩ := law.entry p.key
          exact ⟨stem,binds.1.symm.trans entry⟩
        | sync => exact binds.elim
    · cases calls op member <;> exact files
  rw [Store.volume,disk]
  exact both

/-- The staged file keeps a name. -/
theorem published_bound {p : Staged A} {i : Inode} {rollbackFails : Bool} {status : Nat} {store store' : Store A}
    (ran : E.publish p rollbackFails store = (store',status)) (law : Lawful E) (upload : ∃ suffix, p.tmp = .upload suffix)
    (staged : store.volume.names.lookup p.tmp = some i) : ∃ n, store'.volume.names.lookup n = some i := by
  have published := law.publish ran
  cases replaces : law.replaces with
  | false =>
    -- nothing but evictions, links and rollbacks, under the names of entries
    obtain ⟨ops,disk,_,calls⟩ := published.ops staged (fun k => law.entry_ne k upload)
    refine ⟨p.tmp,?_⟩
    rw [Store.volume,disk]
    refine Disk.performs_invariant (I := fun v => v.names.lookup p.tmp = some i) staged (fun v op member held => ?_)
    rw [← held]
    refine names_apply ?_
    cases calls op member with
    | unlink k => exact law.entry_ne k upload
    | link => exact law.entry_ne p.key upload
    | rename renames => rw [replaces] at renames; cases renames
    | sync => trivial
  | true =>
    rw [replaces] at published
    cases published with
    | refused evicts =>
      have held := evicts.names (fun k => law.entry_ne k upload)
      exact ⟨p.tmp,held.trans staged⟩
    | @replaced synced t j faults old _ _ evicts bound _ _ =>
      rw [evicts.names (fun k => law.entry_ne k upload),staged] at bound
      cases bound
      refine ⟨E.layout.filename p.key,?_⟩
      have renamed := names_rename t.volume p.tmp (E.layout.filename p.key) i
      cases synced with
      | true => exact renamed
      | false => exact renamed
    | created never => cases never
    | withdrawn never => cases never
    | orphaned never => cases never
    | added never => cases never
    | undone never => cases never
    | stranded never => cases never

theorem Known.moved {threads : Table Nat (Phase A)} {n : FileName} (known : Known threads n)
    (own : ∀ {old}, threads.lookup t = some old → tmp old = some n → tmp phase = some n) :
    Known (threads.insert t phase) n := by
  rcases known with entry | ⟨t',phase',found,theirs⟩
  · exact .inl entry
  · by_cases same : t' = t
    · subst same
      exact .inr ⟨t',phase,by simp,own found theirs⟩
    · exact .inr ⟨t',phase',by rw [lookup_insert,if_neg same]; exact found,theirs⟩

/-- The request that goes on did not have the name, or still has it. -/
theorem Known.goes {threads : Table Nat (Phase A)} {n : FileName} {old : Phase A} (known : Known threads n)
    (found : threads.lookup t = some old) (own : tmp old = some n → tmp phase = some n) : Known (threads.insert t phase) n := by
  refine known.moved (fun {other} there named => ?_)
  rw [found] at there
  cases there
  exact own named

theorem tmp_of_free {phase : Phase A} (free : holdsSlot phase = false) : tmp phase = none := by
  cases phase with
  | copying r a name i body => cases free
  | staged p i => cases free
  | leaving name i status => cases free
  | _ => rfl

theorem touched_names {Reads : A → File (Contents A) → Prop} {key : String} {store store' : Store A} {answer : Answer A}
    (ran : Fetching E.layout Reads key store store' answer) : store'.volume.names = store.volume.names := by
  cases ran with
  | refused => rfl
  | opened touched => cases touched <;> rfl
  | missed _ _ => rfl

theorem created_names {v : Volume FileName (Contents A)} {suffix : String} {i j : Inode} (file : File (Contents A))
    {n : FileName} (bound : (v.apply (.create (.upload suffix) j file)).names.lookup n = some i) :
    v.names.lookup n = some i ∨ (n = .upload suffix ∧ i = j) := by
  rcases lookup_apply bound with before | ⟨rfl,rfl⟩
  · exact .inl before
  · exact .inr ⟨rfl,rfl⟩

theorem sealing_names (header : Option A) (body : List UInt8) (i : Inode) (now : Nat) (d : Disk FileName (Contents A)) :
    (d.performs (sealing header body i now)).volume.names = d.volume.names := by
  cases header <;> rfl

theorem Confined.named_step (confined : Confined E s) (sole : Sole E) (tidy : Tidy law s) (cleans : Cleans l)
    (stepped : Stepped E l s s') {n : FileName} {i : Inode} (bound : s'.store.volume.names.lookup n = some i) :
    Known s'.threads n := by
  -- the next request is not there yet
  have arrives : ∀ {phase : Phase A}, Known s.threads n → Known (s.threads.insert s.spawned phase) n := by
    intro phase known
    refine known.moved (fun found _ => ?_)
    exact absurd (tidy.known found) (Nat.lt_irrefl _)
  have added : ∀ {t : Nat} {phase : Phase A}, tmp phase = some n → Known (s.threads.insert t phase) n :=
    fun {t phase} mine => .inr ⟨t,phase,by simp,mine⟩
  cases stepped with
  | arrived _ => exact arrives (confined.named bound)
  | asked _ => exact arrives (confined.named bound)
  | started found _ _ => exact (confined.named bound).goes found nofun
  | ended found free =>
    refine (confined.named bound).goes found (fun named => ?_)
    rw [tmp_of_free free] at named
    cases named
  | acquired found _ => exact (confined.named bound).goes found nofun
  | refused found => exact (confined.named bound).goes found nofun
  | spoiled found _ =>
    rcases created_names _ bound with before | ⟨rfl,_⟩
    · exact (confined.named before).goes found nofun
    · exact added rfl
  | @created t r a suffix now faults found _ =>
    rcases created_names ⟨.short 0,true,false,now⟩ bound with before | ⟨rfl,_⟩
    · exact (confined.named before).goes found nofun
    · exact added rfl
  | received found _ => exact (confined.named bound).goes found (fun named => named)
  | abandoned found => exact (confined.named bound).goes found (fun named => named)
  | unsynced found _ => exact (confined.named bound).goes found (fun named => named)
  | @finished t r a a' name j body now faults later _ found _ =>
    have before : s.store.volume.names.lookup n = some i := by
      rw [← sealing_names (E.header a') body j now s.store.disk]
      exact bound
    exact (confined.named before).goes found (fun named => named)
  | @published t p j faults rollbackFails store status _ found _ ran =>
    obtain ⟨owns,_⟩ := tidy.sound found
    rcases (published_names ran law owns.upload owns.bound).1 bound with before | entry
    · exact (confined.named before).goes found (fun named => named)
    · exact .inl entry
  | @kept t name j status fault faults label stays found =>
    have free : s.store.volume.names.lookup name = none := by
      rcases stays with rfl | free
      · exact absurd label (cleans t)
      · exact free
    refine (confined.named bound).goes found (fun named => ?_)
    cases named
    rw [free] at bound
    cases bound
  | @left t name j status faults found =>
    have before := (lookup_apply bound).resolve_right (fun bind => bind)
    refine (confined.named before).goes found (fun named => ?_)
    cases named
    exact absurd ((names_unlink s.store.volume n).symm.trans bound) nofun
  | released found => exact (confined.named bound).goes found nofun
  | @fetched t key now status faults store found _ ran =>
    have same := touched_names (law.get ran)
    have before : (s.enter faults).volume.names.lookup n = some i := by rw [← same]; exact bound
    exact (confined.named before).goes found nofun
  | @opened t key now faults store j a contents found _ ran =>
    have same := touched_names (law.get ran)
    have before : (s.enter faults).volume.names.lookup n = some i := by rw [← same]; exact bound
    exact (confined.named before).goes found nofun
  | sent found _ => exact (confined.named bound).goes found nofun
  | vanished shared _ =>
    rw [sole.owned] at shared
    cases shared

theorem fits_envelope {r : Put} {a : A} {name : FileName} {i : Inode} {body whole : List UInt8} (header : Option A)
    (sole : Sole E) (tidy : Tidy law s) (found : s.threads.lookup t = some (.copying r a name i body))
    (short : whole.length ≤ E.limit r) : Fits E (.envelope header whole) := by
  obtain ⟨⟨_,now,started⟩,_⟩ := tidy.sound found
  have limited := sole.limited started
  simp only [Fits,Contents.size]
  omega

/-- A file after a write: it is the one written, or one of before. -/
theorem fits_write {v : Volume FileName (Contents A)} {i j : Inode} {contents : Contents A} {now : Nat} {f : File (Contents A)}
    (fits : Fits E contents) (others : ∀ {g}, j ≠ i → v.files i = some g → Fits E g.contents)
    (file : (v.apply (.write j contents now)).files i = some f) : Fits E f.contents := by
  simp only [Volume.apply,Volume.setFile] at file
  split at file
  · obtain ⟨g,_,rfl⟩ := Option.map_eq_some_iff.mp file
    exact fits
  · rename_i other
    exact others (Ne.symm other) file

theorem fits_create {v : Volume FileName (Contents A)} {name : FileName} {i j : Inode} {made f : File (Contents A)}
    (fits : Fits E made.contents) (others : ∀ {g}, i ≠ j → v.files i = some g → Fits E g.contents)
    (file : (v.apply (.create name j made)).files i = some f) : Fits E f.contents := by
  simp only [Volume.apply] at file
  split at file
  · cases file
    exact fits
  · rename_i other
    exact others other file

theorem fits_sealing {d : Disk FileName (Contents A)} {header : Option A} {body : List UInt8} {i j : Inode} {now : Nat}
    {f : File (Contents A)} (fits : Fits E (.envelope header body))
    (others : ∀ {g}, d.volume.files i = some g → Fits E g.contents)
    (file : (d.performs (sealing header body j now)).volume.files i = some f) : Fits E f.contents := by
  have synced : ∀ {v : Volume FileName (Contents A)}, (∀ {g}, v.files i = some g → Fits E g.contents) →
      (v.apply (.sync j)).files i = some f → Fits E f.contents := by
    intro v before there
    simp only [Volume.apply,Volume.setFile] at there
    split at there
    · obtain ⟨g,was,rfl⟩ := Option.map_eq_some_iff.mp there
      have fitted := before was
      exact fitted
    · exact before there
  cases header with
  | none => exact synced others file
  | some a => exact synced (fun there => fits_write fits (fun _ was => others was) there) file

/-- The files that a reader leaves. -/
theorem touched_files {Reads : A → File (Contents A) → Prop} {key : String} {store store' : Store A} {answer : Answer A}
    {i : Inode} {f : File (Contents A)} (ran : Fetching E.layout Reads key store store' answer)
    (file : store'.volume.files i = some f) : ∃ g, store.volume.files i = some g ∧ g.contents = f.contents := by
  cases ran with
  | refused => exact ⟨f,file,rfl⟩
  | missed _ _ => exact ⟨f,file,rfl⟩
  | @opened touched e j g faults now _ _ _ _ =>
    cases touched with
    | false => exact ⟨f,file,rfl⟩
    | true =>
      have file : (store.volume.apply (.touch j now)).files i = some f := file
      simp only [Volume.apply,Volume.setFile] at file
      split at file
      · obtain ⟨g,there,rfl⟩ := Option.map_eq_some_iff.mp file
        exact ⟨g,there,rfl⟩
      · exact ⟨f,file,rfl⟩

/-- The staging file of a request is no longer than an entry. -/
theorem Confined.small_step (confined : Confined E s) (sole : Sole E) (tidy : Tidy law s) (stepped : Stepped E l s s')
    {suffix : String} {i : Inode} {f : File (Contents A)} (bound : s'.store.volume.names.lookup (.upload suffix) = some i)
    (file : s'.store.volume.files i = some f) : Fits E f.contents := by
  have blank : Fits E (.short 0) := by
    have positive := sole.positive
    simp only [Fits,Contents.size]
    omega
  have empty : Fits E (.envelope none []) := by
    have positive := sole.positive
    simp only [Fits,Contents.size,List.length_nil]
    omega
  -- the files of before, beside the one that is new
  have older : ∀ {name : String} (made : File (Contents A)), (s.store.volume.apply
      (.create (.upload name) s.store.next made)).names.lookup (.upload suffix) = some i →
      ∀ {g}, i ≠ s.store.next → s.store.volume.files i = some g → Fits E g.contents := by
    intro name made bound g other there
    rcases created_names _ bound with before | ⟨_,same⟩
    · exact confined.small before there
    · exact absurd same other
  cases stepped with
  | @spoiled t r a name now faults _ _ => exact fits_create blank (older ⟨.short 0,true,false,now⟩ bound) file
  | @created t r a name now faults _ _ =>
    exact fits_write empty (fun _ there => fits_create blank (older ⟨.short 0,true,false,now⟩ bound) there) file
  | received found short =>
    exact fits_write (fits_envelope none sole tidy found (by simpa using short)) (fun _ there => confined.small bound there) file
  | @unsynced t r a a' name j body now faults found done =>
    obtain ⟨_,_,short,_⟩ := tidy.sound found
    exact fits_write (fits_envelope _ sole tidy found short) (fun _ there => confined.small bound there) file
  | @finished t r a a' name j body now faults later _ found done =>
    obtain ⟨_,_,short,_⟩ := tidy.sound found
    have before : s.store.volume.names.lookup (.upload suffix) = some i := by
      rw [← sealing_names (E.header a') body j now s.store.disk]
      exact bound
    exact fits_sealing (fits_envelope (E.header a') sole tidy found short) (fun there => confined.small before there) file
  | @published t p j faults rollbackFails store status _ found _ ran =>
    obtain ⟨owns,_⟩ := tidy.sound found
    obtain ⟨names,files⟩ := published_names ran law owns.upload owns.bound
    have file : store.volume.files i = some f := file
    rw [files] at file
    rcases names bound with before | ⟨stem,never⟩
    · exact confined.small before file
    · cases never
  | left found =>
    exact confined.small ((lookup_apply bound).resolve_right (fun bind => bind)) file
  | @fetched t key now status faults store found _ ran =>
    have same := touched_names (law.get ran)
    obtain ⟨g,there,contents⟩ := touched_files (law.get ran) file
    rw [← contents]
    have before : (s.enter faults).volume.names.lookup (.upload suffix) = some i := by rw [← same]; exact bound
    exact confined.small before there
  | @opened t key now faults store j a contents found _ ran =>
    have same := touched_names (law.get ran)
    obtain ⟨g,there,contents⟩ := touched_files (law.get ran) file
    rw [← contents]
    have before : (s.enter faults).volume.names.lookup (.upload suffix) = some i := by rw [← same]; exact bound
    exact confined.small before there
  | vanished shared _ =>
    rw [sole.owned] at shared
    cases shared
  | _ => exact confined.small bound file

/-- A reader keeps the lock, and so the entry its file. -/
theorem Confined.locked_step (confined : Confined E s) (sole : Sole E) (tidy : Tidy law s) (stepped : Stepped E l s s')
    {key : String} {i : Inode} {a : A} (found : s'.threads.lookup t = some (.reading key i a)) :
    s'.mu = some t ∧ s'.store.volume.names.lookup (E.layout.filename key) = some i := by
  rcases reading_step stepped found with reading | ⟨now,faults,store,contents,asked,ran,same,mu⟩
  · obtain ⟨locked,bound⟩ := confined.locked reading
    have names : s.mu ≠ none → s'.store.volume.names.lookup (E.layout.filename key) = some i := by
      intro held
      rw [← bound]
      cases step_passage tidy stepped with
      | @staging j ops _ _ calls disk _ _ =>
        rw [Store.volume,disk]
        refine Disk.performs_invariant (I := fun v => v.names.lookup (E.layout.filename key) =
          s.store.volume.names.lookup (E.layout.filename key)) rfl (fun v op member kept => ?_)
        exact (names_apply ((calls op member).passes law key)).trans kept
      | publishing _ free => exact absurd free held
      | @fetching t' key' now status faults store _ ran same =>
        have names := touched_names (law.get ran)
        rw [same,names]
        rfl
      | @opening t' key' now faults store j a contents _ ran same =>
        have names := touched_names (law.get ran)
        rw [same]
        change store.volume.names.lookup _ = _
        rw [names]
        rfl
      | sending _ _ same => rw [same]
      | vanishing shared _ =>
        rw [sole.owned] at shared
        cases shared
    refine ⟨?_,names (by simp [locked])⟩
    have mine : ∀ {t' : Nat} {mu : Option Nat}, s.mu = some t' → t' ≠ t → mu = some t := by
      intro t' mu theirs other
      rw [locked] at theirs
      exact absurd (Option.some.inj theirs).symm other
    cases stepped with
    | opened _ free _ =>
      rw [locked] at free
      cases free
    | @sent t' key' j a' file found' _ =>
      have theirs := (confined.locked found').1
      by_cases same : t' = t
      · subst same
        have ended : (s.threads.insert t' (.finished 200)).lookup t' = some (.reading key i a) := found
        simp at ended
      · exact mine theirs same
    | _ => exact locked
  · have fetched := law.get ran
    have kept := touched_names fetched
    have names : s'.store.volume.names = (s.enter faults).volume.names := by
      rw [same]
      exact kept
    generalize produced : (Answer.opened i a contents : Answer A) = answer at fetched
    cases fetched with
    | refused => cases produced
    | missed _ _ => cases produced
    | @opened touched e j file outcomes time entry bound there reads =>
      cases produced
      rw [mu,if_pos sole.keepsLock,names]
      exact ⟨rfl,bound⟩

/-- The file of an upload that ends has a name until the upload has ended. -/
theorem Confined.leaving_step (confined : Confined E s) (sole : Sole E) (tidy : Tidy law s) (stepped : Stepped E l s s')
    {name : FileName} {i : Inode} {status : Nat} (found : s'.threads.lookup t = some (.leaving name i status)) :
    ∃ n, s'.store.volume.names.lookup n = some i := by
  -- no other request has the slot meanwhile
  have alone : ∀ {t' : Nat} {phase : Phase A}, s.threads.lookup t = some (.leaving name i status) →
      s.threads.lookup t' = some phase → holdsSlot phase = true → t' = t := by
    intro t' phase mine theirs holds
    have first := tidy.slot sole.exclusive mine rfl
    rw [tidy.slot sole.exclusive theirs holds] at first
    exact Option.some.inj first
  have moved : ∀ {t' : Nat} {phase : Phase A}, (s.threads.insert t' phase).lookup t = some (.leaving name i status) →
      (t' = t ∧ phase = .leaving name i status) ∨ (t' ≠ t ∧ s.threads.lookup t = some (.leaving name i status)) := by
    intro t' phase there
    rcases lookup_insert_some there with ⟨same,equal⟩ | ⟨other,before⟩
    · exact .inl ⟨same.symm,equal.symm⟩
    · exact .inr ⟨Ne.symm other,before⟩
  -- a request that holds the slot, whose new phase has a file with a name
  have holder : ∀ {t' : Nat} {old phase : Phase A}, s.threads.lookup t' = some old → holdsSlot old = true →
      (s.threads.insert t' phase).lookup t = some (.leaving name i status) →
      (phase = .leaving name i status → ∃ n, s'.store.volume.names.lookup n = some i) →
      ∃ n, s'.store.volume.names.lookup n = some i := by
    intro t' old phase theirs holds there own
    rcases moved there with ⟨_,same⟩ | ⟨other,mine⟩
    · exact own same
    · exact absurd (alone mine theirs holds) other
  -- any other request
  have bystander : ∀ {t' : Nat} {phase : Phase A}, (s.threads.insert t' phase).lookup t = some (.leaving name i status) →
      (∀ name i status, phase ≠ .leaving name i status) → ∃ n, s.store.volume.names.lookup n = some i := by
    intro t' phase there other
    rcases moved there with ⟨_,same⟩ | ⟨_,mine⟩
    · exact absurd same (other name i status)
    · exact confined.leaving mine
  cases stepped with
  | arrived _ => exact bystander found nofun
  | asked _ => exact bystander found nofun
  | @started t' r a now pending phase _ _ becomes =>
    refine bystander found (fun name i status => ?_)
    rw [becomes]
    split <;> exact nofun
  | ended _ _ => exact bystander found nofun
  | acquired _ _ => exact bystander found nofun
  | refused _ => exact bystander found nofun
  | spoiled before _ =>
    refine holder before rfl found (fun same => ?_)
    cases same
    exact ⟨_,names_create _ _ _ _⟩
  | created before _ => exact holder before rfl found nofun
  | received before _ => exact holder before rfl found nofun
  | abandoned before =>
    obtain ⟨_,owns,_⟩ := tidy.sound before
    refine holder before rfl found (fun same => ?_)
    cases same
    exact ⟨_,owns.bound⟩
  | unsynced before _ =>
    obtain ⟨_,owns,_⟩ := tidy.sound before
    refine holder before rfl found (fun same => ?_)
    cases same
    exact ⟨_,owns.bound⟩
  | finished _ before _ => exact holder before rfl found nofun
  | @published t' p j faults rollbackFails store status' _ before _ ran =>
    obtain ⟨owns,_⟩ := tidy.sound before
    refine holder before rfl found (fun same => ?_)
    cases same
    exact published_bound ran law owns.upload owns.bound
  | kept _ _ before => exact bystander found nofun
  | left before => exact holder before rfl found nofun
  | released _ => exact bystander found nofun
  | @fetched t' key now status' faults store _ _ ran =>
    have same := touched_names (law.get ran)
    obtain ⟨n,bound⟩ := bystander found nofun
    have after : store.volume.names.lookup n = some i := by rw [same]; exact bound
    exact ⟨n,after⟩
  | @opened t' key now faults store j a contents _ _ ran =>
    have same := touched_names (law.get ran)
    obtain ⟨n,bound⟩ := bystander found nofun
    have after : store.volume.names.lookup n = some i := by rw [same]; exact bound
    exact ⟨n,after⟩
  | sent _ _ => exact bystander found nofun
  | vanished shared _ =>
    rw [sole.owned] at shared
    cases shared

/-- Every step keeps the files confined. -/
theorem Confined.step (confined : Confined E s) (sole : Sole E) (tidy : Tidy law s) (cleans : Cleans l)
    (stepped : Stepped E l s s') : Confined E s' where
  named := fun bound => confined.named_step sole tidy cleans stepped bound
  small := fun bound file => confined.small_step sole tidy stepped bound file
  locked := fun found => confined.locked_step sole tidy stepped found
  leaving := fun found => confined.leaving_step sole tidy stepped found

/-! ### Counting the bytes -/

/-- Distinct items of a list add up to no more than the list. -/
theorem sum_distinct_le {X : Type} (size : X → Nat) {xs ys : List X} (distinct : xs.Nodup) (sub : ∀ x ∈ xs, x ∈ ys) :
    (xs.map size).sum ≤ (ys.map size).sum := by
  obtain ⟨zs,perm,less⟩ := List.subperm_of_subset distinct sub
  rw [← (perm.map size).sum_eq]
  exact (less.map size).sum_le_sum (fun _ _ => Nat.zero_le _)

/-- The size of a file. -/
def sizeOf (E : Engine A) (v : Volume FileName (Contents A)) (i : Inode) : Nat :=
  ((v.files i).map (fun f => f.contents.size E.layout.header)).getD 0

/-- Where all open files have names, the names count every byte. -/
theorem occupied_le (named : ∀ i ∈ openInodes s, ∃ n, s.store.volume.names.lookup n = some i) :
    occupied E s ≤ (s.store.volume.names.entries.map (fun row => sizeOf E s.store.volume row.2)).sum := by
  have sub : ∀ i ∈ (s.store.volume.names.entries.map (fun row => row.2) ++ openInodes s).dedup,
      i ∈ s.store.volume.names.entries.map (fun row => row.2) := by
    intro i member
    rcases List.mem_append.mp (List.mem_dedup.mp member) with here | opened
    · exact here
    · obtain ⟨n,bound⟩ := named i opened
      exact List.mem_map.mpr ⟨⟨n,i⟩,lookup_iff_entry.mp bound,rfl⟩
  have bounded := sum_distinct_le (sizeOf E s.store.volume) (List.nodup_dedup _) sub
  rw [List.map_map] at bounded
  exact bounded

theorem Confined.open_named (confined : Confined E s) (tidy : Tidy law s) {i : Inode} (opened : i ∈ openInodes s) :
    ∃ n, s.store.volume.names.lookup n = some i := by
  obtain ⟨⟨t,phase⟩,member,opens⟩ := List.mem_filterMap.mp opened
  have found : s.threads.lookup t = some phase := lookup_iff_entry.mpr member
  cases phase with
  | copying r a name j body =>
    cases opens
    obtain ⟨_,owns,_⟩ := tidy.sound found
    exact ⟨name,owns.bound⟩
  | staged p j =>
    cases opens
    obtain ⟨owns,_⟩ := tidy.sound found
    exact ⟨p.tmp,owns.bound⟩
  | leaving name j status =>
    cases opens
    exact confined.leaving found
  | reading key j a =>
    cases opens
    exact ⟨_,(confined.locked found).2⟩
  | _ => cases opens

/-- Whether the name is one of an entry. -/
def isEntry : FileName → Bool
  | .entry _ => true
  | _ => false

/-- The files of the entries take what is used. -/
theorem entries_le (kept : Kept law [] s.store.entries s.store.used s.store.volume)
    (indexed : ∀ {stem i}, s.store.volume.names.lookup (.entry stem) = some i →
      ∃ k e, s.store.entries.lookup k = some e ∧ E.layout.filename k = .entry stem) :
    ((((s.store.volume.names.entries.filter (fun row => isEntry row.1)).map
      (fun row => sizeOf E s.store.volume row.2)).sum : Nat) : Int) ≤ s.store.used := by
  -- what the entry of a key charges
  let charge (k : String) : Nat := ((s.store.entries.lookup k).map (fun e => (E.layout.charge e.artifact).toNat)).getD 0
  have keyed : ∀ n : FileName, ∃ k, isEntry n = true → ∀ i, s.store.volume.names.lookup n = some i →
      k ∈ s.store.entries.keys ∧ E.layout.filename k = n ∧ sizeOf E s.store.volume i = charge k := by
    intro n
    by_cases there : isEntry n = true ∧ ∃ i, s.store.volume.names.lookup n = some i
    · obtain ⟨entry,i,bound⟩ := there
      cases n with
      | entry stem =>
        obtain ⟨k,e,found,named⟩ := indexed bound
        refine ⟨k,fun _ j bound' => ⟨AList.lookup_isSome.mp (by rw [found]; rfl),named,?_⟩⟩
        rw [bound] at bound'
        cases bound'
        rcases kept.filed found with away | ⟨i',f,there,file,good⟩
        · cases away
        · rw [named,bound] at there
          cases there
          simp only [charge,sizeOf,found,file,Option.map_some,Option.getD_some,law.charge good,Int.toNat_natCast]
      | upload suffix => cases entry
      | other name => cases entry
    · exact ⟨"",fun entry i bound => absurd ⟨entry,i,bound⟩ there⟩
  choose key keyed using keyed
  have row : ∀ x ∈ s.store.volume.names.entries.filter (fun row => isEntry row.1),
      key x.1 ∈ s.store.entries.keys ∧ E.layout.filename (key x.1) = x.1 ∧ sizeOf E s.store.volume x.2 = charge (key x.1) := by
    intro x member
    obtain ⟨here,entry⟩ := List.mem_filter.mp member
    exact keyed x.1 entry x.2 (lookup_iff_entry.mpr here)
  have distinct : ((s.store.volume.names.entries.filter (fun row => isEntry row.1)).map (fun row => key row.1)).Nodup := by
    refine List.Nodup.map_on ?_ (List.Nodup.filter _ s.store.volume.names.nodupKeys.nodup)
    intro x first y second same
    have name : x.1 = y.1 := by rw [← (row x first).2.1,← (row y second).2.1,same]
    have here := lookup_iff_entry.mpr (List.mem_filter.mp first).1
    rw [name,lookup_iff_entry.mpr (List.mem_filter.mp second).1] at here
    exact Sigma.ext name (heq_of_eq (Option.some.inj here).symm)
  have bounded := sum_distinct_le charge distinct (fun k member => by
    obtain ⟨x,here,rfl⟩ := List.mem_map.mp member
    exact (row x here).1)
  have same : (s.store.volume.names.entries.filter (fun row => isEntry row.1)).map (fun row => sizeOf E s.store.volume row.2) =
      ((s.store.volume.names.entries.filter (fun row => isEntry row.1)).map (fun row => key row.1)).map charge := by
    rw [List.map_map]
    exact List.map_congr_left (fun x member => (row x member).2.2)
  have total : ((s.store.entries.keys.map charge).sum : Int) = s.store.used := by
    rw [kept.counted]
    simp only [sumOf,AList.keys,List.keys,List.map_map]
    rw [Nat.cast_list_sum,List.map_map]
    refine congrArg List.sum (List.map_congr_left (fun x member => ?_))
    have found : s.store.entries.lookup x.1 = some x.2 := lookup_iff_entry.mpr member
    have charged := kept.charged found
    simp only [Function.comp,charge,found,Option.map_some,Option.getD_some]
    omega
  rw [same,← total]
  exact_mod_cast bounded

/-- One upload has a staging file at a time. -/
theorem staging_le (sole : Sole E) (tidy : Tidy law s) (confined : Confined E s) :
    ((((s.store.volume.names.entries.filter (fun row => !isEntry row.1)).map
      (fun row => sizeOf E s.store.volume row.2)).sum : Nat) : Int) ≤ E.maxEntry + E.layout.header := by
  have positive := sole.positive
  have row : ∀ x ∈ s.store.volume.names.entries.filter (fun row => !isEntry row.1),
      s.store.volume.names.lookup x.1 = some x.2 ∧ ∃ t phase suffix, s.threads.lookup t = some phase ∧ tmp phase = some x.1 ∧
        holdsSlot phase = true ∧ x.1 = .upload suffix := by
    intro x member
    obtain ⟨here,other⟩ := List.mem_filter.mp member
    have bound : s.store.volume.names.lookup x.1 = some x.2 := lookup_iff_entry.mpr here
    refine ⟨bound,?_⟩
    rcases confined.named bound with ⟨stem,entry⟩ | ⟨t,phase,found,named⟩
    · rw [entry] at other
      cases other
    · obtain ⟨suffix,upload⟩ := (tidy.sound found).upload named
      refine ⟨t,phase,suffix,found,named,?_,upload⟩
      cases held : holdsSlot phase with
      | true => rfl
      | false => rw [tmp_of_free held] at named; cases named
  have single : ∀ x ∈ s.store.volume.names.entries.filter (fun row => !isEntry row.1),
      ∀ y ∈ s.store.volume.names.entries.filter (fun row => !isEntry row.1), x = y := by
    intro x first y second
    obtain ⟨bound,t,phase,_,found,named,held,_⟩ := row x first
    obtain ⟨bound',t',phase',_,found',named',held',_⟩ := row y second
    have slot := tidy.slot sole.exclusive found held
    rw [tidy.slot sole.exclusive found' held'] at slot
    obtain rfl := Option.some.inj slot
    rw [found] at found'
    cases found'
    rw [named] at named'
    have name : x.1 = y.1 := Option.some.inj named'
    rw [name,bound'] at bound
    exact Sigma.ext name (heq_of_eq (Option.some.inj bound).symm)
  have distinct := List.Nodup.filter (fun row => !isEntry row.1) s.store.volume.names.nodupKeys.nodup
  generalize s.store.volume.names.entries.filter (fun row => !isEntry row.1) = rows at row single distinct
  cases rows with
  | nil => simp; omega
  | cons x rest =>
    cases rest with
    | cons y more =>
      have same := single x List.mem_cons_self y (List.mem_cons_of_mem _ List.mem_cons_self)
      rw [same] at distinct
      exact absurd List.mem_cons_self (List.nodup_cons.mp distinct).1
    | nil =>
      obtain ⟨bound,_,_,suffix,_,_,_,upload⟩ := row x List.mem_cons_self
      obtain ⟨_,f,file⟩ := tidy.allocated x.1 x.2 (.inl bound)
      rw [upload] at bound
      have fits := confined.small bound file
      simp only [Fits] at fits
      simpa [sizeOf,file] using fits

theorem sum_partition {X : Type} (size : X → Nat) (which : X → Bool) (xs : List X) :
    (xs.map size).sum = ((xs.filter which).map size).sum + ((xs.filter (fun x => !which x)).map size).sum := by
  induction xs with
  | nil => rfl
  | cons x rest ih =>
    cases chosen : which x with
    | true => simp [chosen,ih]; omega
    | false => simp [chosen,ih]; omega

section
variable (law)

/-- The invariant of a server with one upload slot. -/
structure Roomy (s : System A) : Prop where
  sane : Sane law s
  confined : Confined E s

end

/-- The volume holds the budget, one entry and its header at most. -/
theorem Roomy.occupied_bound (roomy : Roomy law s) (sole : Sole E)
    (tracked : ∀ {stem f}, law.Tracked (.entry stem) f) :
    (occupied E s : Int) ≤ E.maxTotal + E.maxEntry + E.layout.header := by
  have counted : occupied E s ≤ _ := occupied_le (fun i opened => roomy.confined.open_named roomy.sane.tidy opened)
  rw [sum_partition _ (fun row => isEntry row.1)] at counted
  have sole' := roomy.sane.balanced.kept.alone sole.owned
  have kept := roomy.sane.balanced.kept
  rw [sole'] at kept
  have entries := entries_le kept (fun {stem i} bound => by
    obtain ⟨_,f,file⟩ := roomy.sane.tidy.allocated _ i (.inl bound)
    exact roomy.sane.indexed _ i f bound file tracked)
  have staging := staging_le sole roomy.sane.tidy roomy.confined
  have within := roomy.sane.balanced.within
  omega

/-! ### The directory that `New` leaves -/

/-- A server that has just read its directory. -/
theorem confined_boot {keyOf : A → String} {readArtifact : File (Contents A) → Option A} {accepts : A → Bool}
    {m : Mounted A} {faults later : List Bool} {read t : Store A} {keep : String → Bool}
    (ran : scan E.layout keyOf readArtifact accepts (items m.volume) (.fresh m.volume m.next faults) = some read)
    (evicts : Evicts E.layout keep read t) : Confined E (.boot { t with faults := later }) := by
  have entries : ∀ {n i}, t.volume.names.lookup n = some i → ∃ stem, n = .entry stem := by
    refine evicts.invariant (I := fun t => ∀ {n i}, t.volume.names.lookup n = some i → ∃ stem, n = .entry stem)
      (fun bound => scan_entries (fun {n i} there => ?_) ran bound) ?_
    · exact .inl (List.mem_map.mpr ⟨⟨n,i⟩,lookup_iff_entry.mp there,rfl⟩)
    · intro t k e held _ _ n i bound
      rcases dropKey_volume E.layout k t with unlinked | ⟨_,same⟩
      · rw [unlinked] at bound
        exact held ((lookup_apply bound).resolve_right (fun bind => bind))
      · rw [same] at bound
        exact held bound
  refine ⟨fun bound => .inl (entries bound),fun {suffix i f} bound _ => ?_,nofun,nofun⟩
  obtain ⟨stem,never⟩ := entries bound
  cases never

/-- The states that the server reaches in steps of a kind. -/
abbrev Reached (E : Engine A) (kind : Label → Prop) (store : Store A) (s : System A) : Prop :=
  Reaches (step E) (fun _ l => kind l) (.boot store) s

theorem roomy_reached {kind : Label → Prop} {store : Store A} (booted : Booted law store) (confined : Confined E (.boot store))
    (sole : Sole E) (cleans : ∀ {l}, kind l → Cleans l)
    (sane : ∀ {s s' l}, Sane law s → kind l → step E l s = some s' → Sane law s')
    (reached : Reached E kind store s) : Roomy law s := by
  refine reached.invariant (I := Roomy law) ⟨⟨booted.tidy,booted.balanced,booted.indexed⟩,confined⟩ ?_
  intro s s' l roomy may moved
  exact ⟨sane roomy.sane may moved,roomy.confined.step sole roomy.sane.tidy (cleans may) (step_stepped moved)⟩

/-- The rendered limits are accepted, and whatever the server does with them in steps of
    a kind, its volume never holds more than the budget, one entry and a header. -/
def Houses (E : Engine A) (kind : Label → Prop) (new : Volume FileName (Contents A) → Inode → List Bool → Option (Store A))
    (out : Rendered) : Prop :=
  (new blank.volume 0 []).isSome = true ∧
  ∀ (m : Mounted A) faults store s, new m.volume m.next faults = some store → Reached E kind store s →
    (occupied E s : Int) ≤ out.maxTotal + out.maxEntry + 4096

/-- The loop of an eviction that has nothing to do. -/
theorem evict_idle {L : Layout A} {enough fits : Store A → Bool} {store : Store A} (empty : store.entries = ∅)
    (fitting : fits store = true) (keep : String → Bool) : evict L enough fits (store.oldest keep) store = (store,.ok) := by
  have nothing : store.oldest keep = [] := by
    simp [Store.oldest,empty]
  rw [nothing]
  simp [evict,fitting]

end

section engines
variable {k : Library} {config : Config} {out : Rendered}

theorem turbo_sole {c : Turbocache.Server} (positive : 0 < c.maxEntry) : Sole c.engine where
  exclusive := rfl
  keepsLock := rfl
  owned := rfl
  positive := le_of_lt positive
  limited := by
    intro r now a started
    have started : c.start r now = .ok a := started
    change (r.contentLength.toNat : Int) ≤ c.maxEntry
    unfold Turbocache.Server.start at started
    split at started
    · cases started
    split at started
    · cases started
    omega

/-- On an empty directory the server starts with these limits. -/
theorem turbo_starts {c : Turbocache.Server} (limits : 0 < c.maxEntry ∧ c.maxEntry + Turbocache.headerSize ≤ c.maxTotal) :
    c.new blank.volume 0 [] = some (.fresh blank.volume 0 []) := by
  have within : 0 ≤ c.maxTotal := by omega
  have header : (Turbocache.headerSize : Int) = 4096 := rfl
  have scanned : scan c.layout (fun a => a.key) c.readArtifact (fun a => decide (a.size ≤ c.maxEntry))
      (items (blank : Mounted Turbocache.Artifact).volume) (.fresh blank.volume 0 []) = some (.fresh blank.volume 0 []) := rfl
  have idle : c.evictLocked 0 (.fresh (blank : Mounted Turbocache.Artifact).volume 0 []) =
      (.fresh blank.volume 0 [],.ok) := evict_idle rfl (by simpa [Store.fresh] using within) _
  unfold Turbocache.Server.new
  rw [if_neg (by simp; omega)]
  simp only [scanned]
  rw [idle]

theorem turbo_houses {c : Turbocache.Server} (limits : 0 < c.maxEntry ∧ c.maxEntry + Turbocache.headerSize ≤ c.maxTotal)
    (entry : c.maxEntry = out.maxEntry) (total : c.maxTotal = out.maxTotal) : Houses c.engine Tidies c.new out := by
  have sole := turbo_sole limits.1
  refine ⟨by rw [turbo_starts limits]; rfl,fun m faults store s made reached => ?_⟩
  obtain ⟨_,read,t,later,scanned,evicts,_,rfl⟩ := turbo_made made
  have roomy := roomy_reached (turbo_new made).2 (confined_boot (E := c.engine) scanned evicts) sole (fun tidies => tidies.1)
    (fun sane tidies moved => sane.step tidies.2 moved) reached
  have bound := roomy.occupied_bound sole (fun {stem f} => ⟨stem,rfl⟩)
  rw [← entry,← total]
  exact bound

theorem nx_sole {c : Nxcache.Server} (positive : 0 < c.maxEntry) : Sole c.engine where
  exclusive := rfl
  keepsLock := rfl
  owned := rfl
  positive := le_of_lt positive
  limited := by
    intro r now a started
    have started : c.start r now = .ok a := started
    change (r.contentLength.toNat : Int) ≤ c.maxEntry
    unfold Nxcache.Server.start at started
    split at started
    · cases started
    split at started
    · cases started
    omega

/-- On an empty directory the server starts with these limits. -/
theorem nx_starts {c : Nxcache.Server} (limits : 0 < c.maxEntry ∧ c.maxEntry + Nxcache.headerSize ≤ c.maxTotal) :
    c.new blank.volume 0 [] = some (.fresh blank.volume 0 []) := by
  have within : 0 ≤ c.maxTotal := by omega
  have header : (Nxcache.headerSize : Int) = 4096 := rfl
  have scanned : scan c.layout (fun a => a.key) c.readArtifact (fun a => decide (a.size ≤ c.maxEntry))
      (items (blank : Mounted Nxcache.Artifact).volume) (.fresh blank.volume 0 []) = some (.fresh blank.volume 0 []) := rfl
  have idle : c.evictLocked 0 (.fresh (blank : Mounted Nxcache.Artifact).volume 0 []) =
      (.fresh blank.volume 0 [],.ok) := evict_idle rfl (by simpa [Store.fresh] using within) _
  unfold Nxcache.Server.new
  rw [if_neg (by simp; omega)]
  simp only [scanned]
  rw [idle]

theorem nx_houses {c : Nxcache.Server} (limits : 0 < c.maxEntry ∧ c.maxEntry + Nxcache.headerSize ≤ c.maxTotal)
    (entry : c.maxEntry = out.maxEntry) (total : c.maxTotal = out.maxTotal) : Houses c.engine Tidies c.new out := by
  have sole := nx_sole limits.1
  refine ⟨by rw [nx_starts limits]; rfl,fun m faults store s made reached => ?_⟩
  obtain ⟨_,read,t,later,scanned,evicts,_,rfl⟩ := nx_made made
  have roomy := roomy_reached (nx_new made).2 (confined_boot (E := c.engine) scanned evicts) sole (fun tidies => tidies.1)
    (fun sane tidies moved => sane.step tidies.2 moved) reached
  have bound := roomy.occupied_bound sole (fun {stem f} => ⟨stem,rfl⟩)
  rw [← entry,← total]
  exact bound

theorem go_sole {c : Gocache.Server} (positive : 0 < c.maxEntry) : Sole c.engine where
  exclusive := rfl
  keepsLock := rfl
  owned := rfl
  positive := le_of_lt positive
  limited := by
    intro r now a started
    have started : c.start r now = .ok a := started
    change (r.contentLength.toNat : Int) ≤ c.maxEntry
    unfold Gocache.Server.start at started
    split at started
    · cases started
    split at started
    · cases started
    split at started
    · cases started
    omega

/-- On an empty directory the server starts with these limits. -/
theorem go_starts {c : Gocache.Server} (limits : 0 < c.maxEntry ∧ c.maxEntry + Gocache.headerSize ≤ c.maxTotal) :
    c.new blank.volume 0 [] = some (.fresh blank.volume 0 []) := by
  have within : 0 ≤ c.maxTotal := by omega
  have header : (Gocache.headerSize : Int) = 4096 := rfl
  have scanned : scan c.layout (fun a => a.key) c.readArtifact (fun a => decide (a.size ≤ c.maxEntry) && decide (a.uncompressedSize ≤ c.maxEntry))
      (items (blank : Mounted Gocache.Artifact).volume) (.fresh blank.volume 0 []) = some (.fresh blank.volume 0 []) := rfl
  have idle : c.evictLocked 0 none false (.fresh (blank : Mounted Gocache.Artifact).volume 0 []) =
      (.fresh blank.volume 0 [],.ok) := evict_idle rfl (by simpa [Store.fresh] using within) _
  unfold Gocache.Server.new
  rw [if_neg (by simp; omega)]
  simp only [scanned]
  rw [idle]

/-- A renamed file has no other name, so there is no rollback that could fail. -/
theorem go_sane {c : Gocache.Server} {free : CollisionFree c} {s s' : System Gocache.Artifact} {l : Label}
    (sane : Sane (goLaw c free) s) (moved : step c.engine l s = some s') : Sane (goLaw c free) s' := by
  cases l with
  | publish t faults rollbackFails =>
    have same : step c.engine (.publish t faults false) s = some s' := moved
    exact sane.step (by rintro _ _ ⟨⟩) same
  | _ => exact sane.step (by rintro _ _ ⟨⟩) moved

theorem go_houses {c : Gocache.Server} (free : CollisionFree c) (limits : 0 < c.maxEntry ∧ c.maxEntry + Gocache.headerSize ≤ c.maxTotal)
    (entry : c.maxEntry = out.maxEntry) (total : c.maxTotal = out.maxTotal) : Houses c.engine Cleans c.new out := by
  have sole := go_sole limits.1
  refine ⟨by rw [go_starts limits]; rfl,fun m faults store s made reached => ?_⟩
  obtain ⟨_,read,t,later,scanned,evicts,_,rfl⟩ := go_made made
  have roomy := roomy_reached (go_new free made).2 (confined_boot (E := c.engine) scanned evicts) sole id
    (fun sane _ moved => go_sane sane moved) reached
  have bound := roomy.occupied_bound sole (fun {stem f} => ⟨stem,rfl⟩)
  rw [← entry,← total]
  exact bound

/-- The limits of a rendered configuration fit its engine and its volume, where the two
    engines that link their files also remove a name whose directory is not synchronised. -/
theorem volume_headroom (k : Library) (values : k.Exact) (config : Config) (out : Rendered) :
    (∀ c : Turbocache.Server, turboRender k config = .ok out → c.maxEntry = out.maxEntry → c.maxTotal = out.maxTotal →
      Houses c.engine Tidies c.new out ∧ k.parseQuantity config.capacity = some out.requested ∧
        ((out.maxTotal + out.maxEntry + 4096 : Int) : ℚ) ≤ out.requested) ∧
    (∀ c : Nxcache.Server, nxRender k config = .ok out → c.maxEntry = out.maxEntry → c.maxTotal = out.maxTotal →
      Houses c.engine Tidies c.new out ∧ k.parseQuantity config.capacity = some out.requested ∧
        ((out.maxTotal + out.maxEntry + 4096 : Int) : ℚ) ≤ out.requested) ∧
    (∀ c : Gocache.Server, CollisionFree c → goRender k config = .ok out → c.maxEntry = out.maxEntry →
      c.maxTotal = out.maxTotal →
      Houses c.engine Cleans c.new out ∧ k.parseQuantity config.capacity = some out.requested ∧
        ((out.maxTotal + out.maxEntry + 4096 : Int) : ℚ) ≤ out.requested) := by
  refine ⟨fun c rendered entry total => ?_,fun c rendered entry total => ?_,fun c free rendered entry total => ?_⟩
  · obtain ⟨positive,fits,requested,room⟩ := renderCache_limits values rendered
    rw [← entry] at positive fits
    rw [← total] at fits
    exact ⟨turbo_houses ⟨positive,fits⟩ entry total,requested,room⟩
  · obtain ⟨positive,fits,requested,room⟩ := renderCache_limits values rendered
    rw [← entry] at positive fits
    rw [← total] at fits
    exact ⟨nx_houses ⟨positive,fits⟩ entry total,requested,room⟩
  · obtain ⟨positive,fits,requested,room⟩ := renderCache_limits values rendered
    rw [← entry] at positive fits
    rw [← total] at fits
    exact ⟨go_houses free ⟨positive,fits⟩ entry total,requested,room⟩

end engines

/-! ### A rendered configuration -/

/-- The quantities of the configuration below. -/
def library : Library where
  isDNS1123Label := fun name => name = "cache" || name = "project"
  isDNS1123Subdomain := fun name => name = "auth" || name = "standard"
  isValidLabelValue := fun value => value = "id"
  parseQuantity := fun text => if text = "2Gi" then some 2147483648 else if text = "1Gi" then some 1073741824 else none
  asInt64 := fun text => if text = "2Gi" then some 2147483648 else if text = "1Gi" then some 1073741824 else none

theorem library_exact : library.Exact := by
  intro text n whole
  simp only [library] at whole ⊢
  split at whole
  · rename_i two
    cases whole
    exact ⟨by rw [if_pos two]; rfl,by decide,by decide⟩
  · rename_i notTwo
    split at whole
    · rename_i one
      cases whole
      exact ⟨by rw [if_neg notTwo,if_pos one]; rfl,by decide,by decide⟩
    · cases whole

def config : Config where
  readOnly := false
  name := "cache"
  namespace_ := "project"
  instanceID := "id"
  projectID := "id"
  image := "registry/cache@sha256:" ++ String.ofList (List.replicate 64 '0')
  storageClass := "standard"
  capacity := "2Gi"
  maxCacheGiB := 1
  credentialsSecret := "auth"
  desiredState := "Running"
  resources := ⟨[("cpu",1),("memory",1)],[("cpu",1),("memory",1)],[]⟩

/-- What is rendered, if anything is. -/
def renderedBy (render : Library → Config → Except String Rendered) : Rendered :=
  match render library config with
  | .ok out => out
  | .error _ => ⟨[],0,0,0⟩

theorem rendered_ok {render : Library → Config → Except String Rendered} (ok : (render library config).toBool = true) :
    render library config = .ok (renderedBy render) := by
  unfold renderedBy
  cases made : render library config with
  | error message => rw [made] at ok; cases ok
  | ok out => rfl

theorem volume_headroom_rendered :
    (∃ out, turboRender library config = .ok out ∧ out.maxEntry = 256 * 2 ^ 20 ∧
      Houses (⟨digest,out.maxEntry,out.maxTotal⟩ : Turbocache.Server).engine Tidies
        (⟨digest,out.maxEntry,out.maxTotal⟩ : Turbocache.Server).new out) ∧
    (∃ out, nxRender library config = .ok out ∧
      Houses (⟨digest,out.maxEntry,out.maxTotal⟩ : Nxcache.Server).engine Tidies
        (⟨digest,out.maxEntry,out.maxTotal⟩ : Nxcache.Server).new out) ∧
    (∃ out, goRender library config = .ok out ∧
      Houses (⟨digest,fun _ => "",out.maxEntry,out.maxTotal,false⟩ : Gocache.Server).engine Cleans
        (⟨digest,fun _ => "",out.maxEntry,out.maxTotal,false⟩ : Gocache.Server).new out) := by
  refine ⟨⟨_,rendered_ok (by decide +kernel),by decide +kernel,?_⟩,⟨_,rendered_ok (by decide +kernel),?_⟩,
    ⟨_,rendered_ok (by decide +kernel),?_⟩⟩
  · exact ((volume_headroom library library_exact config _).1 _ (rendered_ok (by decide +kernel)) rfl rfl).1
  · exact ((volume_headroom library library_exact config _).2.1 _ (rendered_ok (by decide +kernel)) rfl rfl).1
  · refine ((volume_headroom library library_exact config _).2.2 _ ?_ (rendered_ok (by decide +kernel)) rfl rfl).1
    exact goServer_free

/-! ### Names that stay

Where the rollback fails as well, the name stays and nothing counts its file: a server
that has no entries fills its volume.
-/

section litter
open Expbuild.Turbocache (Artifact Server)
variable {c : Server} {body : List UInt8} {r : Put} {a a' : Artifact} {put : Nat → Put} {artifact : Nat → Artifact} {total n : Nat}
  {s : System Artifact}

/-- The calls that stage an upload. -/
def stagingOps (i : Inode) (body : List UInt8) (a : Artifact) : List (Op FileName (Contents Artifact)) :=
  [.create (.upload "1") i ⟨.short 0,true,false,2⟩,.write i (.envelope none []) 2,.write i (.envelope none body) 3,
    .write i (.envelope (some a) body) 4,.sync i]

theorem reaches_staged (valid : Turbocache.validKey r.key = true) (started : c.start r 1 = .ok a) (finished : c.finish r a body = .ok a')
    (short : body.length ≤ r.contentLength.toNat) (slot : s.slot = none) (mu : s.mu = none)
    (free : s.store.volume.names.lookup (.upload "1") = none) :
    ∃ s' t, Reaches (step c.engine) (fun _ l => Cleans l) s s' ∧
      s'.threads.lookup t = some (.staged ⟨r.key,a',.upload "1",.envelope (some a') body,4⟩ s.store.next) ∧ s'.mu = none ∧ s'.slot = some t ∧
      s'.store =
        ⟨s.store.entries,s.store.used,s.store.disk.performs (stagingOps s.store.next body a'),s.store.next + 1,[],s.store.log⟩ := by
  let t := s.spawned
  let i := s.store.next
  let s₁ := s.spawn (.arrived r)
  have arrived : step c.engine (.put r) s = some s₁ := if_pos valid
  let s₂ := s₁.setPhase t (.queued r a)
  have queued : step c.engine (.start t 1) s₁ = some s₂ := by
    have found : s₁.threads.lookup t = some (.arrived r) := AList.lookup_insert _
    have started : c.engine.start r 1 = .ok a := started
    simp only [step,found,started]
    rfl
  let s₃ := { s₂.setPhase t (.admitted r a) with slot := some t }
  have acquired : step c.engine (.acquire t) s₂ = some s₃ := by
    have found : s₂.threads.lookup t = some (.queued r a) := AList.lookup_insert _
    have slot : s₂.slot = none := slot
    simp only [step,found,slot]
    rfl
  let s₄ := { s₃.setPhase t (.copying r a (.upload "1") i []) with
    store := { (((s₃.enter []).perform (.create (.upload "1") i ⟨.short 0,true,false,2⟩)).perform (.write i (.envelope none []) 2)) with
      next := i + 1 } }
  have created : step c.engine (.create t "1" 2 []) s₃ = some s₄ := by
    have found : s₃.threads.lookup t = some (.admitted r a) := AList.lookup_insert _
    have free : s₃.store.volume.names.lookup (.upload "1") = none := free
    simp only [step,found,free]
    rfl
  let s₅ := { s₄.setPhase t (.copying r a (.upload "1") i body) with store := s₄.store.perform (.write i (.envelope none body) 3) }
  have received : step c.engine (.receive t body 3 false) s₄ = some s₅ := by
    have found : s₄.threads.lookup t = some (.copying r a (.upload "1") i []) := AList.lookup_insert _
    have short : ([] : List UInt8).length + body.length ≤ c.engine.limit r := by
      rw [List.length_nil,Nat.zero_add]
      exact short
    simp only [step,found,if_pos short]
    rfl
  let s₆ := { s₅.setPhase t (.staged ⟨r.key,a',.upload "1",.envelope (some a') body,4⟩ i) with
    store := ((s₅.enter []).perform (.write i (.envelope (some a') body) 4)).perform (.sync i) }
  have sealed : step c.engine (.finish t 4 []) s₅ = some s₆ := by
    have found : s₅.threads.lookup t = some (.copying r a (.upload "1") i body) := AList.lookup_insert _
    have finished : c.engine.finish r a body = .ok a' := finished
    simp only [step,found,finished]
    rfl
  refine ⟨s₆,t,?_,AList.lookup_insert _,mu,rfl,rfl⟩
  exact .head (by rintro _ ⟨⟩) arrived (.head (by rintro _ ⟨⟩) queued (.head (by rintro _ ⟨⟩) acquired
    (.head (by rintro _ ⟨⟩) created (.head (by rintro _ ⟨⟩) received (.head (by rintro _ ⟨⟩) sealed .refl)))))

theorem leaves_name {t : Nat} {p : Staged Artifact} {i : Inode} (found : s.threads.lookup t = some (.staged p i)) (mu : s.mu = none)
    (slot : s.slot = some t) (empty : s.store.entries = ∅) (unused : s.store.used = 0)
    (room : c.layout.charge p.artifact ≤ c.maxTotal) (staged : s.store.volume.names.lookup p.tmp = some i)
    (free : s.store.volume.names.lookup (c.filename p.key) = none) (other : c.filename p.key ≠ p.tmp) :
    ∃ s', Reaches (step c.engine) (fun _ l => Cleans l) s s' ∧ s'.mu = none ∧ s'.slot = none ∧
      s'.store = ⟨s.store.entries,s.store.used,s.store.disk.performs [.link (c.filename p.key) i,.unlink p.tmp],s.store.next,[],
        s.store.log⟩ := by
  let s₁ := { s.setPhase t (.leaving p.tmp i 503) with
    store := { (s.enter []).perform (.link (c.filename p.key) i) with faults := [] }
    vanished := s.vanished.filter (fun key => (((s.enter []).perform (.link (c.filename p.key) i)).volume.names.lookup
      (c.filename key)).isNone) }
  have published : step c.engine (.publish t [false,true] true) s = some s₁ := by
    have bare : (s.enter [false,true]).entries = ∅ := empty
    have idle : c.evictLocked (c.layout.charge p.artifact) (s.enter [false,true]) = (s.enter [false,true],.ok) :=
      evict_idle bare (decide_eq_true (by simpa [System.enter,unused] using room)) _
    have absent : (s.enter [false,true]).entries.lookup p.key = none := by
      rw [bare]
      rfl
    have ran : c.engine.publish p true (s.enter [false,true]) = (s₁.store,503) := by
      show addEntry c.layout c.evictLocked Server.duplicate p true _ = _
      have staged : (s.enter [true]).volume.names.lookup p.tmp = some i := staged
      have free : (s.enter [true]).volume.names.lookup (c.layout.filename p.key) = none := free
      have linked : (s.enter [false,true]).link p.tmp (c.layout.filename p.key) =
          ((s.enter [true]).perform (.link (c.layout.filename p.key) i),.ok) := by
        simp only [Store.link,Store.fails,System.enter] at staged free ⊢
        simp only [staged,free]
      simp only [addEntry,absent,idle,linked]
      rfl
    simp only [step,found,mu,ran]
    rfl
  let s₂ := { s₁.setPhase t (.releasing 503) with store := { s₁.store.perform (.unlink p.tmp) with faults := [] } }
  have left : step c.engine (.leave t false) s₁ = some s₂ := by
    have found : s₁.threads.lookup t = some (.leaving p.tmp i 503) := AList.lookup_insert _
    have bound : (s₁.enter []).volume.names.lookup p.tmp = some i := by
      show (s.store.volume.apply (.link (c.filename p.key) i)).names.lookup p.tmp = some i
      rw [names_apply (show (Op.link (c.filename p.key) i : Op FileName (Contents Artifact)).Passes p.tmp from other)]
      exact staged
    have removed : ((s₁.enter [false]).remove p.tmp).1 = (s₁.enter []).perform (.unlink p.tmp) := by
      simp only [Store.remove,Store.fails,System.enter] at bound ⊢
      simp only [bound]
    simp only [step,found,removed]
    rfl
  let s₃ := { s₂.setPhase t (.finished 503) with slot := none }
  have released : step c.engine (.release t) s₂ = some s₃ := by
    have found : s₂.threads.lookup t = some (.releasing 503) := AList.lookup_insert _
    have own : s₂.slot = some t := slot
    simp only [step,found,own,if_true]
    rfl
  exact ⟨s₃,.head (by rintro _ ⟨⟩) published (.head (by rintro _ ⟨⟩) left (.head (by rintro _ ⟨⟩) released .refl)),mu,rfl,rfl⟩

/-- Uploads of one body under different keys, each of which the server would take. -/
structure Wasteful (c : Server) (body : List UInt8) (put : Nat → Put) (artifact : Nat → Artifact) (total : Nat) : Prop where
  valid : ∀ n < total, Turbocache.validKey (put n).key = true
  started : ∀ n < total, ∃ a, c.start (put n) 1 = .ok a ∧ c.finish (put n) a body = .ok (artifact n)
  short : ∀ n < total, body.length ≤ (put n).contentLength.toNat
  room : ∀ n < total, c.layout.charge (artifact n) ≤ c.maxTotal
  apart : ∀ m < total, ∀ n < total, c.filename (put m).key = c.filename (put n).key → m = n

/-- A server without entries that has left the files of so many uploads. -/
structure Littered (c : Server) (body : List UInt8) (put : Nat → Put) (total n : Nat) (s : System Artifact) : Prop where
  empty : s.store.entries = ∅
  unused : s.store.used = 0
  mu : s.mu = none
  slot : s.slot = none
  next : s.store.next = n
  free : s.store.volume.names.lookup (.upload "1") = none
  names : ∀ m < total, s.store.volume.names.lookup (c.filename (put m).key) = if m < n then some m else none
  files : ∀ m < n, sizeOf c.engine s.store.volume m = body.length + Turbocache.headerSize

theorem Littered.more (wasteful : Wasteful c body put artifact total) (littered : Littered c body put total n s) (more : n < total) :
    ∃ s', Reaches (step c.engine) (fun _ l => Cleans l) s s' ∧ Littered c body put total (n + 1) s' := by
  obtain ⟨a,started,finished⟩ := wasteful.started n more
  obtain ⟨s₁,t,staged,found,mu,slot,store⟩ := reaches_staged (wasteful.valid n more) started finished (wasteful.short n more)
    littered.slot littered.mu littered.free
  have entry : ∀ k, c.filename k ≠ .upload "1" := fun _ => nofun
  have before : ∀ k, s₁.store.volume.names.lookup (c.filename k) = s.store.volume.names.lookup (c.filename k) := by
    intro k
    rw [store]
    exact names_apply (show (Op.create (.upload "1") s.store.next ⟨.short 0,true,false,2⟩ : Op FileName (Contents Artifact)).Passes
      (c.filename k) from (entry k).symm)
  have own : s₁.store.volume.names.lookup (.upload "1") = some s.store.next := by
    rw [store]
    exact names_create s.store.volume _ _ ⟨.short 0,true,false,2⟩
  obtain ⟨s₂,left,mu₂,slot₂,store₂⟩ := leaves_name found mu slot (by rw [store]; exact littered.empty) (by rw [store]; exact littered.unused)
    (wasteful.room n more) own (by rw [before,littered.names n more,if_neg (Nat.lt_irrefl n)]) (entry _)
  refine ⟨s₂,.trans staged left,?_⟩
  have names : ∀ k, s₂.store.volume.names.lookup (c.filename k) =
      (s₁.store.volume.apply (.link (c.filename (put n).key) s.store.next)).names.lookup (c.filename k) := by
    intro k
    rw [store₂]
    exact names_apply (show (Op.unlink (.upload "1") : Op FileName (Contents Artifact)).Passes (c.filename k) from (entry k).symm)
  have files : s₂.store.volume.files = (s.store.disk.performs (stagingOps s.store.next body (artifact n))).volume.files := by
    rw [store₂,store]
    rfl
  constructor
  · rw [store₂,store]; exact littered.empty
  · rw [store₂,store]; exact littered.unused
  · exact mu₂
  · exact slot₂
  · rw [store₂,store]; exact congrArg (· + 1) littered.next
  · rw [store₂]; exact names_unlink _ _
  · intro m below
    rw [names]
    by_cases same : m = n
    · subst same
      rw [if_pos (Nat.lt_succ_self m),← littered.next]
      exact names_link _ _ _
    · rw [names_apply (show (Op.link (c.filename (put n).key) s.store.next : Op FileName (Contents Artifact)).Passes
        (c.filename (put m).key) from fun named => same (wasteful.apart n more m below named).symm),before,littered.names m below]
      simp only [Nat.lt_succ_iff,Nat.le_iff_lt_or_eq,same,or_false]
  · intro m below
    unfold sizeOf
    rw [files]
    by_cases same : m = s.store.next
    · subst same
      simp [stagingOps,Disk.performs,Disk.perform,Volume.apply,Volume.setFile,Volume.alter,Contents.size,Server.engine,Server.layout]
      omega
    · have other : (s.store.disk.performs (stagingOps s.store.next body (artifact n))).volume.files m = s.store.volume.files m := by
        simp [stagingOps,Disk.performs,Disk.perform,Volume.apply,Volume.setFile,Volume.alter,same]
      rw [other]
      exact littered.files m (lt_of_le_of_ne (Nat.lt_succ_iff.mp below) (fun last => same (last.trans littered.next.symm)))

theorem littered_run (wasteful : Wasteful c body put artifact total) (littered : Littered c body put total 0 s) :
    ∀ n ≤ total, ∃ s', Reaches (step c.engine) (fun _ l => Cleans l) s s' ∧ Littered c body put total n s' := by
  intro n
  induction n with
  | zero => exact fun _ => ⟨s,.refl,littered⟩
  | succ n ih =>
    intro within
    obtain ⟨s₁,reached,left⟩ := ih (Nat.le_of_succ_le within)
    obtain ⟨s₂,next,left⟩ := left.more wasteful within
    exact ⟨s₂,.trans reached next,left⟩

/-- What was left takes its bytes. -/
theorem Littered.occupies (littered : Littered c body put total n s) (within : n ≤ total) :
    n * (body.length + Turbocache.headerSize) ≤ occupied c.engine s := by
  have held : ∀ m ∈ List.range n, m ∈ (s.store.volume.names.entries.map (fun row => row.2) ++ openInodes s).dedup := by
    intro m member
    have below := List.mem_range.mp member
    have bound := littered.names m (by omega)
    rw [if_pos below] at bound
    exact List.mem_dedup.mpr (List.mem_append_left _ (List.mem_map.mpr ⟨_,lookup_iff_entry.mp bound,rfl⟩))
  calc n * (body.length + Turbocache.headerSize)
      = ((List.range n).map (fun _ => body.length + Turbocache.headerSize)).sum := by simp
    _ = ((List.range n).map (sizeOf c.engine s.store.volume)).sum :=
        congrArg List.sum (List.map_congr_left (fun m member => (littered.files m (List.mem_range.mp member)).symm))
    _ ≤ occupied c.engine s := sum_distinct_le _ List.nodup_range held


/-- The digests of the keys below and of 256 MiB of zeros. -/
def digests (bytes : List UInt8) : String :=
  if bytes = [97] then "ca978112ca1bbdcafac231b39a23dc4da786eff8147c4e72b9807785afee48bb"
  else if bytes = [98] then "3e23e8160039594a33894f6564e1b1348bbd7a0088d42c4acb73eeaed59c009d"
  else if bytes = [99] then "2e7d2c03a9507ae265ecf5b5356885a53393a2029d241394997265a1a25aefc6"
  else if bytes = [100] then "18ac3e7343f016890c510e93f935261169d9e3f565436429830faf0934f4f8e4"
  else if bytes = [101] then "3f79bb7b435b05321651daefd374cdc681dc06faa65e374e38337b88ca046dea"
  else if bytes.length = 268435456 then "a6d72ac7690f53be6ae46ba88506bd97302a093f7108472bd9efc3cefda06484"
  else ""

def largeServer : Server := ⟨digests,268435456,1073741824⟩

def largePut (n : Nat) : Put :=
  ⟨["a","b","c","d","e"].getD n "",268435456,fun name => if name = "x-artifact-duration" then ["7"] else []⟩

def largeArtifact (n : Nat) : Artifact :=
  ⟨(largePut n).key,268435456,"a6d72ac7690f53be6ae46ba88506bd97302a093f7108472bd9efc3cefda06484","7","","",""⟩

theorem large_wasteful (size : body.length = 268435456) : Wasteful largeServer body largePut largeArtifact 5 where
  valid := by decide +kernel
  started := by
    intro n below
    refine ⟨⟨(largePut n).key,0,"","7","","",""⟩,?_,?_⟩
    · have metadata : Server.metadata.any (fun name => decide (((largePut n).header name).length > 1) ||
          !Turbocache.safeMetadata ((largePut n).get name)) = false := by
        show Server.metadata.any (fun name => decide (((largePut 0).header name).length > 1) ||
          !Turbocache.safeMetadata ((largePut 0).get name)) = false
        decide +kernel
      have duration : (parseUint ((largePut n).get "x-artifact-duration")).isNone = false := by
        show (parseUint ((largePut 0).get "x-artifact-duration")).isNone = false
        decide +kernel
      have known : (largePut n).contentLength = 268435456 := rfl
      have entry : largeServer.maxEntry = 268435456 := rfl
      unfold Server.start
      rw [known,entry,if_neg (by omega),if_neg (by omega),duration,metadata]
      rfl
    · have known : (largePut n).contentLength = 268435456 := rfl
      have digest : largeServer.sha256 body = "a6d72ac7690f53be6ae46ba88506bd97302a093f7108472bd9efc3cefda06484" := by
        have long : ∀ byte : UInt8, body ≠ [byte] := by
          rintro byte rfl
          cases size
        show digests body = _
        simp only [digests,long,size,if_false,if_true]
      have header : ∀ n < 5, (Turbocache.marshal (largeArtifact n)).length ≤ 4092 := by decide +kernel
      unfold Server.finish
      rw [known,size,if_neg (by simp),digest]
      exact if_neg (not_lt.mpr (header n below))
  short := fun n _ => by rw [size]; rfl
  room := fun n _ => show (268435456 + (4096 : Nat) : Int) ≤ 1073741824 by decide
  apart := by decide +kernel

/-- The server that is rendered for the configuration above holds five files of 256 MiB
    and has no entry. -/
theorem headroom_littered : ¬∀ (c : Server) (out : Rendered), turboRender library config = .ok out → c.maxEntry = out.maxEntry →
    c.maxTotal = out.maxTotal → Houses c.engine Cleans c.new out := by
  intro claimed
  have rendered : turboRender library config = .ok (renderedBy turboRender) := rendered_ok (by decide +kernel)
  obtain ⟨entry,total⟩ : (renderedBy turboRender).maxEntry = 268435456 ∧ (renderedBy turboRender).maxTotal = 1073741824 := by
    decide +kernel
  obtain ⟨_,houses⟩ := claimed largeServer _ rendered entry.symm total.symm
  have made := turbo_starts (c := largeServer) (by decide)
  have size : (List.replicate 268435456 (0 : UInt8)).length = 268435456 := List.length_replicate
  generalize List.replicate 268435456 (0 : UInt8) = body at size
  have clean : Littered largeServer body largePut 5 0 (.boot (.fresh (blank : Mounted Artifact).volume 0 [])) :=
    ⟨rfl,rfl,rfl,rfl,rfl,rfl,fun m _ => rfl,fun m never => absurd never (Nat.not_lt_zero m)⟩
  obtain ⟨s,reached,littered⟩ := littered_run (large_wasteful size) clean 5 le_rfl
  have held := littered.occupies le_rfl
  have bound := houses blank [] _ s made reached
  have header : Turbocache.headerSize = 4096 := rfl
  rw [size,header] at held
  rw [entry,total] at bound
  omega

end litter

end Expbuild.Headroom
