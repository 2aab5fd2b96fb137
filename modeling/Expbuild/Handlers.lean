import Expbuild.Stores

/-!
The requests of a server and the files they own. A request owns the staging file
it writes until the file is published: no other name may ever be bound to it,
and no step of another request touches it. What is published is a complete file
that stays as it is.
-/
namespace Expbuild.Handlers
open Expbuild.Tables Expbuild.Disks Expbuild.Engines Expbuild.Stores

/-- What is needed of an engine: which files it stores for an artifact, which it
    serves for one, and what its sections do. -/
structure Lawful {A : Type} (E : Engine A) where
  Good : String → A → Contents A → Prop
  Reads : A → File (Contents A) → Prop
  /-- The files that count as published. -/
  Tracked : FileName → File (Contents A) → Prop
  replaces : Bool
  entry : ∀ k, ∃ stem, E.layout.filename k = .entry stem
  charge : ∀ {k a c}, Good k a c → E.layout.charge a = c.size E.layout.header
  publish : ∀ {p rollbackFails s s' status}, E.publish p rollbackFails s = (s',status) →
    Publishing E.layout E.maxTotal replaces p rollbackFails s s' status
  get : ∀ {key now s s' answer}, E.get key now s = (s',answer) → Fetching E.layout Reads key s s' answer
  finish : ∀ {r now a body a'}, E.validKey r.key = true → E.start r now = .ok a → E.finish r a body = .ok a' →
    Good r.key a' (.envelope (E.header a') body) ∧ E.layout.size a' ≤ E.maxEntry
  /-- Engines with several staging files do not rename them. -/
  sequential : E.exclusive = false → replaces = false
  /-- No two keys of an engine that replaces its files have one file. -/
  collides : replaces = true → ∀ {k j}, E.validKey k = true → E.validKey j = true →
    E.layout.filename k = E.layout.filename j → k = j
  owned : replaces = true → E.shared = false
  injective : E.shared = true → Function.Injective E.layout.filename
  tracked : ∀ {n f g}, SameFile f g → Tracked n g → Tracked n f
  untracked : ∀ {suffix f}, ¬Tracked (.upload suffix) f

section
variable {A : Type} {E : Engine A} (law : Lawful E)

/-- The only name of the file is the one of its upload. -/
structure Owns (v : Volume FileName (Contents A)) (tmp : FileName) (i : Inode) : Prop where
  upload : ∃ suffix, tmp = .upload suffix
  bound : v.names.lookup tmp = some i
  only : ∀ n, Bound v n i → n = tmp

/-- What a request knows where it has got to. -/
def Sound (v : Volume FileName (Contents A)) : Phase A → Prop
  | .arrived r => E.validKey r.key = true
  | .queued r a => E.validKey r.key = true ∧ ∃ now, E.start r now = .ok a
  | .admitted r a => E.validKey r.key = true ∧ ∃ now, E.start r now = .ok a
  | .copying r a tmp i body => (E.validKey r.key = true ∧ ∃ now, E.start r now = .ok a) ∧ Owns v tmp i ∧
      body.length ≤ E.limit r ∧ ∃ f, v.files i = some f ∧ f.contents = .envelope none body ∧ f.regular = true
  | .staged p i => Owns v p.tmp i ∧ E.validKey p.key = true ∧ law.Good p.key p.artifact p.contents ∧
      E.layout.size p.artifact ≤ E.maxEntry ∧
      ∃ f, v.files i = some f ∧ f.contents = p.contents ∧ f.regular = true ∧ f.synced = true
  | .leaving tmp i _ => (∃ suffix, tmp = .upload suffix) ∧ (E.exclusive = false → v.names.lookup tmp = some i)
  | .asked key => E.validKey key = true
  | .releasing _ => True
  | .finished _ => True
  | .reading _ _ _ => True

/-- The staging file of a request. -/
def tmp : Phase A → Option FileName
  | .copying _ _ tmp _ _ => some tmp
  | .staged p _ => some p.tmp
  | .leaving tmp _ _ => some tmp
  | _ => none

/-- Whether a request has the upload slot. -/
def holdsSlot : Phase A → Bool
  | .admitted _ _ => true
  | .copying _ _ _ _ _ => true
  | .staged _ _ => true
  | .leaving _ _ _ => true
  | .releasing _ => true
  | _ => false

/-- The file that only the request itself may use. -/
def owner : Phase A → Option (FileName × Inode)
  | .copying _ _ tmp i _ => some (tmp,i)
  | .staged p i => some (p.tmp,i)
  | _ => none

/-- A call does not concern the staging file of a request. -/
structure Clear (op : Op FileName (Contents A)) (phase : Phase A) : Prop where
  passes : ∀ {name}, tmp phase = some name → op.Passes name
  leaves : ∀ {name i}, owner phase = some (name,i) → op.Leaves i ∧ ∀ n, ¬op.Binds n i

variable {law}

theorem Owns.apply {v : Volume FileName (Contents A)} {tmp : FileName} {i : Inode} {op : Op FileName (Contents A)}
    (owns : Owns v tmp i) (passes : op.Passes tmp) (unbound : ∀ n, ¬op.Binds n i) : Owns (v.apply op) tmp i where
  upload := owns.upload
  bound := (names_apply passes).trans owns.bound
  only := by
    intro n bound
    rcases bound_apply bound with before | binds
    · exact owns.only n before
    · exact absurd binds (unbound n)

/-- What a request knows stays true over calls that do not concern it. -/
theorem Sound.apply {v : Volume FileName (Contents A)} {phase : Phase A} {op : Op FileName (Contents A)}
    (sound : Sound law v phase) (clear : Clear op phase) : Sound law (v.apply op) phase := by
  cases phase with
  | copying r a tmp i body =>
    obtain ⟨started,owns,short,f,found,contents,regular⟩ := sound
    obtain ⟨leaves,unbound⟩ := clear.leaves rfl
    obtain ⟨g,after,same⟩ := file_apply leaves found
    exact ⟨started,owns.apply (clear.passes rfl) unbound,short,g,after,same.contents.trans contents,same.regular.trans regular⟩
  | staged p i =>
    obtain ⟨owns,valid,good,small,f,found,contents,regular,synced⟩ := sound
    obtain ⟨leaves,unbound⟩ := clear.leaves rfl
    obtain ⟨g,after,same⟩ := file_apply leaves found
    exact ⟨owns.apply (clear.passes rfl) unbound,valid,good,small,g,after,same.contents.trans contents,same.regular.trans regular,
      same.synced.trans synced⟩
  | leaving tmp i status =>
    obtain ⟨upload,bound⟩ := sound
    exact ⟨upload,fun several => (names_apply (clear.passes rfl)).trans (bound several)⟩
  | arrived r => exact sound
  | queued r a => exact sound
  | admitted r a => exact sound
  | releasing status => trivial
  | finished status => trivial
  | asked key => exact sound
  | reading key i a => trivial

theorem Sound.performs {d : Disk FileName (Contents A)} {phase : Phase A} {ops : List (Op FileName (Contents A))}
    (sound : Sound law d.volume phase) (clear : ∀ op ∈ ops, Clear op phase) : Sound law (d.performs ops).volume phase :=
  Disk.performs_invariant (I := fun v => Sound law v phase) sound (fun _ op member held => held.apply (clear op member))

variable (law)

/-- Every request of the server, its slot and its inodes are in order. -/
structure Tidy (s : System A) : Prop where
  allocated : Allocated s.store.next s.store.volume
  known : ∀ {t phase}, s.threads.lookup t = some phase → t < s.spawned
  sound : ∀ {t phase}, s.threads.lookup t = some phase → Sound law s.store.volume phase
  apart : ∀ {t t' phase phase' name}, s.threads.lookup t = some phase → s.threads.lookup t' = some phase' →
    tmp phase = some name → tmp phase' = some name → t = t'
  slot : E.exclusive = true → ∀ {t phase}, s.threads.lookup t = some phase → holdsSlot phase = true → s.slot = some t

variable {law}

/-- What a request owns is its own by what it knows. -/
theorem Sound.owns {v : Volume FileName (Contents A)} {phase : Phase A} {name : FileName} {i : Inode}
    (sound : Sound law v phase) (own : owner phase = some (name,i)) : Owns v name i := by
  cases phase with
  | copying r a tmp j body => cases own; exact sound.2.1
  | staged p j => cases own; exact sound.1
  | _ => cases own

theorem owner_tmp {phase : Phase A} {name : FileName} {i : Inode} (own : owner phase = some (name,i)) :
    tmp phase = some name := by
  cases phase with
  | copying r a tmp j body => cases own; rfl
  | staged p j => cases own; rfl
  | _ => cases own

/-- Two requests have no file in common. -/
theorem Tidy.inodes {s : System A} {t t' : Nat} {phase phase' : Phase A} {name name' : FileName} {i i' : Inode}
    (tidy : Tidy law s) (found : s.threads.lookup t = some phase) (found' : s.threads.lookup t' = some phase')
    (own : owner phase = some (name,i)) (own' : owner phase' = some (name',i')) (other : t' ≠ t) : i' ≠ i := by
  rintro rfl
  have owns := (tidy.sound found).owns own
  have owns' := (tidy.sound found').owns own'
  have same : name = name' := owns'.only name (.inl owns.bound)
  exact other (tidy.apart found' found (owner_tmp own') (by rw [owner_tmp own,same]))

/-- A step of one request, whose calls concern no other. -/
theorem Tidy.moved {s s' : System A} {t : Nat} {phase : Phase A} (tidy : Tidy law s)
    (ops : List (Op FileName (Contents A))) (threads : s'.threads = s.threads.insert t phase) (grows : s.spawned ≤ s'.spawned)
    (known : t < s'.spawned) (disk : s'.store.disk = s.store.disk.performs ops)
    (allocated : Allocated s'.store.next s'.store.volume)
    (own : Sound law s'.store.volume phase)
    (clear : ∀ {t' phase'}, t' ≠ t → s.threads.lookup t' = some phase' → ∀ op ∈ ops, Clear op phase')
    (apart : ∀ {t' phase' name}, t' ≠ t → s.threads.lookup t' = some phase' → tmp phase = some name → tmp phase' ≠ some name)
    (slot : E.exclusive = true → (holdsSlot phase = true → s'.slot = some t) ∧
      ∀ {t' phase'}, t' ≠ t → s.threads.lookup t' = some phase' → holdsSlot phase' = true → s'.slot = some t') :
    Tidy law s' where
  allocated := allocated
  known := by
    intro t' phase' found
    rw [threads] at found
    rcases lookup_insert_some found with ⟨rfl,_⟩ | ⟨_,before⟩
    · exact known
    · exact Nat.lt_of_lt_of_le (tidy.known before) grows
  sound := by
    intro t' phase' found
    rw [threads] at found
    rcases lookup_insert_some found with ⟨rfl,rfl⟩ | ⟨other,before⟩
    · exact own
    · rw [Store.volume,disk]
      exact (tidy.sound before).performs (clear other before)
  apart := by
    intro t₁ t₂ phase₁ phase₂ name found₁ found₂ named₁ named₂
    rw [threads] at found₁ found₂
    rcases lookup_insert_some found₁ with ⟨rfl,rfl⟩ | ⟨other₁,before₁⟩
    · rcases lookup_insert_some found₂ with ⟨rfl,rfl⟩ | ⟨other₂,before₂⟩
      · rfl
      · exact absurd named₂ (apart other₂ before₂ named₁)
    · rcases lookup_insert_some found₂ with ⟨rfl,rfl⟩ | ⟨other₂,before₂⟩
      · exact absurd named₁ (apart other₁ before₁ named₂)
      · exact tidy.apart before₁ before₂ named₁ named₂
  slot := by
    intro exclusive t' phase' found holds
    rw [threads] at found
    rcases lookup_insert_some found with ⟨rfl,rfl⟩ | ⟨other,before⟩
    · exact (slot exclusive).1 holds
    · exact (slot exclusive).2 other before holds

/-- A step of a request that goes on with what it has. -/
theorem Tidy.continued {s s' : System A} {t : Nat} {old phase : Phase A} (tidy : Tidy law s)
    (ops : List (Op FileName (Contents A))) (found : s.threads.lookup t = some old) (threads : s'.threads = s.threads.insert t phase)
    (spawned : s'.spawned = s.spawned) (disk : s'.store.disk = s.store.disk.performs ops)
    (allocated : Allocated s'.store.next s'.store.volume)
    (own : Sound law s'.store.volume phase)
    (clear : ∀ {t' phase'}, t' ≠ t → s.threads.lookup t' = some phase' → ∀ op ∈ ops, Clear op phase')
    (named : ∀ {name}, tmp phase = some name → tmp old = some name) (slot : s'.slot = s.slot)
    (holds : holdsSlot phase = true → holdsSlot old = true) : Tidy law s' := by
  refine tidy.moved ops threads (le_of_eq spawned.symm) (by rw [spawned]; exact tidy.known found) disk allocated own clear ?_ ?_
  · intro t' phase' name other before mine theirs
    exact other (tidy.apart before found theirs (named mine))
  · intro exclusive
    rw [slot]
    exact ⟨fun held => tidy.slot exclusive found (holds held),fun _ before held => tidy.slot exclusive before held⟩

variable (law)

/-! ### What a step can do -/

/-- The calls that write the header, if there is one, and synchronise the file. -/
def sealing (header : Option A) (body : List UInt8) (i : Inode) (now : Nat) : List (Op FileName (Contents A)) :=
  match header with
  | none => [.sync i]
  | some a => [.write i (.envelope (some a) body) now,.sync i]

/-- All that a step of the server can do. -/
inductive Stepped (E : Engine A) (l : Label) (s : System A) : System A → Prop where
  | arrived {r : Put} : E.validKey r.key = true → Stepped E l s (s.spawn (.arrived r))
  | asked {key : String} : E.validKey key = true → Stepped E l s (s.spawn (.asked key))
  | started {t : Nat} {r : Put} {a : A} {now pending : Nat} {phase : Phase A} : s.threads.lookup t = some (.arrived r) →
      E.start r now = .ok a → phase = (if E.exclusive then .queued r a else .admitted r a) →
      Stepped E l s { s.setPhase t phase with pending }
  | ended {t : Nat} {phase : Phase A} {status pending : Nat} : s.threads.lookup t = some phase → holdsSlot phase = false →
      Stepped E l s { s.setPhase t (.finished status) with pending }
  | acquired {t : Nat} {r : Put} {a : A} : s.threads.lookup t = some (.queued r a) → s.slot = none →
      Stepped E l s { s.setPhase t (.admitted r a) with slot := some t }
  | refused {t : Nat} {r : Put} {a : A} {status : Nat} {faults : List Bool} : s.threads.lookup t = some (.admitted r a) →
      Stepped E l s { s.setPhase t (.releasing status) with store := { s.store with faults } }
  | spoiled {t : Nat} {r : Put} {a : A} {suffix : String} {now : Nat} {faults : List Bool} :
      s.threads.lookup t = some (.admitted r a) → s.store.volume.names.lookup (.upload suffix) = none →
      Stepped E l s { s.setPhase t (.leaving (.upload suffix) s.store.next 503) with
        store := { s.store.perform (.create (.upload suffix) s.store.next ⟨.short 0,true,false,now⟩) with
          next := s.store.next + 1, faults } }
  | created {t : Nat} {r : Put} {a : A} {suffix : String} {now : Nat} {faults : List Bool} :
      s.threads.lookup t = some (.admitted r a) → s.store.volume.names.lookup (.upload suffix) = none →
      Stepped E l s { s.setPhase t (.copying r a (.upload suffix) s.store.next []) with
        store := { (s.store.perform (.create (.upload suffix) s.store.next ⟨.short 0,true,false,now⟩)).perform
            (.write s.store.next (.envelope none []) now) with next := s.store.next + 1, faults } }
  | received {t : Nat} {r : Put} {a : A} {name : FileName} {i : Inode} {body chunk : List UInt8} {now : Nat} :
      s.threads.lookup t = some (.copying r a name i body) → body.length + chunk.length ≤ E.limit r →
      Stepped E l s { s.setPhase t (.copying r a name i (body ++ chunk)) with
        store := s.store.perform (.write i (.envelope none (body ++ chunk)) now) }
  | abandoned {t : Nat} {r : Put} {a : A} {name : FileName} {i : Inode} {body : List UInt8} {status : Nat}
      {faults : List Bool} : s.threads.lookup t = some (.copying r a name i body) →
      Stepped E l s { s.setPhase t (.leaving name i status) with store := { s.store with faults } }
  | unsynced {t : Nat} {r : Put} {a a' : A} {name : FileName} {i : Inode} {body : List UInt8} {now : Nat}
      {faults : List Bool} : s.threads.lookup t = some (.copying r a name i body) → E.finish r a body = .ok a' →
      Stepped E l s { s.setPhase t (.leaving name i 503) with
        store := { s.store.perform (.write i (.envelope (E.header a') body) now) with faults } }
  | finished {t : Nat} {r : Put} {a a' : A} {name : FileName} {i : Inode} {body : List UInt8} {now : Nat}
      {faults later : List Bool} : l = .finish t now later → s.threads.lookup t = some (.copying r a name i body) →
      E.finish r a body = .ok a' →
      Stepped E l s { s.setPhase t (.staged ⟨r.key,a',name,.envelope (E.header a') body,now⟩ i) with
        store := { s.store with disk := s.store.disk.performs (sealing (E.header a') body i now), faults } }
  | published {t : Nat} {p : Staged A} {i : Inode} {faults : List Bool} {rollbackFails : Bool} {store : Store A}
      {status : Nat} : l = .publish t faults rollbackFails → s.threads.lookup t = some (.staged p i) → s.mu = none →
      E.publish p rollbackFails (s.enter faults) = (store,status) →
      Stepped E l s { s.setPhase t (.leaving p.tmp i status) with
        store
        vanished := s.vanished.filter (fun key => (store.volume.names.lookup (E.layout.filename key)).isNone) }
  | kept {t : Nat} {name : FileName} {i : Inode} {status : Nat} {fault : Bool} {faults : List Bool} : l = .leave t fault →
      (fault = true ∨ s.store.volume.names.lookup name = none) → s.threads.lookup t = some (.leaving name i status) →
      Stepped E l s { s.setPhase t (.releasing status) with store := { s.store with faults } }
  | left {t : Nat} {name : FileName} {i : Inode} {status : Nat} {faults : List Bool} :
      s.threads.lookup t = some (.leaving name i status) →
      Stepped E l s { s.setPhase t (.releasing status) with store := { s.store.perform (.unlink name) with faults } }
  | released {t : Nat} {status pending : Nat} : s.threads.lookup t = some (.releasing status) →
      Stepped E l s { s.setPhase t (.finished status) with
        slot := if s.slot = some t then none else s.slot, pending }
  | fetched {t : Nat} {key : String} {now status : Nat} {faults : List Bool} {store : Store A} :
      s.threads.lookup t = some (.asked key) → s.mu = none → E.get key now (s.enter faults) = (store,.refused status) →
      Stepped E l s { s.setPhase t (.finished status) with store }
  | opened {t : Nat} {key : String} {now : Nat} {faults : List Bool} {store : Store A} {i : Inode} {a : A}
      {contents : Contents A} : s.threads.lookup t = some (.asked key) → s.mu = none →
      E.get key now (s.enter faults) = (store,.opened i a contents) →
      Stepped E l s { s.setPhase t (.reading key i a) with
        store := { store with log := .opened t key a contents :: store.log }
        mu := if E.keepsLock then some t else none }
  | sent {t : Nat} {key : String} {i : Inode} {a : A} {file : File (Contents A)} :
      s.threads.lookup t = some (.reading key i a) → s.store.volume.files i = some file →
      Stepped E l s { s.setPhase t (.finished 200) with
        store := { s.store with log := .served t key a file.contents :: s.store.log }
        mu := if s.mu = some t then none else s.mu }
  | vanished {key : String} {i : Inode} : E.shared = true →
      s.store.volume.names.lookup (E.layout.filename key) = some i →
      Stepped E l s { s with
        store := { s.store.perform (.unlink (E.layout.filename key)) with log := .dropped key :: s.store.log }
        vanished := key :: s.vanished }

theorem createTemp_cases (suffix : String) (now : Nat) (s : Store A) : ∃ faults,
    createTemp suffix now s = ({ s with faults },none,false) ∨
    createTemp suffix now s = ({ s.perform (.create (.upload suffix) s.next ⟨.short 0,true,false,now⟩) with
      next := s.next + 1, faults },some s.next,false) ∨
    createTemp suffix now s = ({ (s.perform (.create (.upload suffix) s.next ⟨.short 0,true,false,now⟩)).perform
      (.write s.next (.envelope none []) now) with next := s.next + 1, faults },some s.next,true) := by
  unfold createTemp
  obtain ⟨faults,failed | worked⟩ := fails_cases s
  · rw [failed]; exact ⟨faults,.inl rfl⟩
  · rw [worked]
    obtain ⟨later,failed | worked⟩ := fails_cases ({ ({ s with faults } : Store A).perform
      (.create (.upload suffix) s.next ⟨.short 0,true,false,now⟩) with next := s.next + 1 } : Store A)
    · simp only [failed]; exact ⟨later,.inr (.inl rfl)⟩
    · simp only [worked]; exact ⟨later,.inr (.inr rfl)⟩

theorem sealFile_cases (header : Option A) (body : List UInt8) (i : Inode) (now : Nat) (s : Store A) : ∃ faults,
    sealFile header body i now s = ({ s with faults },false) ∨
    sealFile header body i now s = ({ s.perform (.write i (.envelope header body) now) with faults },false) ∨
    sealFile header body i now s = ({ s with disk := s.disk.performs (sealing header body i now), faults },true) := by
  cases header with
  | none =>
    obtain ⟨faults,failed | worked⟩ := fails_cases s
    · exact ⟨faults,.inl (by simp [sealFile,failed])⟩
    · exact ⟨faults,.inr (.inr (by simp [sealFile,worked,sealing,Disk.performs,Store.perform]))⟩
  | some a =>
    obtain ⟨faults,failed | worked⟩ := fails_cases s
    · exact ⟨faults,.inl (by simp [sealFile,failed])⟩
    · obtain ⟨later,failed | synced⟩ := fails_cases (({ s with faults } : Store A).perform (.write i (.envelope (some a) body) now))
      · exact ⟨later,.inr (.inl (by simp only [sealFile,worked,failed]; rfl))⟩
      · exact ⟨later,.inr (.inr (by simp only [sealFile,worked,synced]; rfl))⟩

/-- A step does one of these things. -/
theorem step_stepped {l : Label} {s s' : System A} (moved : step E l s = some s') : Stepped E l s s' := by
  cases l with
  | put r =>
    simp only [step] at moved
    split at moved
    · rename_i valid; cases moved; exact .arrived valid
    · cases moved
  | get key =>
    simp only [step] at moved
    split at moved
    · rename_i valid; cases moved; exact .asked valid
    · cases moved
  | start t now =>
    simp only [step] at moved
    split at moved
    · rename_i r found
      split at moved
      · cases moved
        exact .ended found rfl
      · rename_i a started
        split at moved
        · rename_i exclusive
          split at moved
          · cases moved
            exact .started found started (if_pos exclusive).symm
          · split at moved
            · cases moved
              exact .started found started (if_pos exclusive).symm
            · cases moved
              exact .ended found rfl
        · rename_i several
          cases moved
          exact .started found started (if_neg several).symm
    · cases moved
  | acquire t =>
    simp only [step] at moved
    split at moved
    · rename_i r a found free; cases moved; exact .acquired found free
    · cases moved
  | cancel t status =>
    simp only [step] at moved
    split at moved
    · rename_i found _; cases moved; exact .ended found rfl
    · cases moved
  | create t suffix now faults =>
    simp only [step] at moved
    split at moved
    · rename_i r a found
      split at moved
      · cases moved
      · split at moved
        · cases moved
          exact .refused found
        · split at moved
          · cases moved
          · rename_i unused
            have free : s.store.volume.names.lookup (.upload suffix) = none := by simpa using unused
            obtain ⟨later,failed | half | whole⟩ := createTemp_cases suffix now (s.enter faults)
            · rw [failed] at moved
              cases moved
              exact .refused found
            · rw [half] at moved
              cases moved
              exact .spoiled found free
            · rw [whole] at moved
              cases moved
              exact .created found free
    · cases moved
  | receive t chunk now fault =>
    simp only [step] at moved
    split at moved
    · rename_i found
      split at moved
      · rename_i short
        split at moved
        · cases moved
          exact .abandoned found
        · cases moved
          exact .received found short
      · cases moved
    · cases moved
  | interrupt t =>
    simp only [step] at moved
    split at moved
    · rename_i found; cases moved; exact .abandoned found
    · cases moved
  | finish t now faults =>
    simp only [step] at moved
    split at moved
    · rename_i r a name i body found
      split at moved
      · cases moved
        exact .abandoned found
      · rename_i a' done
        obtain ⟨later,failed | half | whole⟩ := sealFile_cases (E.header a') body i now (s.enter faults)
        · rw [failed] at moved
          cases moved
          exact .abandoned found
        · rw [half] at moved
          cases moved
          exact .unsynced found done
        · rw [whole] at moved
          cases moved
          exact .finished rfl found done
    · cases moved
  | publish t faults rollbackFails =>
    simp only [step] at moved
    split at moved
    · rename_i p i found free
      cases moved
      exact .published rfl found free rfl
    · cases moved
  | leave t fault =>
    simp only [step] at moved
    split at moved
    · rename_i name i status found
      obtain ⟨later,failed | ⟨free,missing⟩ | ⟨j,_,removed⟩⟩ := remove_cases name (s.enter [fault])
      · have faulty : fault = true := by
          cases fault with
          | true => rfl
          | false =>
            simp only [Store.remove,Store.fails,System.enter] at failed
            split at failed
            · exact absurd (congrArg Prod.snd failed) (by simp)
            · exact absurd (congrArg Prod.snd failed) (by simp)
        rw [failed] at moved
        cases moved
        exact .kept rfl (.inl faulty) found
      · rw [missing] at moved
        cases moved
        exact .kept rfl (.inr free) found
      · rw [removed] at moved
        cases moved
        exact .left found
    · cases moved
  | release t =>
    simp only [step] at moved
    split at moved
    · rename_i found; cases moved; exact .released found
    · cases moved
  | fetch t now faults =>
    simp only [step] at moved
    split at moved
    · rename_i key found free
      split at moved
      · rename_i store status ran; cases moved; exact .fetched found free ran
      · rename_i store i a contents ran; cases moved; exact .opened found free ran
    · cases moved
  | send t =>
    simp only [step] at moved
    split at moved
    · rename_i found
      split at moved
      · rename_i file there; cases moved; exact .sent found there
      · cases moved
    · cases moved
  | vanish key =>
    simp only [step] at moved
    split at moved
    · rename_i shared there; cases moved; exact .vanished shared there
    · cases moved

/-! ### Requests stay in order -/

variable {law}

theorem Sound.upload {v : Volume FileName (Contents A)} {phase : Phase A} {name : FileName}
    (sound : Sound law v phase) (named : tmp phase = some name) : ∃ suffix, name = .upload suffix := by
  cases phase with
  | copying r a tmp i body => cases named; exact sound.2.1.upload
  | staged p i => cases named; exact sound.1.upload
  | leaving tmp i status => cases named; exact sound.1
  | _ => cases named

/-- The names of entries are not those of uploads. -/
theorem Lawful.entry_ne (law : Lawful E) (k : String) {name : FileName} (upload : ∃ suffix, name = .upload suffix) :
    E.layout.filename k ≠ name := by
  obtain ⟨stem,entry⟩ := law.entry k
  obtain ⟨suffix,rfl⟩ := upload
  rw [entry]
  simp

variable {s s' : System A} {t t' : Nat} {phase phase' : Phase A} {name : FileName} {i : Inode}
  {op : Op FileName (Contents A)}

/-- Calls on the file of one request do not concern another. -/
theorem Tidy.clear_own (tidy : Tidy law s) (found : s.threads.lookup t = some phase) (own : owner phase = some (name,i))
    (passes : ∀ n, op.Passes n) (leaves : ∀ j, j ≠ i → op.Leaves j) (unbound : ∀ n j, ¬op.Binds n j) (other : t' ≠ t)
    (found' : s.threads.lookup t' = some phase') : Clear op phase' where
  passes := fun _ => passes _
  leaves := fun own' => ⟨leaves _ (tidy.inodes found found' own own' other),fun n => unbound n _⟩

theorem Tidy.clear_section {p : Staged A} {replaces : Bool} (tidy : Tidy law s)
    (found : s.threads.lookup t = some (.staged p i)) (calls : SectionOp E.layout replaces p i op) (other : t' ≠ t)
    (found' : s.threads.lookup t' = some phase') : Clear op phase' := by
  have entry : ∀ {n}, tmp phase' = some n → ∀ k, E.layout.filename k ≠ n := fun named k =>
    law.entry_ne k ((tidy.sound found').upload named)
  have differ : ∀ {n j}, owner phase' = some (n,j) → j ≠ i := fun own => tidy.inodes found found' rfl own other
  cases calls with
  | unlink k => exact ⟨fun named => entry named k,fun _ => ⟨trivial,fun _ bind => bind⟩⟩
  | link =>
    refine ⟨fun named => entry named p.key,fun own => ⟨trivial,fun n bind => ?_⟩⟩
    exact differ own bind.2.symm
  | rename =>
    refine ⟨fun named => ⟨?_,entry named p.key⟩,fun own => ⟨trivial,fun n bind => differ own bind.2.symm⟩⟩
    rintro rfl
    exact other (tidy.apart found' found named rfl)
  | sync => exact ⟨fun _ => trivial,fun _ => ⟨trivial,fun _ bind => bind⟩⟩

/-- The staging file of another request is there while this one has the slot. -/
theorem Tidy.staging_bound (tidy : Tidy law s) (found : s.threads.lookup t = some phase) (holds : holdsSlot phase = true)
    (other : t' ≠ t) (found' : s.threads.lookup t' = some phase') (named : tmp phase' = some name) :
    ∃ j, s.store.volume.names.lookup name = some j := by
  have sound := tidy.sound found'
  cases phase' with
  | copying r a tmp j body => cases named; exact ⟨_,sound.2.1.bound⟩
  | staged p j => cases named; exact ⟨_,sound.1.bound⟩
  | leaving tmp j status =>
    cases named
    cases exclusive : E.exclusive with
    | false => exact ⟨_,sound.2 exclusive⟩
    | true =>
      have mine := tidy.slot exclusive found holds
      rw [tidy.slot exclusive found' rfl] at mine
      exact absurd (Option.some.inj mine) other
  | _ => cases named

theorem Tidy.clear_create {suffix : String} {file : File (Contents A)} (tidy : Tidy law s)
    (found : s.threads.lookup t = some phase) (holds : holdsSlot phase = true)
    (free : s.store.volume.names.lookup (.upload suffix) = none) (other : t' ≠ t)
    (found' : s.threads.lookup t' = some phase') : Clear (.create (.upload suffix) s.store.next file) phase' where
  passes := by
    rintro name named rfl
    obtain ⟨j,bound⟩ := tidy.staging_bound found holds other found' named
    rw [free] at bound
    cases bound
  leaves := by
    intro name j own
    have owns := (tidy.sound found').owns own
    have below := (tidy.allocated name j (.inl owns.bound)).1
    exact ⟨Nat.ne_of_gt below,fun n bind => Nat.ne_of_gt below bind.2⟩

/-- A request that arrives. -/
theorem Tidy.arrives (tidy : Tidy law s) (sound : Sound law s.store.volume phase) (named : tmp phase = none)
    (holds : holdsSlot phase = false) : Tidy law (s.spawn phase) := by
  refine tidy.moved [] rfl (Nat.le_succ _) (Nat.lt_succ_self _) rfl tidy.allocated sound (by simp) ?_ ?_
  · intro t' phase' name _ _ mine
    rw [named] at mine
    cases mine
  · intro exclusive
    refine ⟨fun held => ?_,fun _ before held => tidy.slot exclusive before held⟩
    rw [holds] at held
    cases held

theorem Owns.write {v : Volume FileName (Contents A)} {contents : Contents A} {now : Nat} (owns : Owns v name i) :
    Owns (v.apply (.write i contents now)) name i :=
  owns.apply trivial (fun _ bind => bind)

theorem file_write {v : Volume FileName (Contents A)} {f : File (Contents A)} {contents : Contents A} {now : Nat}
    (found : v.files i = some f) :
    (v.apply (.write i contents now)).files i = some { f with contents, modified := now, synced := false } := by
  simp [Volume.apply,Volume.setFile,found]

theorem sealing_file {d : Disk FileName (Contents A)} {f : File (Contents A)} {body : List UInt8} (header : Option A)
    (now : Nat) (found : d.volume.files i = some f) (contents : f.contents = .envelope none body) :
    ∃ g, (d.performs (sealing header body i now)).volume.files i = some g ∧ g.contents = .envelope header body ∧
      g.regular = f.regular ∧ g.synced = true := by
  cases header with
  | none =>
    refine ⟨{ f with synced := true },?_,contents,rfl,rfl⟩
    simp [sealing,Disk.performs,Disk.perform,Volume.apply,Volume.setFile,found]
  | some a =>
    refine ⟨{ f with contents := .envelope (some a) body, modified := now, synced := true },?_,rfl,rfl,rfl⟩
    simp [sealing,Disk.performs,Disk.perform,Volume.apply,Volume.setFile,found]

theorem sealing_ops {header : Option A} {body : List UInt8} {now : Nat} (calls : op ∈ sealing header body i now) :
    (∀ n, op.Passes n) ∧ (∀ j, j ≠ i → op.Leaves j) ∧ ∀ n j, ¬op.Binds n j := by
  cases header with
  | none =>
    simp only [sealing,List.mem_singleton] at calls
    subst calls
    exact ⟨fun _ => trivial,fun _ other => Ne.symm other,fun _ _ bind => bind⟩
  | some a =>
    simp only [sealing,List.mem_cons,List.not_mem_nil,or_false] at calls
    rcases calls with rfl | rfl
    · exact ⟨fun _ => trivial,fun _ other => Ne.symm other,fun _ _ bind => bind⟩
    · exact ⟨fun _ => trivial,fun _ other => Ne.symm other,fun _ _ bind => bind⟩

theorem Allocated.performs {d : Disk FileName (Contents A)} {next : Inode} {ops : List (Op FileName (Contents A))}
    (allocated : Allocated next d.volume) (binds : ∀ op ∈ ops, ∀ n j, op.Binds n j → ∃ name, d.volume.names.lookup name = some j) :
    Allocated next (d.performs ops).volume := by
  have kept : Allocated next (d.performs ops).volume ∧ ∀ name j, d.volume.names.lookup name = some j →
      j < next ∧ ∃ f, (d.performs ops).volume.files j = some f := by
    refine Disk.performs_invariant (I := fun v => Allocated next v ∧ ∀ name j, d.volume.names.lookup name = some j →
      j < next ∧ ∃ f, v.files j = some f) ⟨allocated,fun name j bound => allocated name j (.inl bound)⟩ ?_
    rintro v op member ⟨allocated,there⟩
    refine ⟨allocated.apply (fun n j bind => ?_),fun name j bound => ?_⟩
    · obtain ⟨name,bound⟩ := binds op member n j bind
      exact there name j bound
    · obtain ⟨below,f,found⟩ := there name j bound
      exact ⟨below,exists_apply op found⟩
  exact kept.1

theorem clear_touches {ops : List (Op FileName (Contents A))} (touches : ∀ op ∈ ops, ∃ i now, op = .touch i now) :
    ∀ op ∈ ops, Clear op phase := by
  intro op member
  obtain ⟨i,now,rfl⟩ := touches op member
  exact ⟨fun _ => trivial,fun _ => ⟨trivial,fun _ bind => bind⟩⟩

theorem allocated_touches {d : Disk FileName (Contents A)} {next : Inode} {ops : List (Op FileName (Contents A))}
    (allocated : Allocated next d.volume) (touches : ∀ op ∈ ops, ∃ i now, op = .touch i now) :
    Allocated next (d.performs ops).volume := by
  refine Allocated.performs allocated (fun op member n j bind => ?_)
  obtain ⟨i,now,rfl⟩ := touches op member
  exact bind.elim

/-- A file that was just created has no other name. -/
theorem Tidy.owns_created (tidy : Tidy law s) (suffix : String) (file : File (Contents A)) :
    Owns (s.store.volume.apply (.create (.upload suffix) s.store.next file)) (.upload suffix) s.store.next where
  upload := ⟨suffix,rfl⟩
  bound := by simp [Volume.apply,Volume.alter,Change.apply,bindName]
  only := by
    intro n bound
    rcases bound_apply bound with before | ⟨rfl,_⟩
    · exact absurd (tidy.allocated n _ before).1 (Nat.lt_irrefl _)
    · rfl

/-- Every step keeps the requests in order. -/
theorem Tidy.step {l : Label} (tidy : Tidy law s) (stepped : Stepped E l s s') : Tidy law s' := by
  cases stepped with
  | arrived valid => exact tidy.arrives valid rfl rfl
  | asked valid => exact tidy.arrives valid rfl rfl
  | @started t r a now pending phase found started becomes =>
    have valid : E.validKey r.key = true := tidy.sound found
    cases exclusive : E.exclusive with
    | true =>
      rw [exclusive] at becomes
      subst becomes
      exact tidy.continued [] found rfl rfl rfl tidy.allocated ⟨valid,now,started⟩ (by simp) (by simp [tmp]) rfl (by simp [holdsSlot])
    | false =>
      rw [exclusive] at becomes
      subst becomes
      refine tidy.moved [] rfl (Nat.le_refl _) (tidy.known found) rfl tidy.allocated ⟨valid,now,started⟩ (by simp) (by simp [tmp]) ?_
      intro sole
      rw [exclusive] at sole
      cases sole
  | @ended t phase status pending found holds =>
    exact tidy.continued [] found rfl rfl rfl tidy.allocated trivial (by simp) (by simp [tmp]) rfl (by simp [holdsSlot])
  | @acquired t r a found free =>
    have started : E.validKey r.key = true ∧ ∃ now, E.start r now = .ok a := tidy.sound found
    refine tidy.moved [] rfl (Nat.le_refl _) (tidy.known found) rfl tidy.allocated started (by simp) (by simp [tmp]) ?_
    intro exclusive
    refine ⟨fun _ => rfl,fun _ before held => ?_⟩
    have theirs := tidy.slot exclusive before held
    rw [free] at theirs
    cases theirs
  | @refused t r a status faults found =>
    exact tidy.continued [] found rfl rfl rfl tidy.allocated trivial (by simp) (by simp [tmp]) rfl (fun _ => rfl)
  | @spoiled t r a suffix now faults found free =>
    refine tidy.moved [.create (.upload suffix) s.store.next ⟨.short 0,true,false,now⟩] rfl (Nat.le_refl _) (tidy.known found)
      rfl (tidy.allocated.create _ _) ⟨⟨suffix,rfl⟩,fun _ => ?_⟩ ?_ ?_ ?_
    · simp [Store.perform,Disk.perform,Volume.apply,Volume.alter,Change.apply,bindName]
    · intro t' phase' other found' op member
      obtain rfl := List.mem_singleton.mp member
      exact tidy.clear_create found rfl free other found'
    · intro t' phase' name other found' mine theirs
      cases mine
      obtain ⟨j,bound⟩ := tidy.staging_bound found rfl other found' theirs
      rw [free] at bound
      cases bound
    · intro exclusive
      exact ⟨fun _ => tidy.slot exclusive found rfl,fun _ before held => tidy.slot exclusive before held⟩
  | @created t r a suffix now faults found free =>
    have started : E.validKey r.key = true ∧ ∃ now, E.start r now = .ok a := tidy.sound found
    refine tidy.moved [.create (.upload suffix) s.store.next ⟨.short 0,true,false,now⟩,
      .write s.store.next (.envelope none []) now] rfl (Nat.le_refl _) (tidy.known found) rfl
      ((tidy.allocated.create _ _).apply (fun _ _ bind => bind.elim)) ⟨started,?_,Nat.zero_le _,?_⟩ ?_ ?_ ?_
    · exact (tidy.owns_created suffix _).write
    · refine ⟨⟨.envelope none [],true,false,now⟩,?_,rfl,rfl⟩
      simp [Store.perform,Disk.perform,Volume.apply,Volume.setFile]
    · intro t' phase' other found' op member
      have clear : Clear (.create (.upload suffix) s.store.next ⟨.short 0,true,false,now⟩) phase' :=
        tidy.clear_create found rfl free other found'
      rcases List.mem_cons.mp member with rfl | member
      · exact clear
      · obtain rfl := List.mem_singleton.mp member
        exact ⟨fun _ => trivial,fun own => ⟨(clear.leaves own).1,fun _ bind => bind⟩⟩
    · intro t' phase' name other found' mine theirs
      cases mine
      obtain ⟨j,bound⟩ := tidy.staging_bound found rfl other found' theirs
      rw [free] at bound
      cases bound
    · intro exclusive
      exact ⟨fun _ => tidy.slot exclusive found rfl,fun _ before held => tidy.slot exclusive before held⟩
  | @received t r a name i body chunk now found short =>
    obtain ⟨started,owns,_,f,there,contents,regular⟩ := tidy.sound found
    refine tidy.continued [.write i (.envelope none (body ++ chunk)) now] found rfl rfl rfl ?_ ?_ ?_ (fun named => named) rfl
      (fun held => held)
    · exact tidy.allocated.apply (fun _ _ bind => bind.elim)
    · refine ⟨started,owns.write,by simpa using short,_,file_write there,rfl,regular⟩
    · intro t' phase' other found' op member
      obtain rfl := List.mem_singleton.mp member
      exact tidy.clear_own found rfl (fun _ => trivial) (fun _ different => Ne.symm different) (fun _ _ bind => bind) other found'
  | @abandoned t r a name i body status faults found =>
    obtain ⟨_,owns,_⟩ := tidy.sound found
    exact tidy.continued [] found rfl rfl rfl tidy.allocated ⟨owns.upload,fun _ => owns.bound⟩ (by simp)
      (fun named => named) rfl (fun _ => rfl)
  | @unsynced t r a a' name i body now faults found done =>
    obtain ⟨_,owns,_⟩ := tidy.sound found
    refine tidy.continued [.write i (.envelope (E.header a') body) now] found rfl rfl rfl
      (tidy.allocated.apply (fun _ _ bind => bind.elim)) ⟨owns.upload,fun _ => owns.write.bound⟩ ?_ (fun named => named) rfl
      (fun _ => rfl)
    intro t' phase' other found' op member
    obtain rfl := List.mem_singleton.mp member
    exact tidy.clear_own found rfl (fun _ => trivial) (fun _ different => Ne.symm different) (fun _ _ bind => bind) other found'
  | @finished t r a a' name i body now faults later _ found done =>
    obtain ⟨⟨valid,before,started⟩,owns,_,f,there,contents,regular⟩ := tidy.sound found
    obtain ⟨good,small⟩ := law.finish valid started done
    obtain ⟨g,after,written,same,synced⟩ := sealing_file (E.header a') now there contents
    refine tidy.continued (sealing (E.header a') body i now) found rfl rfl rfl ?_ ⟨?_,valid,good,small,g,after,written,same.trans regular,synced⟩ ?_
      (fun named => named) rfl (fun _ => rfl)
    · refine Allocated.performs tidy.allocated (fun op member n j bind => ?_)
      exact absurd bind ((sealing_ops member).2.2 n j)
    · refine Disk.performs_invariant (I := fun v => Owns v name i) owns (fun v op member held => ?_)
      obtain ⟨passes,_,unbound⟩ := sealing_ops member
      exact held.apply (passes name) (fun n => unbound n i)
    · intro t' phase' other found' op member
      obtain ⟨passes,leaves,unbound⟩ := sealing_ops member
      exact tidy.clear_own found rfl passes leaves unbound other found'
  | @published t p i faults rollbackFails store status _ found free ran =>
    obtain ⟨owns,_⟩ := tidy.sound found
    obtain ⟨ops,disk,next,calls⟩ := (law.publish ran).ops owns.bound (fun k => law.entry_ne k owns.upload)
    refine tidy.continued ops found rfl rfl disk ?_ ⟨owns.upload,fun several => ?_⟩ ?_ (fun named => named) rfl (fun _ => rfl)
    · change Allocated store.next store.disk.volume
      rw [next,disk]
      refine Allocated.performs tidy.allocated (fun op member n j bind => ⟨p.tmp,?_⟩)
      have same : j = i := by
        cases calls op member with
        | unlink k => exact bind.elim
        | link => exact bind.2.symm
        | rename _ => exact bind.2.symm
        | sync => exact bind.elim
      rw [same]
      exact owns.bound
    · -- such an engine never renames its staging file
      change store.disk.volume.names.lookup p.tmp = some i
      rw [disk]
      refine Disk.performs_invariant (I := fun v => v.names.lookup p.tmp = some i) owns.bound (fun v op member held => ?_)
      rw [← held]
      refine names_apply ?_
      cases calls op member with
      | unlink k => exact law.entry_ne k owns.upload
      | link => exact law.entry_ne p.key owns.upload
      | rename renames => rw [law.sequential several] at renames; cases renames
      | sync => trivial
    · intro t' phase' other found' op member
      exact tidy.clear_section found (calls op member) other found'
  | @kept t name i status fault faults _ _ found =>
    exact tidy.continued [] found rfl rfl rfl tidy.allocated trivial (by simp) (by simp [tmp]) rfl (fun _ => rfl)
  | @left t name i status faults found =>
    refine tidy.continued [.unlink name] found rfl rfl rfl (tidy.allocated.apply (fun _ _ bind => bind.elim)) trivial ?_ (by simp [tmp]) rfl
      (fun _ => rfl)
    intro t' phase' other found' op member
    obtain rfl := List.mem_singleton.mp member
    refine ⟨?_,fun _ => ⟨trivial,fun _ bind => bind⟩⟩
    rintro n theirs rfl
    exact other (tidy.apart found' found theirs rfl)
  | @released t status pending found =>
    refine tidy.moved [] rfl (Nat.le_refl _) (tidy.known found) rfl tidy.allocated trivial (by simp) (by simp [tmp]) (fun exclusive => ?_)
    refine ⟨by simp [holdsSlot],fun {t' phase'} other before held => ?_⟩
    have theirs := tidy.slot exclusive before held
    have mine := tidy.slot exclusive found rfl
    rw [theirs] at mine
    exact absurd (Option.some.inj mine) other
  | @fetched t key now status faults store found free ran =>
    obtain ⟨ops,disk,next,touches⟩ := (law.get ran).ops
    refine tidy.continued ops found rfl rfl disk ?_ trivial (fun _ _ => clear_touches touches) (by simp [tmp]) rfl (by simp [holdsSlot])
    change Allocated store.next store.disk.volume
    rw [next,disk]
    exact allocated_touches tidy.allocated touches
  | @opened t key now faults store i a contents found free ran =>
    obtain ⟨ops,disk,next,touches⟩ := (law.get ran).ops
    refine tidy.continued ops found rfl rfl disk ?_ trivial (fun _ _ => clear_touches touches) (by simp [tmp]) rfl (by simp [holdsSlot])
    change Allocated store.next store.disk.volume
    rw [next,disk]
    exact allocated_touches tidy.allocated touches
  | @sent t key i a file found there =>
    exact tidy.continued [] found rfl rfl rfl tidy.allocated trivial (by simp) (by simp [tmp]) rfl (by simp [holdsSlot])
  | @vanished key i shared there =>
    refine ⟨tidy.allocated.apply (fun _ _ bind => bind.elim),tidy.known,fun {t phase} found => ?_,tidy.apart,tidy.slot⟩
    have clear : Clear (.unlink (E.layout.filename key)) phase := by
      refine ⟨fun named => ?_,fun _ => ⟨trivial,fun _ bind => bind⟩⟩
      exact law.entry_ne key ((tidy.sound found).upload named)
    exact (tidy.sound found).apply clear

end
end Expbuild.Handlers
