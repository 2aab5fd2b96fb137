import Expbuild.Accounting

/-!
What a step does to the store of a server, in few cases: calls on a staging file
that no entry shares, a publication, a reader, or the end of one. The invariants
about the directory and the log are proved over these cases.
-/
namespace Expbuild.Passages
open Expbuild.Tables Expbuild.Disks Expbuild.Engines Expbuild.Stores Expbuild.Handlers

variable {A : Type} {E : Engine A}

/-- The calls on the staging file of a request. -/
inductive StagingOp (i : Inode) : Op FileName (Contents A) → Prop where
  | create (suffix : String) (file : File (Contents A)) : file.regular = true → StagingOp i (.create (.upload suffix) i file)
  | write (contents : Contents A) (time : Nat) : StagingOp i (.write i contents time)
  | sync : StagingOp i (.sync i)
  | unlink (suffix : String) : StagingOp i (.unlink (.upload suffix))

/-- No entry has the file, and none may have it after a crash. -/
def Private (v : Volume FileName (Contents A)) (i : Inode) : Prop := ∀ n, Bound v n i → ∃ suffix, n = .upload suffix

theorem StagingOp.binds {i j : Inode} {n : FileName} {op : Op FileName (Contents A)} (calls : StagingOp i op)
    (binds : op.Binds n j) : j = i ∧ ∃ suffix, n = .upload suffix := by
  cases calls with
  | create suffix file _ => exact ⟨binds.2.symm,suffix,binds.1.symm⟩
  | _ => exact binds.elim

theorem StagingOp.leaves {i j : Inode} {op : Op FileName (Contents A)} (calls : StagingOp i op) (other : j ≠ i) :
    op.Leaves j := by
  cases calls with
  | create suffix file _ => exact Ne.symm other
  | write contents time => exact Ne.symm other
  | sync => exact Ne.symm other
  | unlink suffix => trivial

theorem StagingOp.passes {i : Inode} {op : Op FileName (Contents A)} (law : Lawful E) (calls : StagingOp i op) (k : String) :
    op.Passes (E.layout.filename k) := by
  cases calls with
  | create suffix file _ => exact Ne.symm (law.entry_ne k ⟨suffix,rfl⟩)
  | unlink suffix => exact Ne.symm (law.entry_ne k ⟨suffix,rfl⟩)
  | _ => trivial

theorem Private.apply {v : Volume FileName (Contents A)} {i : Inode} {op : Op FileName (Contents A)} (own : Private v i)
    (calls : StagingOp i op) : Private (v.apply op) i := by
  intro n bound
  rcases bound_apply bound with before | binds
  · exact own n before
  · exact (calls.binds binds).2

/-- The file of an entry is not a staging file. -/
theorem Private.entry_ne {v : Volume FileName (Contents A)} {i j : Inode} (law : Lawful E) (own : Private v i) {k : String}
    (bound : Bound v (E.layout.filename k) j) : j ≠ i := by
  rintro rfl
  exact law.entry_ne k (own _ bound) rfl

theorem owned_private {v : Volume FileName (Contents A)} {name : FileName} {i : Inode} (owns : Owns v name i) : Private v i := by
  intro n bound
  rw [owns.only n bound]
  exact owns.upload

/-- The inode is new, or the file of an upload that goes on. -/
def Staging (s : System A) (i : Inode) : Prop :=
  i = s.store.next ∨ ∃ t phase name, s.threads.lookup t = some phase ∧ owner phase = some (name,i)

/-- What a step does to the store. -/
inductive Passage (E : Engine A) (s s' : System A) : Prop where
  | staging {i : Inode} (ops : List (Op FileName (Contents A))) : Staging s i → Private s.store.volume i →
      (∀ op ∈ ops, StagingOp i op) → s'.store.disk = s.store.disk.performs ops → s'.store.entries = s.store.entries →
      s'.store.log = s.store.log → Passage E s s'
  | publishing {t : Nat} {p : Staged A} {i : Inode} {faults : List Bool} {rollbackFails : Bool} {store : Store A} {status : Nat} :
      s.threads.lookup t = some (.staged p i) → s.mu = none → E.publish p rollbackFails (s.enter faults) = (store,status) →
      s'.store = store → s'.threads.lookup t = some (.leaving p.tmp i status) → Passage E s s'
  | fetching {t : Nat} {key : String} {now status : Nat} {faults : List Bool} {store : Store A} :
      s.threads.lookup t = some (.asked key) → E.get key now (s.enter faults) = (store,.refused status) →
      s'.store = store → Passage E s s'
  | opening {t : Nat} {key : String} {now : Nat} {faults : List Bool} {store : Store A} {i : Inode} {a : A}
      {contents : Contents A} : s.threads.lookup t = some (.asked key) →
      E.get key now (s.enter faults) = (store,.opened i a contents) →
      s'.store = { store with log := .opened t key a contents :: store.log } → Passage E s s'
  | sending {t : Nat} {key : String} {i : Inode} {a : A} {file : File (Contents A)} :
      s.threads.lookup t = some (.reading key i a) → s.store.volume.files i = some file →
      s'.store = { s.store with log := .served t key a file.contents :: s.store.log } → Passage E s s'
  | vanishing {key : String} : E.shared = true →
      s'.store = { s.store.perform (.unlink (E.layout.filename key)) with log := .dropped key :: s.store.log } →
      Passage E s s'

variable {law : Lawful E} {s s' : System A}

/-- A new inode has no name yet. -/
theorem fresh_private (tidy : Tidy law s) : Private s.store.volume s.store.next := by
  intro n bound
  exact absurd (tidy.allocated n _ bound).1 (Nat.lt_irrefl _)

/-- A step that makes no calls. -/
theorem passage_idle (tidy : Tidy law s) (disk : s'.store.disk = s.store.disk) (entries : s'.store.entries = s.store.entries)
    (log : s'.store.log = s.store.log) : Passage E s s' :=
  .staging [] (.inl rfl) (fresh_private tidy) nofun disk entries log

theorem step_passage {l : Label} (tidy : Tidy law s) (stepped : Stepped E l s s') : Passage E s s' := by
  cases stepped with
  | arrived _ => exact passage_idle tidy rfl rfl rfl
  | asked _ => exact passage_idle tidy rfl rfl rfl
  | started _ _ _ => exact passage_idle tidy rfl rfl rfl
  | ended _ _ => exact passage_idle tidy rfl rfl rfl
  | acquired _ _ => exact passage_idle tidy rfl rfl rfl
  | refused _ => exact passage_idle tidy rfl rfl rfl
  | @spoiled t r a suffix now faults found free =>
    refine .staging [.create (.upload suffix) s.store.next ⟨.short 0,true,false,now⟩] (.inl rfl) (fresh_private tidy)
      (fun op member => ?_) rfl rfl rfl
    obtain rfl := List.mem_singleton.mp member
    exact .create suffix _ rfl
  | @created t r a suffix now faults found free =>
    refine .staging [.create (.upload suffix) s.store.next ⟨.short 0,true,false,now⟩,
      .write s.store.next (.envelope none []) now] (.inl rfl) (fresh_private tidy) (fun op member => ?_) rfl rfl rfl
    rcases List.mem_cons.mp member with rfl | member
    · exact .create suffix _ rfl
    · obtain rfl := List.mem_singleton.mp member
      exact .write _ _
  | @received t r a name i body chunk now found short =>
    obtain ⟨_,owns,_⟩ := tidy.sound found
    refine .staging [.write i (.envelope none (body ++ chunk)) now] (.inr ⟨t,_,name,found,rfl⟩) (owned_private owns)
      (fun op member => ?_) rfl rfl rfl
    obtain rfl := List.mem_singleton.mp member
    exact .write _ _
  | abandoned _ => exact passage_idle tidy rfl rfl rfl
  | @unsynced t r a a' name i body now faults found done =>
    obtain ⟨_,owns,_⟩ := tidy.sound found
    refine .staging [.write i (.envelope (E.header a') body) now] (.inr ⟨t,_,name,found,rfl⟩) (owned_private owns)
      (fun op member => ?_) rfl rfl rfl
    obtain rfl := List.mem_singleton.mp member
    exact .write _ _
  | @finished t r a a' name i body now faults later _ found done =>
    obtain ⟨_,owns,_⟩ := tidy.sound found
    refine .staging (sealing (E.header a') body i now) (.inr ⟨t,_,name,found,rfl⟩) (owned_private owns)
      (fun op member => ?_) rfl rfl rfl
    cases header : E.header a' with
    | none =>
      rw [header] at member
      obtain rfl := List.mem_singleton.mp member
      exact .sync
    | some a'' =>
      rw [header] at member
      rcases List.mem_cons.mp member with rfl | member
      · exact .write _ _
      · obtain rfl := List.mem_singleton.mp member
        exact .sync
  | published _ found free ran =>
    exact .publishing found free ran rfl (by simp [System.setPhase])
  | kept _ _ _ => exact passage_idle tidy rfl rfl rfl
  | @left t name i status faults found =>
    obtain ⟨⟨suffix,rfl⟩,_⟩ := tidy.sound found
    refine .staging [.unlink (.upload suffix)] (.inl rfl) (fresh_private tidy) (fun op member => ?_) rfl rfl rfl
    obtain rfl := List.mem_singleton.mp member
    exact .unlink suffix
  | released _ => exact passage_idle tidy rfl rfl rfl
  | fetched found _ ran => exact .fetching found ran rfl
  | opened found _ ran => exact .opening found ran rfl
  | sent found there => exact .sending found there rfl
  | vanished shared _ => exact .vanishing shared rfl

end Expbuild.Passages
