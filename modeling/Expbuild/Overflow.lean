import Expbuild.Capacity
import Expbuild.Checked

/-!
Whether the sizes of the cache engines overflow. The counter of a server is the
sum of what its entries charge and stays within the total, so that every sum and
difference that is computed from it is an `int64`, where the limits leave room
for the sums of the engine.
-/
namespace Expbuild.Overflow
open Expbuild.Tables Expbuild.Disks Expbuild.Stores Expbuild.Handlers Expbuild.Runs Expbuild.Sections Expbuild.Laws
  Expbuild.Capacity Expbuild.Checked
open Expbuild.Engines hiding evict addEntry scan

variable {A : Type}

/-! ### The counter -/

theorem add_word {a b : Int} (fits : Word (a + b)) : add a b = some (a + b) := if_pos fits

theorem sub_word {a b : Int} (fits : Word (a - b)) : sub a b = some (a - b) := if_pos fits

/-- What is neither negative nor too large is an `int64`. -/
theorem word_of {n : Int} (low : 0 ≤ n) (high : n < 2 ^ 63) : Word n := ⟨by omega,high⟩

/-- `used` counts the entries, none of which has a negative size. -/
structure Tally (L : Layout A) (entries : Table String (Entry A)) (used : Int) : Prop where
  counted : used = sumOf (fun _ e => L.charge e.artifact) entries
  charged : ∀ {k e}, entries.lookup k = some e → 0 ≤ L.charge e.artifact

section
variable {L : Layout A} {entries : Table String (Entry A)} {used : Int} {k : String} {e : Entry A}

theorem Tally.nonneg (tally : Tally L entries used) : 0 ≤ used := by
  rw [tally.counted]
  refine List.sum_nonneg (fun charge member => ?_)
  obtain ⟨row,there,rfl⟩ := List.mem_map.mp member
  exact tally.charged (lookup_iff_entry.mpr there)

theorem Tally.erase (tally : Tally L entries used) (found : entries.lookup k = some e) :
    Tally L (entries.erase k) (used - L.charge e.artifact) where
  counted := by
    have total := sumOf_erase (fun _ (e : Entry A) => L.charge e.artifact) found
    have counted := tally.counted
    omega
  charged := by
    intro j e' there
    rw [lookup_erase] at there
    split at there
    · cases there
    · exact tally.charged there

/-- An entry charges no more than all of them. -/
theorem Tally.le (tally : Tally L entries used) (found : entries.lookup k = some e) : L.charge e.artifact ≤ used := by
  have rest := (tally.erase found).nonneg
  omega

/-- An entry takes the place of the one its key has, if it has one. -/
theorem Tally.insert (tally : Tally L entries used) (k : String) (charged : 0 ≤ L.charge e.artifact) :
    Tally L (entries.insert k e)
      (used - ((entries.lookup k).map (fun e => L.charge e.artifact)).getD 0 + L.charge e.artifact) where
  counted := by
    have inserted := sumOf_insert (fun _ (e : Entry A) => L.charge e.artifact) k e entries
    have counted := tally.counted
    cases found : entries.lookup k with
    | none =>
      have same := sumOf_erase_none (fun _ (e : Entry A) => L.charge e.artifact) found
      simp only [Option.map_none,Option.getD_none]
      omega
    | some old =>
      have total := sumOf_erase (fun _ (e : Entry A) => L.charge e.artifact) found
      simp only [Option.map_some,Option.getD_some]
      omega
  charged := by
    intro j e' there
    rcases lookup_insert_some there with ⟨_,rfl⟩ | ⟨_,before⟩
    · exact charged
    · exact tally.charged before

theorem Tally.added (tally : Tally L entries used) (absent : entries.lookup k = none) (charged : 0 ≤ L.charge e.artifact) :
    Tally L (entries.insert k e) (used + L.charge e.artifact) := by
  have inserted := tally.insert k charged
  rw [absent] at inserted
  simpa using inserted

theorem Tally.accessed (tally : Tally L entries used) (found : entries.lookup k = some e) (now : Nat) :
    Tally L (entries.insert k { e with accessed := now }) used := by
  have charged : 0 ≤ L.charge ({ e with accessed := now } : Entry A).artifact := tally.charged (e := e) found
  have inserted := tally.insert k charged
  rw [found] at inserted
  simpa using inserted

theorem Tally.evicts {keep : String → Bool} {s t : Store A} (tally : Tally L s.entries s.used) (evicts : Evicts L keep s t) :
    Tally L t.entries t.used ∧ t.used ≤ s.used := by
  refine evicts.invariant (I := fun t => Tally L t.entries t.used ∧ t.used ≤ s.used) ⟨tally,le_refl _⟩ ?_
  rintro t k e ⟨held,below⟩ found _
  have charged := held.charged found
  rw [dropKey_entries,dropKey_used found]
  exact ⟨held.erase found,by omega⟩

end

/-! ### The sections -/

section
variable {L : Layout A} {s : Store A} {k : String} {e : Entry A}

theorem delete_exact (tally : Tally L s.entries s.used) (found : s.entries.lookup k = some e) (small : s.used < 2 ^ 63) :
    delete L k s = some (s.delete L k) := by
  have low := tally.charged found
  have high := tally.le found
  have charge : add (L.size e.artifact) L.header = some (L.charge e.artifact) :=
    add_word (word_of low (lt_of_le_of_lt high small))
  have rest : sub s.used (L.charge e.artifact) = some (s.used - L.charge e.artifact) :=
    sub_word (word_of (by omega) (by omega))
  simp only [delete,found,Option.map_some,Option.getD_some,charge,rest,Option.bind_eq_bind,Option.bind_some]
  simp [Store.delete,found,Layout.charge]

theorem record_exact {contents : Contents A} (charge : Word (L.charge e.artifact)) (total : Word (s.used + L.charge e.artifact)) :
    record L k e contents s = some (s.record L k e contents) := by
  have charge : add (L.size e.artifact) L.header = some (L.charge e.artifact) := add_word charge
  simp only [record,charge,add_word total,Option.bind_eq_bind,Option.bind_some]
  rfl

/-- The loop computes nothing that overflows, from a counter that does not. -/
theorem evict_exact {top : Int} {enough fits : Store A → Bool} {enough' fits' : Store A → Option Bool} {keys : List String}
    (small : top < 2 ^ 63) (room : ∀ t : Store A, Tally L t.entries t.used → t.used ≤ top → enough' t = some (enough t))
    (ends : ∀ t : Store A, Tally L t.entries t.used → t.used ≤ top → fits' t = some (fits t))
    (tally : Tally L s.entries s.used) (below : s.used ≤ top) (distinct : keys.Nodup)
    (present : ∀ k ∈ keys, (s.entries.lookup k).isSome = true) :
    evict L enough' fits' keys s = some (Engines.evict L enough fits keys s) := by
  induction keys generalizing s with
  | nil =>
    simp only [evict,Engines.evict,ends s tally below,Option.bind_eq_bind,Option.bind_some]
    rfl
  | cons k rest ih =>
    obtain ⟨fresh,distinct⟩ := List.nodup_cons.mp distinct
    obtain ⟨e,found⟩ := Option.isSome_iff_exists.mp (present k List.mem_cons_self)
    have left : ∀ j ∈ rest, ((s.entries.erase k).lookup j).isSome = true := by
      intro j member
      have other : j ≠ k := by rintro rfl; exact fresh member
      rw [AList.lookup_erase_ne other]
      exact present j (List.mem_cons_of_mem _ member)
    -- a store with the file gone, or found to be gone already
    have goes : ∀ t : Store A, t.entries = s.entries → t.used = s.used →
        (do evict L enough' fits' rest (← delete L k t)) = some (Engines.evict L enough fits rest (t.delete L k)) := by
      intro t entries used
      have counted : Tally L t.entries t.used := by rw [entries,used]; exact tally
      have there : t.entries.lookup k = some e := by rw [entries]; exact found
      have charged := counted.charged there
      rw [delete_exact counted there (by omega)]
      refine ih ?_ ?_ distinct ?_
      · have erased := counted.erase there
        rw [← Accounting.delete_used (L := L) there] at erased
        exact erased
      · rw [Accounting.delete_used there]
        omega
      · intro j member
        change ((t.entries.erase k).lookup j).isSome = true
        rw [entries]
        exact left j member
    simp only [evict,Engines.evict,room s tally below,Option.bind_eq_bind,Option.bind_some]
    cases enough s with
    | true => rfl
    | false =>
      obtain ⟨faults,failed | ⟨_,missing⟩ | ⟨i,_,removed⟩⟩ := remove_cases (L.filename k) s
      · rw [failed]
        rfl
      · rw [missing]
        exact goes _ rfl rfl
      · rw [removed]
        exact goes _ rfl rfl

/-- `evictLocked`, as all engines call the loop. -/
theorem evict_oldest_exact {top : Int} {keep : String → Bool} {enough fits : Store A → Bool}
    {enough' fits' : Store A → Option Bool} (small : top < 2 ^ 63)
    (room : ∀ t : Store A, Tally L t.entries t.used → t.used ≤ top → enough' t = some (enough t))
    (ends : ∀ t : Store A, Tally L t.entries t.used → t.used ≤ top → fits' t = some (fits t))
    (tally : Tally L s.entries s.used) (below : s.used ≤ top) :
    evict L enough' fits' (s.oldest keep) s = some (Engines.evict L enough fits (s.oldest keep) s) :=
  evict_exact small room ends tally below (oldest_nodup s keep) (fun _ member => (oldest_mem.mp member).1)

theorem link_used (source target : FileName) (s : Store A) : (s.link source target).1.used = s.used := by
  obtain ⟨faults,⟨kept,_⟩ | ⟨i,_,_,linked⟩⟩ := link_cases source target s
  · rw [kept]
  · rw [linked]
    rfl

theorem syncRoot_used (s : Store A) : s.syncRoot.1.used = s.used := by
  obtain ⟨faults,failed | synced⟩ := syncRoot_cases s
  · rw [failed]
  · rw [synced]
    rfl

theorem addEntry_exact {evictLocked : Int → Store A → Store A × Evicted} {evictLocked' : Int → Store A → Option (Store A × Evicted)}
    {duplicate : A → A → Nat} {p : Staged A} {rollbackFails : Bool} (charge : Word (L.charge p.artifact))
    (evicted : evictLocked' (L.charge p.artifact) s = some (evictLocked (L.charge p.artifact) s))
    (total : (evictLocked (L.charge p.artifact) s).2 = .ok →
      Word ((evictLocked (L.charge p.artifact) s).1.used + L.charge p.artifact)) :
    addEntry L evictLocked' duplicate p rollbackFails s = some (Engines.addEntry L evictLocked duplicate p rollbackFails s) := by
  have size : add (L.size p.artifact) L.header = some (L.charge p.artifact) := add_word charge
  unfold addEntry Engines.addEntry
  cases s.entries.lookup p.key with
  | some old => rfl
  | none =>
    simp only [size,evicted,Option.bind_eq_bind,Option.bind_some]
    cases ran : evictLocked (L.charge p.artifact) s with
    | mk out r =>
      rw [ran] at total
      cases r with
      | failed => rfl
      | exceeded => rfl
      | ok =>
        simp only
        have linked := link_used p.tmp (L.filename p.key) out
        cases link : out.link p.tmp (L.filename p.key) with
        | mk u r =>
          rw [link] at linked
          cases r with
          | failed => rfl
          | exist => rfl
          | ok =>
            simp only
            have synced := syncRoot_used u
            cases sync : u.syncRoot with
            | mk w b =>
              rw [sync] at synced
              cases b with
              | false => rfl
              | true =>
                simp only at synced linked
                have fits : Word (w.used + L.charge p.artifact) := by
                  rw [synced,linked]
                  exact total rfl
                simp only [record_exact (e := ⟨p.artifact,p.accessed⟩) charge fits,Option.bind_some]
                rfl

/-! ### What the sections leave of the counter -/

theorem tally_publishing {maxTotal : Int} {replaces : Bool} {p : Staged A} {rollbackFails : Bool} {s' : Store A} {status : Nat}
    (tally : Tally L s.entries s.used) (within : s.used ≤ maxTotal) (charged : 0 ≤ L.charge p.artifact)
    (published : Publishing L maxTotal replaces p rollbackFails s s' status) :
    Tally L s'.entries s'.used ∧ s'.used ≤ maxTotal := by
  have evicted : ∀ {t : Store A}, Evicts L (fun k => decide (k = p.key)) s t → Tally L t.entries t.used ∧ t.used ≤ maxTotal := by
    intro t evicts
    obtain ⟨held,below⟩ := tally.evicts evicts
    exact ⟨held,below.trans within⟩
  -- the publications that come before their evictions
  have recorded : ∀ {i : Inode} {t : Store A}, s.entries.lookup p.key = none →
      Evicts L (fun k => decide (k = p.key))
        ((s.perform (.link (L.filename p.key) i)).record L p.key ⟨p.artifact,p.accessed⟩ p.contents) t →
      Tally L t.entries t.used ∧ t.entries.lookup p.key = some ⟨p.artifact,p.accessed⟩ ∧
        t.used ≤ s.used + L.charge p.artifact := by
    intro i t absent evicts
    have added := tally.added (e := ⟨p.artifact,p.accessed⟩) absent charged
    obtain ⟨held,below⟩ := Tally.evicts (s := (s.perform (.link (L.filename p.key) i)).record L p.key _ p.contents) added evicts
    refine ⟨held,?_,below⟩
    rw [evicts.kept (by simp)]
    exact AList.lookup_insert _
  have undone : ∀ {i : Inode} {t : Store A}, s.entries.lookup p.key = none →
      Evicts L (fun k => decide (k = p.key))
        ((s.perform (.link (L.filename p.key) i)).record L p.key ⟨p.artifact,p.accessed⟩ p.contents) t →
      Tally L (t.delete L p.key).entries (t.delete L p.key).used ∧ (t.delete L p.key).used ≤ maxTotal := by
    intro i t absent evicts
    obtain ⟨held,there,below⟩ := recorded absent evicts
    rw [Accounting.delete_used there]
    exact ⟨held.erase there,by simp only; omega⟩
  cases published with
  | refused evicts => exact ⟨(evicted evicts).1,(evicted evicts).2⟩
  | @created t i faults _ absent evicts _ _ room =>
    have missing : t.entries.lookup p.key = none := by
      rw [evicts.kept (by simp)]
      exact absent
    exact ⟨(evicted evicts).1.added missing charged,room⟩
  | withdrawn _ _ evicts _ _ _ => exact ⟨(evicted evicts).1,(evicted evicts).2⟩
  | orphaned _ _ _ evicts _ _ _ => exact ⟨(evicted evicts).1,(evicted evicts).2⟩
  | @replaced synced t i faults old _ was evicts _ room _ =>
    have inserted := (evicted evicts).1.insert (e := ⟨p.artifact,p.accessed⟩) p.key charged
    rw [evicts.kept (by simp),← was] at inserted
    cases synced
    · exact ⟨inserted,room⟩
    · exact ⟨inserted,room⟩
  | added _ absent _ _ evicts room => exact ⟨(recorded absent evicts).1,room⟩
  | undone _ absent _ _ evicts => exact ⟨(undone absent evicts).1,(undone absent evicts).2⟩
  | stranded _ _ absent _ _ evicts => exact ⟨(undone absent evicts).1,(undone absent evicts).2⟩

theorem tally_fetching {maxTotal : Int} {Reads : A → File (Contents A) → Prop} {s' : Store A} {answer : Answer A}
    (tally : Tally L s.entries s.used) (within : s.used ≤ maxTotal) (ran : Fetching L Reads k s s' answer) :
    Tally L s'.entries s'.used ∧ s'.used ≤ maxTotal := by
  cases ran with
  | refused => exact ⟨tally,within⟩
  | @opened touched e i file faults now found _ _ _ =>
    cases touched
    · exact ⟨tally.accessed found now,within⟩
    · exact ⟨tally.accessed found now,within⟩
  | @missed e faults found _ =>
    have charged := tally.charged found
    have erased := tally.erase found
    rw [← Accounting.delete_used (L := L) found] at erased
    refine ⟨erased,?_⟩
    have less : (s.delete L k).used ≤ maxTotal := by
      rw [Accounting.delete_used found]
      omega
    exact less

end

/-! ### Runs -/

/-- What is needed of an engine: what its sections do, and the sizes it lets through. -/
structure Sizing (E : Engine A) where
  replaces : Bool
  Reads : A → File (Contents A) → Prop
  publish : ∀ {p rollbackFails s s' status}, E.publish p rollbackFails s = (s',status) →
    Publishing E.layout E.maxTotal replaces p rollbackFails s s' status
  get : ∀ {key now s s' answer}, E.get key now s = (s',answer) → Fetching E.layout Reads key s s' answer
  finish : ∀ {r now a body a'}, E.validKey r.key = true → E.start r now = .ok a → E.finish r a body = .ok a' →
    0 ≤ E.layout.charge a' ∧ E.layout.size a' ≤ E.maxEntry

def sizingOf {E : Engine A} (law : Lawful E) : Sizing E where
  replaces := law.replaces
  Reads := law.Reads
  publish := law.publish
  get := law.get
  finish := by
    intro r now a body a' valid started finished
    obtain ⟨good,small⟩ := law.finish valid started finished
    exact ⟨by rw [law.charge good]; exact Int.natCast_nonneg _,small⟩

/-- The size a request has been let through with. -/
def Sized (E : Engine A) : Phase A → Prop
  | .arrived r => E.validKey r.key = true
  | .queued r a => E.validKey r.key = true ∧ ∃ now, E.start r now = .ok a
  | .admitted r a => E.validKey r.key = true ∧ ∃ now, E.start r now = .ok a
  | .copying r a _ _ _ => E.validKey r.key = true ∧ ∃ now, E.start r now = .ok a
  | .staged p _ => 0 ≤ E.layout.charge p.artifact ∧ E.layout.size p.artifact ≤ E.maxEntry
  | _ => True

/-- The counter is right and within the budget, whatever requests there are. -/
structure Measured (E : Engine A) (s : System A) : Prop where
  tally : Tally E.layout s.store.entries s.store.used
  within : s.store.used ≤ E.maxTotal
  sized : ∀ {t phase}, s.threads.lookup t = some phase → Sized E phase

section
variable {E : Engine A} {s s' : System A}

/-- One request goes on. -/
theorem Measured.moved {t : Nat} {phase : Phase A} (measured : Measured E s)
    (threads : s'.threads = s.threads.insert t phase) (sized : Sized E phase)
    (kept : Tally E.layout s'.store.entries s'.store.used ∧ s'.store.used ≤ E.maxTotal) : Measured E s' where
  tally := kept.1
  within := kept.2
  sized := by
    intro t' phase' there
    rw [threads] at there
    rcases lookup_insert_some there with ⟨_,rfl⟩ | ⟨_,before⟩
    · exact sized
    · exact measured.sized before

theorem Measured.step {l : Label} (sizing : Sizing E) (measured : Measured E s) (stepped : Stepped E l s s') : Measured E s' := by
  have kept : Tally E.layout s.store.entries s.store.used ∧ s.store.used ≤ E.maxTotal := ⟨measured.tally,measured.within⟩
  cases stepped with
  | arrived valid => exact measured.moved rfl valid kept
  | asked _ => exact measured.moved rfl trivial kept
  | @started t r a now pending phase found started which =>
    have sized : Sized E phase := by
      rw [which]
      split
      · exact ⟨measured.sized found,now,started⟩
      · exact ⟨measured.sized found,now,started⟩
    exact measured.moved rfl sized kept
  | ended _ _ => exact measured.moved rfl trivial kept
  | acquired found _ =>
    have sized := measured.sized found
    exact measured.moved rfl sized kept
  | refused _ => exact measured.moved rfl trivial kept
  | spoiled _ _ => exact measured.moved rfl trivial kept
  | created found _ =>
    have sized := measured.sized found
    exact measured.moved rfl sized kept
  | received found _ =>
    have sized := measured.sized found
    exact measured.moved rfl sized kept
  | abandoned _ => exact measured.moved rfl trivial kept
  | unsynced _ _ => exact measured.moved rfl trivial kept
  | finished _ found finished =>
    obtain ⟨valid,now,started⟩ := measured.sized found
    exact measured.moved rfl (sizing.finish valid started finished) kept
  | @published t p i faults rollbackFails store status _ found _ ran =>
    obtain ⟨charged,_⟩ := measured.sized found
    exact measured.moved rfl trivial (tally_publishing (s := s.enter faults) kept.1 kept.2 charged (sizing.publish ran))
  | kept _ _ _ => exact measured.moved rfl trivial kept
  | left _ => exact measured.moved rfl trivial kept
  | released _ => exact measured.moved rfl trivial kept
  | @fetched t key now status faults store _ _ ran =>
    exact measured.moved rfl trivial (tally_fetching (s := s.enter faults) kept.1 kept.2 (sizing.get ran))
  | @opened t key now faults store i a contents _ _ ran =>
    obtain ⟨tally,within⟩ := tally_fetching (s := s.enter faults) kept.1 kept.2 (sizing.get ran)
    exact measured.moved rfl trivial ⟨tally,within⟩
  | sent _ _ => exact measured.moved rfl trivial kept
  | vanished _ _ => exact ⟨kept.1,kept.2,measured.sized⟩

/-- The states a server reaches from a store that `New` returned, whatever happens. -/
abbrev Running (E : Engine A) (store : Store A) (s : System A) : Prop :=
  Reaches (step E) (fun _ _ => True) (.boot store) s

theorem measured_running {store : Store A} (sizing : Sizing E) (tally : Tally E.layout store.entries store.used)
    (within : store.used ≤ E.maxTotal) (running : Running E store s) : Measured E s :=
  running.invariant (I := Measured E) ⟨tally,within,nofun⟩ (fun measured _ moved => measured.step sizing (step_stepped moved))

end

/-! ### The directory -/

/-- The bytes of a file that is named like an entry. -/
def bytes (header : Nat) (v : Volume FileName (Contents A)) (name : FileName) : Nat :=
  match name,v.file name with
  | .entry _,some f => f.contents.size header
  | _,_ => 0

/-- The bytes of all of them. -/
def stored (header : Nat) (v : Volume FileName (Contents A)) : Nat := ((items v).map (fun item => bytes header v item.1)).sum

section
variable {L : Layout A} {v : Volume FileName (Contents A)} {s : Store A} {name : FileName} {i : Inode}
  {rest : List (FileName × Inode)}

section
variable (L v)

/-- The loop of `New` has read all but the rest of the directory, and what is left
    does not overflow the counter. -/
structure Reading (rest : List (FileName × Inode)) (s : Store A) : Prop where
  tally : Tally L s.entries s.used
  here : ∀ {n i}, (n,i) ∈ rest → v.names.lookup n = some i
  names : ∀ stem, s.volume.names.lookup (.entry stem) = v.names.lookup (.entry stem)
  files : s.volume.files = v.files
  apart : ∀ {k e n i}, s.entries.lookup k = some e → (n,i) ∈ rest → L.filename k ≠ n
  distinct : (rest.map Prod.fst).Nodup
  room : s.used + ((rest.map (fun item => bytes L.header v item.1)).sum : Nat) < 2 ^ 63

end

theorem Reading.fresh {m : Mounted A} {faults : List Bool} (small : stored L.header m.volume < 2 ^ 63) :
    Reading L m.volume (items m.volume) (.fresh m.volume m.next faults) where
  tally := ⟨rfl,nofun⟩
  here := by
    intro n i member
    obtain ⟨row,found,same⟩ := List.mem_map.mp member
    cases same
    exact lookup_iff_entry.mpr found
  names := fun _ => rfl
  files := rfl
  apart := nofun
  distinct := by
    have keys : (items m.volume).map Prod.fst = m.volume.names.keys := by
      simp [items,AList.keys,List.keys]
    rw [keys]
    exact m.volume.names.keys_nodup
  room := by
    change (0 : Int) + (stored L.header m.volume : Nat) < 2 ^ 63
    omega

/-- A name is passed over, or the staging file under it is removed. -/
theorem Reading.passed {t : Store A} (reading : Reading L v ((name,i) :: rest) s) (entries : t.entries = s.entries)
    (used : t.used = s.used) (names : ∀ stem, t.volume.names.lookup (.entry stem) = s.volume.names.lookup (.entry stem))
    (files : t.volume.files = s.volume.files) : Reading L v rest t where
  tally := by rw [entries,used]; exact reading.tally
  here := fun member => reading.here (List.mem_cons_of_mem _ member)
  names := fun stem => (names stem).trans (reading.names stem)
  files := files.trans reading.files
  apart := by
    intro k e n j found member
    rw [entries] at found
    exact reading.apart found (List.mem_cons_of_mem _ member)
  distinct := (List.nodup_cons.mp reading.distinct).2
  room := by
    have room := reading.room
    simp only [List.map_cons,List.sum_cons] at room
    rw [used]
    omega

theorem Reading.removed {suffix : String} {faults : List Bool} (reading : Reading L v ((.upload suffix,i) :: rest) s) :
    Reading L v rest { s.perform (.unlink (.upload suffix)) with faults } := by
  refine reading.passed rfl rfl (fun stem => ?_) rfl
  have passes : (Op.unlink (.upload suffix) : Op FileName (Contents A)).Passes (.entry stem) := by
    intro same
    cases same
  exact names_apply passes

/-- What an entry charges is counted among the bytes that are left. -/
theorem Reading.fits {stem : String} {f : File (Contents A)} {a : A} (reading : Reading L v ((.entry stem,i) :: rest) s)
    (file : s.volume.files i = some f) (size : L.charge a = f.contents.size L.header) :
    0 ≤ L.charge a ∧ s.used + L.charge a + ((rest.map (fun item => bytes L.header v item.1)).sum : Nat) < 2 ^ 63 := by
  have bound := reading.here List.mem_cons_self
  rw [reading.files] at file
  have counted : bytes L.header v (.entry stem) = f.contents.size L.header := by
    simp [bytes,Volume.file,bound,file]
  have room := reading.room
  simp only [List.map_cons,List.sum_cons,counted] at room
  constructor
  · rw [size]
    exact Int.natCast_nonneg _
  · rw [size]
    push_cast at room ⊢
    omega

theorem Reading.recorded {stem key : String} {faults : List Bool} {e : Entry A} {f : File (Contents A)}
    (reading : Reading L v ((.entry stem,i) :: rest) s) (file : s.volume.files i = some f)
    (size : L.charge e.artifact = f.contents.size L.header) (named : L.filename key = .entry stem) :
    Reading L v rest (({ s with faults } : Store A).record L key e f.contents) where
  tally := by
    have absent : s.entries.lookup key = none := by
      cases found : s.entries.lookup key with
      | none => rfl
      | some old => exact absurd named (reading.apart found List.mem_cons_self)
    exact reading.tally.added absent (reading.fits file size).1
  here := fun member => reading.here (List.mem_cons_of_mem _ member)
  names := reading.names
  files := reading.files
  apart := by
    intro k e' n j found member
    rcases lookup_insert_some found with ⟨rfl,_⟩ | ⟨_,before⟩
    · rw [named]
      rintro rfl
      exact (List.nodup_cons.mp reading.distinct).1 (List.mem_map.mpr ⟨(_,j),member,rfl⟩)
    · exact reading.apart before (List.mem_cons_of_mem _ member)
  distinct := (List.nodup_cons.mp reading.distinct).2
  room := (reading.fits file size).2

theorem Reading.record_exact {stem key : String} {faults : List Bool} {e : Entry A} {f : File (Contents A)}
    (reading : Reading L v ((.entry stem,i) :: rest) s) (file : s.volume.files i = some f)
    (size : L.charge e.artifact = f.contents.size L.header) :
    record L key e f.contents ({ s with faults } : Store A) = some (({ s with faults } : Store A).record L key e f.contents) := by
  obtain ⟨low,high⟩ := reading.fits file size
  have used := reading.tally.nonneg
  refine Overflow.record_exact (word_of low (by omega)) (word_of ?_ ?_)
  · change 0 ≤ s.used + L.charge e.artifact
    omega
  · change s.used + L.charge e.artifact < 2 ^ 63
    omega

/-- A loop over the directory computes what it does with the integers, and leaves
    the counter right. -/
def Scans (L : Layout A) (checked : Option (Option (Store A))) (scanned : Option (Store A)) : Prop :=
  checked = some scanned ∧ ∀ s, scanned = some s → Tally L s.entries s.used ∧ s.used < 2 ^ 63

theorem Reading.done (reading : Reading L v [] s) : Scans L (some (some s)) (some s) := by
  refine ⟨rfl,fun t same => ?_⟩
  cases same
  have room := reading.room
  simp only [List.map_nil,List.sum_nil] at room
  exact ⟨reading.tally,by omega⟩

theorem scans_error : Scans L (some none) none := ⟨rfl,nofun⟩

theorem scan_agrees (key : A → String) (readArtifact : File (Contents A) → Option A) (accepts : A → Bool)
    (sizes : ∀ {file a}, readArtifact file = some a → L.charge a = file.contents.size L.header) (reading : Reading L v rest s) :
    Scans L (scan L key readArtifact accepts rest s) (Engines.scan L key readArtifact accepts rest s) := by
  induction rest generalizing s with
  | nil => exact reading.done
  | cons item rest ih =>
    obtain ⟨name,i⟩ := item
    unfold scan Engines.scan
    cases there : s.volume.files i with
    | none => exact scans_error
    | some file =>
      cases name with
      | other name => exact scans_error
      | upload suffix =>
        cases regular : file.regular with
        | false =>
          simp only [regular,Bool.false_eq_true,if_false]
          exact scans_error
        | true =>
          simp only [regular,if_true]
          obtain ⟨faults,failed | ⟨_,missing⟩ | ⟨j,_,removed⟩⟩ := remove_cases (.upload suffix) s
          · rw [failed]
            exact scans_error
          · rw [missing]
            exact scans_error
          · rw [removed]
            exact ih reading.removed
      | entry stem =>
        cases regular : file.regular with
        | false =>
          simp only [regular,Bool.false_eq_true,if_false]
          exact scans_error
        | true =>
          simp only [regular,if_true]
          obtain ⟨faults,failed | ⟨j,a,f,bound,found,read,opened⟩⟩ := openFile_cases readArtifact (.entry stem) s
          · rw [failed]
            exact scans_error
          · rw [opened]
            -- the name still has the inode it was listed with
            rw [reading.names,reading.here List.mem_cons_self] at bound
            cases bound
            simp only
            by_cases accepted : (L.filename (key a) = .entry stem && accepts a) = true
            · rw [if_pos accepted,if_pos accepted]
              simp only [Bool.and_eq_true,decide_eq_true_eq] at accepted
              rw [reading.record_exact (e := ⟨a,f.modified⟩) found (sizes read)]
              exact ih (reading.recorded (e := ⟨a,f.modified⟩) found (sizes read) accepted.1)
            · rw [if_neg accepted,if_neg accepted]
              exact scans_error

end

theorem gradleScan_agrees {v : Volume FileName (Contents Gradlecache.Archive)} {rest : List (FileName × Inode)}
    {s : Store Gradlecache.Archive} (reading : Reading Gradlecache.Server.layout v rest s) :
    Scans Gradlecache.Server.layout (gradleScan rest s) (Gradlecache.Server.scan rest s) := by
  induction rest generalizing s with
  | nil => exact reading.done
  | cons item rest ih =>
    obtain ⟨name,i⟩ := item
    have skipped : Reading Gradlecache.Server.layout v rest s := reading.passed rfl rfl (fun _ => rfl) rfl
    unfold gradleScan Gradlecache.Server.scan
    cases there : s.volume.files i with
    | none => exact ih skipped
    | some file =>
      cases name with
      | other name => exact ih skipped
      | upload suffix =>
        cases regular : file.regular with
        | false =>
          simp only [regular,Bool.false_eq_true,if_false]
          exact ih skipped
        | true =>
          simp only [regular,if_true]
          obtain ⟨faults,failed | ⟨_,missing⟩ | ⟨j,_,removed⟩⟩ := remove_cases (.upload suffix) s
          · rw [failed]
            exact scans_error
          · rw [missing]
            exact scans_error
          · rw [removed]
            exact ih reading.removed
      | entry key =>
        by_cases known : (Gradlecache.validKey key && file.regular) = true
        · simp only [known,if_true]
          obtain ⟨faults,failed | worked⟩ := fails_cases s
          · rw [failed]
            exact scans_error
          · rw [worked]
            have size : Gradlecache.Server.layout.charge (⟨file.contents.size 0⟩ : Gradlecache.Archive) =
                file.contents.size Gradlecache.Server.layout.header := by
              simp [Layout.charge,Gradlecache.Server.layout]
            simp only
            rw [reading.record_exact (e := ⟨⟨file.contents.size 0⟩,file.modified⟩) there size]
            exact ih (reading.recorded (e := ⟨⟨file.contents.size 0⟩,file.modified⟩) there size rfl)
        · simp only [known,Bool.false_eq_true,if_false]
          exact ih skipped

/-! ### No step overflows -/

/-- `New` computes what it does with the integers, and so does every step of the
    server it returns, in every state that is reached. -/
def NeverOverflows (E : Engine A) (M : Machine A)
    (checkedNew : Volume FileName (Contents A) → Inode → List Bool → Option (Option (Store A)))
    (new : Volume FileName (Contents A) → Inode → List Bool → Option (Store A)) (m : Mounted A) : Prop :=
  ∀ faults, checkedNew m.volume m.next faults = some (new m.volume m.next faults) ∧
    ∀ store s l, new m.volume m.next faults = some store → Running E store s → Exact E M l s

section
variable {E : Engine A} {M : Machine A} {s : System A}

/-- What a machine has to do in a state whose counter is right. -/
structure Agrees (E : Engine A) (M : Machine A) : Prop where
  limit : ∀ {r now a}, E.start r now = .ok a → (M.limit r).isSome = true
  publish : ∀ {s : Store A} {p rollbackFails}, Tally E.layout s.entries s.used → s.used ≤ E.maxTotal →
    0 ≤ E.layout.charge p.artifact → E.layout.size p.artifact ≤ E.maxEntry →
    M.publish p rollbackFails s = some (E.publish p rollbackFails s)
  get : ∀ {s : Store A} {key now}, Tally E.layout s.entries s.used → s.used ≤ E.maxTotal →
    M.get key now s = some (E.get key now s)

theorem Measured.exact (agrees : Agrees E M) (measured : Measured E s) (l : Label) : Exact E M l s := by
  cases l with
  | create t suffix now faults =>
    intro r a found
    obtain ⟨_,now,started⟩ := measured.sized found
    exact agrees.limit started
  | publish t faults rollbackFails =>
    intro p i found
    obtain ⟨charged,small⟩ := measured.sized found
    exact agrees.publish (s := s.enter faults) measured.tally measured.within charged small
  | fetch t now faults =>
    intro key _
    exact agrees.get (s := s.enter faults) measured.tally measured.within
  | _ => trivial

end

/-- The sections of the engines that never replace an entry, by what their
    evictions leave. -/
theorem addEntry_agrees {L : Layout A} {evictLocked : Int → Store A → Store A × Evicted}
    {evictLocked' : Int → Store A → Option (Store A × Evicted)} {duplicate : A → A → Nat} {p : Staged A} {rollbackFails : Bool}
    {maxTotal : Int} {s : Store A} (leaves : ∀ {incoming s out r}, evictLocked incoming s = (out,r) →
      (∃ t faults, Evicts L (fun _ => false) s t ∧ out = { t with faults }) ∧ (r = .ok → out.used + incoming ≤ maxTotal))
    (tally : Tally L s.entries s.used) (charged : 0 ≤ L.charge p.artifact) (fits : L.charge p.artifact ≤ maxTotal)
    (small : maxTotal < 2 ^ 63)
    (evicted : evictLocked' (L.charge p.artifact) s = some (evictLocked (L.charge p.artifact) s)) :
    addEntry L evictLocked' duplicate p rollbackFails s = some (Engines.addEntry L evictLocked duplicate p rollbackFails s) := by
  refine addEntry_exact (word_of charged (by omega)) evicted (fun ok => ?_)
  obtain ⟨⟨t,faults,evicts,same⟩,room⟩ := leaves (Prod.mk.eta (p := evictLocked (L.charge p.artifact) s)).symm
  have below := room ok
  have counted : 0 ≤ (evictLocked (L.charge p.artifact) s).1.used := by
    rw [same]
    exact (tally.evicts evicts).1.nonneg
  exact word_of (by omega) (by omega)

/-- A store whose accounts are right has a counter that is. -/
theorem tally_booted {E : Engine A} {law : Lawful E} {store : Store A} (booted : Booting.Booted law store) :
    Tally E.layout store.entries store.used ∧ store.used ≤ E.maxTotal :=
  ⟨⟨booted.balanced.kept.counted,booted.balanced.kept.charged⟩,booted.balanced.within⟩

section turbocache
variable {c : Turbocache.Server}

theorem turboEvictLocked_exact {s : Store Turbocache.Artifact} {incoming : Int} (tally : Tally c.layout s.entries s.used)
    (low : 0 ≤ incoming) (small : s.used + incoming < 2 ^ 63) :
    turboEvictLocked c incoming s = some (c.evictLocked incoming s) := by
  have room : ∀ t : Store Turbocache.Artifact, Tally c.layout t.entries t.used → t.used ≤ s.used →
      turboEnough c incoming t = some (decide (t.used + incoming ≤ c.maxTotal)) := by
    intro t counted below
    have used := counted.nonneg
    simp only [turboEnough,add_word (word_of (n := t.used + incoming) (by omega) (by omega)),Option.bind_eq_bind,
      Option.bind_some]
    rfl
  exact evict_oldest_exact (by omega) room room tally (le_refl _)

theorem turboNew_exact {m : Mounted Turbocache.Artifact} {faults : List Bool} (total : Word c.maxTotal)
    (small : stored Turbocache.headerSize m.volume < 2 ^ 63) :
    turboNew c m.volume m.next faults = some (c.new m.volume m.next faults) := by
  have reading : Reading c.layout m.volume (items m.volume) (.fresh m.volume m.next faults) := .fresh small
  have sizes : ∀ {file a}, c.readArtifact file = some a → c.layout.charge a = file.contents.size c.layout.header := by
    intro file a read
    obtain ⟨_,body,contents,_,size⟩ := turbo_read read
    simp [contents,Layout.charge,Turbocache.Server.layout,Contents.size,size,add_comm]
  obtain ⟨scanned,tallied⟩ := scan_agrees (fun a => a.key) c.readArtifact (fun a => decide (a.size ≤ c.maxEntry)) sizes reading
  unfold turboNew Turbocache.Server.new
  by_cases limits : (decide (c.maxEntry ≤ 0) || decide (c.maxTotal ≤ Turbocache.headerSize)) = true
  · simp only [limits,if_true,Bool.true_or]
    rfl
  · have room : sub c.maxTotal Turbocache.headerSize = some (c.maxTotal - Turbocache.headerSize) := by
      simp only [Bool.or_eq_true,decide_eq_true_eq,not_or,not_le] at limits
      exact sub_word (word_of (by omega) (by have := total.2; omega))
    simp only [limits,Bool.false_eq_true,if_false,Bool.false_or,room,Option.bind_eq_bind,Option.bind_some,gt_iff_lt,decide_eq_true_eq]
    by_cases large : c.maxTotal - Turbocache.headerSize < c.maxEntry
    · rw [if_pos large,if_pos large]
      rfl
    · rw [if_neg large,if_neg large]
      rw [scanned]
      cases read : Engines.scan c.layout (fun a => a.key) c.readArtifact (fun a => decide (a.size ≤ c.maxEntry)) (items m.volume)
          (.fresh m.volume m.next faults) with
      | none => rfl
      | some s =>
        obtain ⟨tally,below⟩ := tallied s read
        simp only [Option.bind_some,turboEvictLocked_exact tally (le_refl 0) (by omega : s.used + 0 < 2 ^ 63)]
        cases c.evictLocked 0 s with
        | mk t r => cases r <;> rfl

theorem turbo_started {r : Put} {now : Nat} {a : Turbocache.Artifact} (started : c.start r now = .ok a) :
    0 ≤ r.contentLength ∧ r.contentLength ≤ c.maxEntry := by
  unfold Turbocache.Server.start at started
  split at started
  · cases started
  split at started
  · cases started
  omega

theorem turbo_agrees (limits : c.maxEntry + Turbocache.headerSize ≤ c.maxTotal) (total : Word c.maxTotal)
    (sum : c.maxTotal + c.maxEntry + Turbocache.headerSize < 2 ^ 63) : Agrees c.engine (turboMachine c) where
  limit := by
    intro r now a started
    obtain ⟨low,high⟩ := turbo_started (show c.start r now = .ok a from started)
    have length : Word (r.contentLength + 1) := word_of (by omega) (by simp only [Turbocache.headerSize] at sum; omega)
    simp only [turboMachine,add_word length,Option.isSome_some]
  publish := by
    intro s p rollbackFails tally within charged small
    have charge : c.layout.charge p.artifact ≤ c.maxEntry + Turbocache.headerSize := by
      change p.artifact.size + (Turbocache.headerSize : Int) ≤ _
      have small : p.artifact.size ≤ c.maxEntry := small
      omega
    have within : s.used ≤ c.maxTotal := within
    have fits : c.layout.charge p.artifact ≤ c.maxTotal := by omega
    refine addEntry_agrees (fun ended => ?_) tally charged fits total.2 (turboEvictLocked_exact tally charged (by omega))
    obtain ⟨evicted,room,_⟩ := turbo_evictLocked ended
    exact ⟨evicted,room⟩
  get := fun _ _ => rfl

end turbocache

section nxcache
variable {c : Nxcache.Server}

theorem nxEvictLocked_exact {s : Store Nxcache.Artifact} {incoming : Int} (tally : Tally c.layout s.entries s.used)
    (small : s.used < 2 ^ 63) (room : Word (c.maxTotal - incoming)) :
    nxEvictLocked c incoming s = some (c.evictLocked incoming s) := by
  have enough : ∀ t : Store Nxcache.Artifact, Tally c.layout t.entries t.used → t.used ≤ s.used →
      nxEnough c incoming t = some (decide (t.used ≤ c.maxTotal - incoming)) := by
    intro t _ _
    simp only [nxEnough,sub_word room,Option.bind_eq_bind,Option.bind_some]
    rfl
  exact evict_oldest_exact small enough enough tally (le_refl _)

theorem nxNew_exact {m : Mounted Nxcache.Artifact} {faults : List Bool} (total : Word c.maxTotal)
    (small : stored Nxcache.headerSize m.volume < 2 ^ 63) :
    nxNew c m.volume m.next faults = some (c.new m.volume m.next faults) := by
  have reading : Reading c.layout m.volume (items m.volume) (.fresh m.volume m.next faults) := .fresh small
  have sizes : ∀ {file a}, c.readArtifact file = some a → c.layout.charge a = file.contents.size c.layout.header := by
    intro file a read
    obtain ⟨_,body,contents,_,size⟩ := nx_read read
    simp [contents,Layout.charge,Nxcache.Server.layout,Contents.size,size,add_comm]
  obtain ⟨scanned,tallied⟩ := scan_agrees (fun a => a.key) c.readArtifact (fun a => decide (a.size ≤ c.maxEntry)) sizes reading
  unfold nxNew Nxcache.Server.new
  by_cases limits : (decide (c.maxEntry ≤ 0) || decide (c.maxTotal ≤ Nxcache.headerSize)) = true
  · simp only [limits,if_true,Bool.true_or]
    rfl
  · have room : sub c.maxTotal Nxcache.headerSize = some (c.maxTotal - Nxcache.headerSize) := by
      simp only [Bool.or_eq_true,decide_eq_true_eq,not_or,not_le] at limits
      exact sub_word (word_of (by omega) (by have := total.2; omega))
    have whole : Word (c.maxTotal - 0) := by rw [sub_zero]; exact total
    simp only [limits,Bool.false_eq_true,if_false,Bool.false_or,room,Option.bind_eq_bind,Option.bind_some,gt_iff_lt,
      decide_eq_true_eq]
    by_cases large : c.maxTotal - Nxcache.headerSize < c.maxEntry
    · rw [if_pos large,if_pos large]
      rfl
    · rw [if_neg large,if_neg large]
      rw [scanned]
      cases read : Engines.scan c.layout (fun a => a.key) c.readArtifact (fun a => decide (a.size ≤ c.maxEntry)) (items m.volume)
          (.fresh m.volume m.next faults) with
      | none => rfl
      | some s =>
        obtain ⟨tally,below⟩ := tallied s read
        simp only [Option.bind_some,nxEvictLocked_exact tally below whole]
        cases c.evictLocked 0 s with
        | mk t r => cases r <;> rfl

theorem nx_started {r : Put} {now : Nat} {a : Nxcache.Artifact} (started : c.start r now = .ok a) :
    0 ≤ r.contentLength ∧ r.contentLength ≤ c.maxEntry := by
  unfold Nxcache.Server.start at started
  split at started
  · cases started
  split at started
  · cases started
  omega

/-- The limits that `New` accepts are enough for Nx, which subtracts from the total. -/
theorem nx_agrees (limits : c.maxEntry + Nxcache.headerSize ≤ c.maxTotal) (total : Word c.maxTotal) :
    Agrees c.engine (nxMachine c) where
  limit := by
    intro r now a started
    obtain ⟨low,high⟩ := nx_started (show c.start r now = .ok a from started)
    have bounded := total.2
    have length : Word (r.contentLength + 1) := word_of (by omega) (by simp only [Nxcache.headerSize] at limits; omega)
    simp only [nxMachine,add_word length,Option.isSome_some]
  publish := by
    intro s p rollbackFails tally within charged small
    have charge : c.layout.charge p.artifact ≤ c.maxEntry + Nxcache.headerSize := by
      change p.artifact.size + (Nxcache.headerSize : Int) ≤ _
      have small : p.artifact.size ≤ c.maxEntry := small
      omega
    have within : s.used ≤ c.maxTotal := within
    have bounded := total.2
    have charged : 0 ≤ c.layout.charge p.artifact := charged
    have fits : c.layout.charge p.artifact ≤ c.maxTotal := by omega
    have room : Word (c.maxTotal - c.layout.charge p.artifact) := word_of (by omega) (by omega)
    change addEntry c.layout (nxEvictLocked c) (fun _ _ => 409) p rollbackFails s =
      some (Engines.addEntry c.layout c.evictLocked (fun _ _ => 409) p rollbackFails s)
    refine addEntry_agrees (fun ended => ?_) tally charged fits bounded (nxEvictLocked_exact tally (by omega) room)
    obtain ⟨evicted,room,_⟩ := nx_evictLocked ended
    exact ⟨evicted,room⟩
  get := fun _ _ => rfl

end nxcache

section gocache
variable {c : Gocache.Server}

def goSizing (c : Gocache.Server) : Sizing c.engine where
  replaces := true
  Reads := fun a file => c.readArtifact file = some a
  publish := go_publishing
  get := go_fetching
  finish := by
    intro r now a body a' _ started finished
    obtain ⟨good,small⟩ := go_finish (show c.start r now = .ok a from started) finished
    exact ⟨by rw [show c.engine.layout.charge a' = _ from go_charge good]; exact Int.natCast_nonneg _,small⟩

theorem goEvictLocked_exact {s : Store Gocache.Artifact} {incoming : Int} {keep : Option String} {adding : Bool}
    (tally : Tally c.layout s.entries s.used) (small : s.used < 2 ^ 63) (room : Word (c.maxTotal - incoming)) :
    goEvictLocked c incoming keep adding s = some (c.evictLocked incoming keep adding s) := by
  have fits : ∀ t : Store Gocache.Artifact, goFits c incoming t = some (decide (t.used ≤ c.maxTotal - incoming)) := by
    intro t
    simp only [goFits,sub_word room,Option.bind_eq_bind,Option.bind_some]
    rfl
  refine evict_oldest_exact small (fun t _ _ => ?_) (fun t _ _ => fits t) tally (le_refl _)
  simp only [goEnough,fits t,Option.bind_eq_bind,Option.bind_some]
  rfl

theorem goNew_exact {m : Mounted Gocache.Artifact} {faults : List Bool} (total : Word c.maxTotal)
    (small : stored Gocache.headerSize m.volume < 2 ^ 63) :
    goNew c m.volume m.next faults = some (c.new m.volume m.next faults) ∧
      ∀ s, c.new m.volume m.next faults = some s → Tally c.layout s.entries s.used ∧ s.used ≤ c.maxTotal := by
  have reading : Reading c.layout m.volume (items m.volume) (.fresh m.volume m.next faults) := .fresh small
  have sizes : ∀ {file a}, c.readArtifact file = some a → c.layout.charge a = file.contents.size c.layout.header := by
    intro file a read
    obtain ⟨_,body,contents,_,size⟩ := go_read read
    simp [contents,Layout.charge,Gocache.Server.layout,Contents.size,size,add_comm]
  obtain ⟨scanned,tallied⟩ := scan_agrees (fun a => a.key) c.readArtifact
    (fun a => decide (a.size ≤ c.maxEntry) && decide (a.uncompressedSize ≤ c.maxEntry)) sizes reading
  constructor
  · unfold goNew Gocache.Server.new
    by_cases limits : (decide (c.maxEntry ≤ 0) || decide (c.maxTotal ≤ Gocache.headerSize)) = true
    · simp only [limits,if_true,Bool.true_or]
      rfl
    · have room : sub c.maxTotal Gocache.headerSize = some (c.maxTotal - Gocache.headerSize) := by
        simp only [Bool.or_eq_true,decide_eq_true_eq,not_or,not_le] at limits
        exact sub_word (word_of (by omega) (by have := total.2; omega))
      have whole : Word (c.maxTotal - 0) := by rw [sub_zero]; exact total
      simp only [limits,Bool.false_eq_true,if_false,Bool.false_or,room,Option.bind_eq_bind,Option.bind_some,gt_iff_lt,
        decide_eq_true_eq]
      by_cases large : c.maxTotal - Gocache.headerSize < c.maxEntry
      · rw [if_pos large,if_pos large]
        rfl
      · rw [if_neg large,if_neg large]
        rw [scanned]
        cases read : Engines.scan c.layout (fun a => a.key) c.readArtifact
            (fun a => decide (a.size ≤ c.maxEntry) && decide (a.uncompressedSize ≤ c.maxEntry)) (items m.volume)
            (.fresh m.volume m.next faults) with
        | none => rfl
        | some s =>
          obtain ⟨tally,below⟩ := tallied s read
          simp only [Option.bind_some,goEvictLocked_exact tally below whole]
          cases c.evictLocked 0 none false s with
          | mk t r => cases r <;> rfl
  · intro s made
    obtain ⟨_,read,t,later,found,evicts,within,rfl⟩ := go_made made
    obtain ⟨tally,_⟩ := tallied read found
    exact ⟨(tally.evicts evicts).1,within⟩

theorem go_started {r : Put} {now : Nat} {a : Gocache.Artifact} (started : c.start r now = .ok a) :
    0 ≤ r.contentLength ∧ r.contentLength ≤ c.maxEntry := by
  unfold Gocache.Server.start at started
  split at started
  · cases started
  split at started
  · cases started
  split at started
  · cases started
  omega

/-- The envelope that is replaced is still counted after the evictions, which keep
    its key, so that the difference is not negative. -/
theorem goPublish_exact {s : Store Gocache.Artifact} {p : Staged Gocache.Artifact} (rollbackFails : Bool)
    (tally : Tally c.layout s.entries s.used) (within : s.used ≤ c.maxTotal) (total : Word c.maxTotal)
    (charged : 0 ≤ c.layout.charge p.artifact) (fits : c.layout.charge p.artifact ≤ c.maxTotal) :
    goPublish c p rollbackFails s = some (c.publish p rollbackFails s) := by
  have bounded := total.2
  have charge : add p.artifact.size Gocache.headerSize = some (c.layout.charge p.artifact) :=
    add_word (word_of charged (lt_of_le_of_lt fits bounded))
  have old : goReplaced p.key s = some (c.replaced p.key s) ∧ 0 ≤ c.replaced p.key s ∧ c.replaced p.key s ≤ s.used := by
    have used := tally.nonneg
    unfold goReplaced Gocache.Server.replaced
    cases found : s.entries.lookup p.key with
    | none => exact ⟨rfl,le_refl 0,used⟩
    | some e =>
      have low := tally.charged found
      have high := tally.le found
      exact ⟨add_word (word_of low (lt_of_le_of_lt (high.trans within) bounded)),low,high⟩
  obtain ⟨replaced,low,high⟩ := old
  have difference : sub (c.layout.charge p.artifact) (c.replaced p.key s) =
      some (c.layout.charge p.artifact - c.replaced p.key s) := sub_word ⟨by omega,by omega⟩
  have incoming : (if c.layout.charge p.artifact - c.replaced p.key s < 0 then 0
      else c.layout.charge p.artifact - c.replaced p.key s) = c.incoming p.key p.artifact s := rfl
  have extra : 0 ≤ c.incoming p.key p.artifact s ∧ c.incoming p.key p.artifact s ≤ c.maxTotal ∧
      c.layout.charge p.artifact - c.replaced p.key s ≤ c.incoming p.key p.artifact s := by
    rw [← incoming]
    split <;> omega
  unfold goPublish Gocache.Server.publish
  simp only [charge,replaced,difference,incoming,Option.bind_eq_bind,Option.bind_some]
  have room : Word (c.maxTotal - c.incoming p.key p.artifact s) := word_of (by omega) (by omega)
  rw [goEvictLocked_exact tally (by omega) room]
  simp only [Option.bind_some]
  cases ran : c.evictLocked (c.incoming p.key p.artifact s) (some p.key) (s.entries.lookup p.key).isNone s with
  | mk out r =>
    obtain ⟨⟨t,faults,evicts,rfl⟩,space,_⟩ := go_evictLocked ran
    cases r with
    | failed => rfl
    | exceeded => rfl
    | ok =>
      obtain ⟨counted,below⟩ := tally.evicts evicts
      have space := (space rfl).1
      have left : c.replaced p.key s ≤ t.used := by
        unfold Gocache.Server.replaced
        rw [← evicts.kept (k := p.key) (by simp)]
        cases found : t.entries.lookup p.key with
        | none => exact counted.nonneg
        | some e => exact counted.le found
      simp only at space ⊢
      obtain ⟨later,failed | ⟨i,_,renamed⟩⟩ := rename_cases p.tmp (c.filename p.key) { t with faults }
      · rw [failed]
        rfl
      · rw [renamed]
        simp only
        have rest : sub t.used (c.replaced p.key s) = some (t.used - c.replaced p.key s) :=
          sub_word (word_of (by omega) (by omega))
        have grown : Word (t.used - c.replaced p.key s + c.layout.charge p.artifact) := word_of (by omega) (by omega)
        change (sub t.used (c.replaced p.key s)).bind _ = _
        rw [rest]
        simp only [Option.bind_some]
        rw [record_exact (e := ⟨p.artifact,p.accessed⟩) (word_of charged (lt_of_le_of_lt fits bounded)) grown]
        simp only [Option.bind_some,Store.perform]
        generalize Store.record c.layout p.key _ p.contents _ = u
        cases u.syncRoot with
        | mk w b => cases b <;> rfl

theorem go_agrees (limits : c.maxEntry + Gocache.headerSize ≤ c.maxTotal) (total : Word c.maxTotal) :
    Agrees c.engine (goMachine c) where
  limit := by
    intro r now a started
    obtain ⟨low,high⟩ := go_started (show c.start r now = .ok a from started)
    have bounded := total.2
    have length : Word (r.contentLength + 1) := word_of (by omega) (by simp only [Gocache.headerSize] at limits; omega)
    simp only [goMachine,add_word length,Option.isSome_some]
  publish := by
    intro s p rollbackFails tally within charged small
    have fits : c.layout.charge p.artifact ≤ c.maxTotal := by
      change p.artifact.size + (Gocache.headerSize : Int) ≤ _
      have small : p.artifact.size ≤ c.maxEntry := small
      omega
    exact goPublish_exact rollbackFails tally within total charged fits
  get := fun _ _ => rfl

end gocache

section gradlecache
variable {c : Gradlecache.Server} {s : Store Gradlecache.Archive}

theorem gradleEvictLocked_exact {kept : Option String} (tally : Tally Gradlecache.Server.layout s.entries s.used)
    (small : s.used < 2 ^ 63) : gradleEvictLocked c kept s = some (c.evictLocked kept s) := by
  unfold gradleEvictLocked Gradlecache.Server.evictLocked
  by_cases room : s.used ≤ c.maxTotal
  · simp only [room,decide_true,if_true]
  · simp only [room,decide_false,Bool.false_eq_true,if_false]
    exact evict_oldest_exact small (fun _ _ _ => rfl) (fun _ _ _ => rfl) tally (le_refl _)

theorem gradleNew_exact {m : Mounted Gradlecache.Archive} {faults : List Bool} (small : stored 0 m.volume < 2 ^ 63) :
    gradleNew c m.volume m.next faults = some (c.new m.volume m.next faults) := by
  have reading : Reading Gradlecache.Server.layout m.volume (items m.volume) (.fresh m.volume m.next faults) := .fresh small
  obtain ⟨scanned,tallied⟩ := gradleScan_agrees reading
  unfold gradleNew Gradlecache.Server.new
  split
  · rfl
  · rw [scanned]
    simp only [Option.bind_eq_bind,Option.bind_some]
    cases read : Gradlecache.Server.scan (items m.volume) (.fresh m.volume m.next faults) with
    | none => rfl
    | some s =>
      obtain ⟨tally,below⟩ := tallied s read
      simp only [gradleEvictLocked_exact tally below,Option.bind_some]
      cases c.evictLocked none s with
      | mk t r => cases r <;> rfl

/-- The archive is counted before others make room for it. -/
theorem gradlePublish_exact {p : Staged Gradlecache.Archive} (rollbackFails : Bool)
    (tally : Tally Gradlecache.Server.layout s.entries s.used) (charged : 0 ≤ Gradlecache.Server.layout.charge p.artifact)
    (sum : s.used + Gradlecache.Server.layout.charge p.artifact < 2 ^ 63) :
    gradlePublish c p rollbackFails s = some (c.publish p rollbackFails s) := by
  have used := tally.nonneg
  unfold gradlePublish Gradlecache.Server.publish
  cases known : s.entries.lookup p.key with
  | some old => rfl
  | none =>
    simp only
    obtain ⟨faults,⟨_,failed⟩ | ⟨i,_,_,linked⟩⟩ := link_cases p.tmp (Gradlecache.Server.layout.filename p.key) s
    · cases result : s.link p.tmp (Gradlecache.Server.layout.filename p.key) with
      | mk u r =>
        rw [result] at failed
        cases r with
        | ok => exact absurd rfl failed
        | exist => rfl
        | failed => rfl
    · rw [linked]
      simp only
      generalize made : ({ s.perform (.link (Gradlecache.Server.layout.filename p.key) i) with faults } :
        Store Gradlecache.Archive) = u
      have entries : u.entries = s.entries := by rw [← made]; rfl
      have counter : u.used = s.used := by rw [← made]; rfl
      have added : Tally Gradlecache.Server.layout
          (u.record Gradlecache.Server.layout p.key ⟨p.artifact,p.accessed⟩ p.contents).entries
          (u.record Gradlecache.Server.layout p.key ⟨p.artifact,p.accessed⟩ p.contents).used := by
        change Tally _ (u.entries.insert p.key _) (u.used + _)
        rw [entries,counter]
        exact tally.added known charged
      have total : (u.record Gradlecache.Server.layout p.key ⟨p.artifact,p.accessed⟩ p.contents).used < 2 ^ 63 := by
        change u.used + Gradlecache.Server.layout.charge p.artifact < 2 ^ 63
        rw [counter]
        exact sum
      rw [record_exact (e := ⟨p.artifact,p.accessed⟩) (word_of charged (by simp only; omega))
        (word_of (by simp only; omega) total)]
      simp only [Option.bind_eq_bind,Option.bind_some]
      rw [gradleEvictLocked_exact added total]
      simp only [Option.bind_some]
      cases ran : c.evictLocked (some p.key) (u.record Gradlecache.Server.layout p.key ⟨p.artifact,p.accessed⟩ p.contents) with
      | mk out r =>
        obtain ⟨⟨t,later,evicts,rfl⟩,_,_⟩ := gradle_evictLocked ran
        obtain ⟨counted,below⟩ := added.evicts evicts
        have there : t.entries.lookup p.key = some ⟨p.artifact,p.accessed⟩ := by
          rw [evicts.kept (by simp)]
          exact AList.lookup_insert _
        -- the archive is there still, whether or not its name can be removed
        have undone : ∀ w : Store Gradlecache.Archive, w.entries = t.entries → w.used = t.used →
            delete Gradlecache.Server.layout p.key w = some (w.delete Gradlecache.Server.layout p.key) := by
          intro w same equal
          refine delete_exact (e := ⟨p.artifact,p.accessed⟩) ?_ ?_ ?_
          · rw [same,equal]
            exact counted
          · rw [same]
            exact there
          · rw [equal]
            omega
        have removed : ∀ name, (({ t with faults := [rollbackFails] } : Store Gradlecache.Archive).remove name).1.entries = t.entries ∧
            (({ t with faults := [rollbackFails] } : Store Gradlecache.Archive).remove name).1.used = t.used := by
          intro name
          obtain ⟨f,failed | ⟨_,missing⟩ | ⟨j,_,gone⟩⟩ := remove_cases name { t with faults := [rollbackFails] }
          · rw [failed]
            exact ⟨rfl,rfl⟩
          · rw [missing]
            exact ⟨rfl,rfl⟩
          · rw [gone]
            exact ⟨rfl,rfl⟩
        cases r with
        | ok => rfl
        | failed =>
          simp only [undone _ (removed _).1 (removed _).2,Option.bind_some]
          rfl
        | exceeded =>
          simp only [undone _ (removed _).1 (removed _).2,Option.bind_some]
          rfl

theorem gradleGet_exact {key : String} {now : Nat} (tally : Tally Gradlecache.Server.layout s.entries s.used)
    (small : s.used < 2 ^ 63) : gradleGet key now s = some (Gradlecache.Server.get key now s) := by
  unfold gradleGet Gradlecache.Server.get
  cases found : s.entries.lookup key with
  | none => rfl
  | some e =>
    simp only
    obtain ⟨faults,failed | worked⟩ := fails_cases s
    · rw [failed]
    · rw [worked]
      simp only
      cases there : (s.volume.names.lookup (Gradlecache.Server.layout.filename key)).bind
          (fun i => (s.volume.files i).map (fun f => (i,f))) with
      | none =>
        have deleted := delete_exact (s := { s with faults }) tally found small
        simp only [deleted,Option.bind_eq_bind,Option.bind_some]
        rfl
      | some row => simp only

theorem gradle_agrees (limits : 0 < c.maxEntry ∧ c.maxEntry ≤ c.maxTotal) (total : Word c.maxTotal)
    (sum : c.maxTotal + c.maxEntry < 2 ^ 63) : Agrees c.engine (gradleMachine c) where
  limit := by
    intro r now a _
    have length : Word (c.maxEntry + 1) := word_of (by omega) (by omega)
    simp only [gradleMachine,add_word length,Option.isSome_some]
  publish := by
    intro s p rollbackFails tally within charged small
    have within : s.used ≤ c.maxTotal := within
    have charge : Gradlecache.Server.layout.charge p.artifact ≤ c.maxEntry := by
      change p.artifact.size + ((0 : Nat) : Int) ≤ _
      have small : p.artifact.size ≤ c.maxEntry := small
      omega
    exact gradlePublish_exact rollbackFails tally charged (by omega)
  get := by
    intro s key now tally within
    exact gradleGet_exact tally (lt_of_le_of_lt within total.2)

end gradlecache

/-- No sum or difference of sizes overflows in any state a server reaches: under
    the limits that `New` accepts in Nx and Go, and where the total has room for one
    more entry in Turborepo and Gradle, which add before they compare. -/
theorem never_overflows (sha256 md5 : List UInt8 → String) (maxEntry maxTotal : Int) (readOnly : Bool)
    (total : Word maxTotal) :
    (∀ (c : Turbocache.Server) (m : Mounted Turbocache.Artifact), c = ⟨sha256,maxEntry,maxTotal⟩ →
      stored Turbocache.headerSize m.volume < 2 ^ 63 → maxTotal + maxEntry + Turbocache.headerSize < 2 ^ 63 →
      NeverOverflows c.engine (turboMachine c) (turboNew c) c.new m) ∧
    (∀ (c : Nxcache.Server) (m : Mounted Nxcache.Artifact), c = ⟨sha256,maxEntry,maxTotal⟩ →
      stored Nxcache.headerSize m.volume < 2 ^ 63 → NeverOverflows c.engine (nxMachine c) (nxNew c) c.new m) ∧
    (∀ (c : Gocache.Server) (m : Mounted Gocache.Artifact), c = ⟨sha256,md5,maxEntry,maxTotal,readOnly⟩ →
      stored Gocache.headerSize m.volume < 2 ^ 63 → NeverOverflows c.engine (goMachine c) (goNew c) c.new m) ∧
    (∀ (c : Gradlecache.Server) (m : Mounted Gradlecache.Archive), c = ⟨maxEntry,maxTotal⟩ →
      stored 0 m.volume < 2 ^ 63 → maxTotal + maxEntry < 2 ^ 63 →
      NeverOverflows c.engine (gradleMachine c) (gradleNew c) c.new m) := by
  refine ⟨?_,?_,?_,?_⟩
  · rintro c m rfl small sum faults
    refine ⟨turboNew_exact total small,fun store s l made running => ?_⟩
    obtain ⟨limits,booted⟩ := turbo_new made
    obtain ⟨tally,within⟩ := tally_booted booted
    exact (measured_running (sizingOf (turboLaw _)) tally within running).exact (turbo_agrees limits.2 total sum) l
  · rintro c m rfl small faults
    refine ⟨nxNew_exact total small,fun store s l made running => ?_⟩
    obtain ⟨limits,booted⟩ := nx_new made
    obtain ⟨tally,within⟩ := tally_booted booted
    exact (measured_running (sizingOf (nxLaw _)) tally within running).exact (nx_agrees limits.2 total) l
  · rintro c m rfl small faults
    obtain ⟨news,boots⟩ := goNew_exact (c := ⟨sha256,md5,maxEntry,maxTotal,readOnly⟩) total small
    refine ⟨news,fun store s l made running => ?_⟩
    obtain ⟨limits,_⟩ := go_made made
    obtain ⟨tally,within⟩ := boots store made
    exact (measured_running (goSizing _) tally within running).exact (go_agrees limits.2 total) l
  · rintro c m rfl small sum faults
    refine ⟨gradleNew_exact small,fun store s l made running => ?_⟩
    obtain ⟨limits,booted⟩ := gradle_new made
    obtain ⟨tally,within⟩ := tally_booted booted
    exact (measured_running (sizingOf (gradleLaw _)) tally within running).exact (gradle_agrees limits total sum) l

theorem never_overflows_blank :
    NeverOverflows turboServer.engine (turboMachine turboServer) (turboNew turboServer) turboServer.new blank ∧
    NeverOverflows nxServer.engine (nxMachine nxServer) (nxNew nxServer) nxServer.new blank ∧
    NeverOverflows goServer.engine (goMachine goServer) (goNew goServer) goServer.new blank ∧
    NeverOverflows gradleServer.engine (gradleMachine gradleServer) (gradleNew gradleServer) gradleServer.new blank := by
  obtain ⟨turbo,nx,go,gradle⟩ := never_overflows digest goServer.md5 10 10000 false (by decide)
  exact ⟨turbo turboServer blank rfl (by decide) (by decide),nx nxServer blank rfl (by decide),
    go goServer blank rfl (by decide),gradle gradleServer blank rfl (by decide) (by decide)⟩

/-- The largest limits, which `New` accepts. -/
def largest : Gradlecache.Server := ⟨2 ^ 63 - 1,2 ^ 63 - 1⟩

/-- The first request is about to stage its body. -/
def admits (s : System Gradlecache.Archive) : Bool :=
  match s.threads.lookup 0 with
  | some (.admitted _ _) => true
  | _ => false

/-- A body is copied through a reader whose bound has overflowed. -/
theorem largest_overflows : Word largest.maxEntry ∧ Word largest.maxTotal ∧
    stored 0 (blank : Mounted Gradlecache.Archive).volume < 2 ^ 63 ∧
    ¬NeverOverflows largest.engine (gradleMachine largest) (gradleNew largest) largest.new blank := by
  refine ⟨by decide,by decide,by decide,fun never => ?_⟩
  let r : Put := ⟨String.ofList (List.replicate 32 '0'),3,fun _ => []⟩
  obtain ⟨store,s,made,served,waiting⟩ := served_of_serve largest.engine (largest.new blank.volume 0 []) [.put r,.start 0 1]
    admits (by decide +kernel)
  unfold admits at waiting
  split at waiting
  · rename_i r a found
    have bound : (add largest.maxEntry 1).isSome = true :=
      (never []).2 store s (.create 0 "1" 2 []) made (served.mono (fun _ _ _ => trivial)) r a found
    exact absurd bound (by decide)
  · cases waiting

end Expbuild.Overflow
