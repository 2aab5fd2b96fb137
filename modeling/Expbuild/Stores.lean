import Expbuild.Engines

/-!
What the sections of an engine can do to its store. Every section evicts some
entries (`Evicts`) and then does one of a few things (`Publishing`, `Fetching`);
this is read off each engine once, and every invariant of a server is then
proved over these cases only.
-/
namespace Expbuild.Stores
open Expbuild.Tables Expbuild.Disks Expbuild.Engines

variable {A : Type} {L : Layout A} {s t : Store A} {k : String}

/-- An eviction that succeeds: the file goes, if it is there, and the entry. -/
def dropKey (L : Layout A) (k : String) (s : Store A) : Store A :=
  match s.volume.names.lookup (L.filename k) with
  | some _ => (s.perform (.unlink (L.filename k))).delete L k
  | none => s.delete L k

/-- Evictions of entries that `keep` does not hold of, one after the other. -/
inductive Evicts (L : Layout A) (keep : String → Bool) (s : Store A) : Store A → Prop where
  | refl : Evicts L keep s s
  | drop {t : Store A} {k : String} {e : Entry A} : Evicts L keep s t → t.entries.lookup k = some e → keep k = false →
      Evicts L keep s (dropKey L k t)

@[simp] theorem dropKey_entries (L : Layout A) (k : String) (s : Store A) :
    (dropKey L k s).entries = s.entries.erase k := by
  unfold dropKey; split <;> rfl

@[simp] theorem dropKey_next (L : Layout A) (k : String) (s : Store A) : (dropKey L k s).next = s.next := by
  unfold dropKey; split <;> rfl

@[simp] theorem dropKey_log (L : Layout A) (k : String) (s : Store A) :
    (dropKey L k s).log = .dropped k :: s.log := by
  unfold dropKey; split <;> rfl

theorem dropKey_used {e : Entry A} (found : s.entries.lookup k = some e) :
    (dropKey L k s).used = s.used - L.charge e.artifact := by
  unfold dropKey
  split
  · simp [Store.delete,Store.perform,found,Layout.charge]
  · simp [Store.delete,found,Layout.charge]

theorem dropKey_volume (L : Layout A) (k : String) (s : Store A) :
    (dropKey L k s).volume = s.volume.apply (.unlink (L.filename k)) ∨
      (s.volume.names.lookup (L.filename k) = none ∧ (dropKey L k s).volume = s.volume) := by
  unfold dropKey
  split
  · exact .inl rfl
  · rename_i missing; exact .inr ⟨missing,rfl⟩

/-- What every eviction keeps, evictions keep. -/
theorem Evicts.invariant {keep : String → Bool} {I : Store A → Prop} (evicts : Evicts L keep s t) (base : I s)
    (kept : ∀ t k e, I t → t.entries.lookup k = some e → keep k = false → I (dropKey L k t)) : I t := by
  induction evicts with
  | refl => exact base
  | drop _ found may ih => exact kept _ _ _ ih found may

theorem Evicts.kept {keep : String → Bool} (evicts : Evicts L keep s t) {k : String} (held : keep k = true) :
    t.entries.lookup k = s.entries.lookup k := by
  induction evicts with
  | refl => rfl
  | @drop t j e _ _ may ih =>
    have other : k ≠ j := by rintro rfl; rw [held] at may; cases may
    rw [dropKey_entries,AList.lookup_erase_ne other,ih]

theorem Evicts.older {keep : String → Bool} (evicts : Evicts L keep s t) {k : String} {e : Entry A}
    (found : t.entries.lookup k = some e) : s.entries.lookup k = some e := by
  induction evicts with
  | refl => exact found
  | @drop t j e' _ _ _ ih =>
    rw [dropKey_entries,lookup_erase] at found
    split at found
    · cases found
    · exact ih found

/-! ### Calls -/

section calls

theorem fails_cases (s : Store A) : ∃ faults, s.fails = ({ s with faults },true) ∨ s.fails = ({ s with faults },false) := by
  unfold Store.fails
  split
  · exact ⟨s.faults,.inr rfl⟩
  · rename_i fault rest _
    cases fault with
    | true => exact ⟨rest,.inl rfl⟩
    | false => exact ⟨rest,.inr rfl⟩

theorem remove_cases (name : FileName) (s : Store A) : ∃ faults,
    s.remove name = ({ s with faults },.failed) ∨
    (s.volume.names.lookup name = none ∧ s.remove name = ({ s with faults },.notExist)) ∨
    (∃ i, s.volume.names.lookup name = some i ∧
      s.remove name = ({ s.perform (.unlink name) with faults },.ok)) := by
  unfold Store.remove
  obtain ⟨faults,failed | worked⟩ := fails_cases s
  · rw [failed]; exact ⟨faults,.inl rfl⟩
  · rw [worked]
    refine ⟨faults,.inr ?_⟩
    cases bound : s.volume.names.lookup name with
    | none => refine .inl ⟨rfl,?_⟩; simp only [Store.volume] at bound ⊢; rw [bound]
    | some i => refine .inr ⟨i,rfl,?_⟩; simp only [Store.volume] at bound ⊢; rw [bound]; rfl

theorem link_cases (source target : FileName) (s : Store A) : ∃ faults,
    (s.link source target).1 = { s with faults } ∧ (s.link source target).2 ≠ .ok ∨
    (∃ i, s.volume.names.lookup source = some i ∧ s.volume.names.lookup target = none ∧
      s.link source target = ({ s.perform (.link target i) with faults },.ok)) := by
  unfold Store.link
  obtain ⟨faults,failed | worked⟩ := fails_cases s
  · rw [failed]; exact ⟨faults,.inl ⟨rfl,by simp⟩⟩
  · rw [worked]
    refine ⟨faults,?_⟩
    simp only [Store.volume]
    cases from_ : s.disk.volume.names.lookup source with
    | none => exact .inl ⟨rfl,by simp⟩
    | some i =>
      cases to_ : s.disk.volume.names.lookup target with
      | none => exact .inr ⟨i,rfl,rfl,rfl⟩
      | some j => exact .inl ⟨rfl,by simp⟩

theorem rename_cases (source target : FileName) (s : Store A) : ∃ faults,
    s.rename source target = ({ s with faults },false) ∨
    (∃ i, s.volume.names.lookup source = some i ∧
      s.rename source target = ({ s.perform (.rename source target i) with faults },true)) := by
  unfold Store.rename
  obtain ⟨faults,failed | worked⟩ := fails_cases s
  · rw [failed]; exact ⟨faults,.inl rfl⟩
  · rw [worked]
    refine ⟨faults,?_⟩
    simp only [Store.volume]
    cases from_ : s.disk.volume.names.lookup source with
    | none => exact .inl rfl
    | some i => exact .inr ⟨i,rfl,rfl⟩

theorem syncRoot_cases (s : Store A) : ∃ faults,
    s.syncRoot = ({ s with faults },false) ∨ s.syncRoot = ({ s.perform .syncDirectory with faults },true) := by
  unfold Store.syncRoot
  obtain ⟨faults,failed | worked⟩ := fails_cases s
  · rw [failed]; exact ⟨faults,.inl rfl⟩
  · rw [worked]; exact ⟨faults,.inr rfl⟩

/-- A name that is taken back goes, unless that fails too. -/
theorem rollback_cases {name : FileName} {i : Inode} (rollbackFails : Bool) (bound : s.volume.names.lookup name = some i) :
    ∃ faults, (rollbackFails = true ∧ (({ s with faults := [rollbackFails] } : Store A).remove name).1 = { s with faults }) ∨
      (({ s with faults := [rollbackFails] } : Store A).remove name).1 = { s.perform (.unlink name) with faults } := by
  refine ⟨[],?_⟩
  simp only [Store.remove,Store.fails]
  cases rollbackFails with
  | true => exact .inl ⟨rfl,rfl⟩
  | false => refine .inr ?_; simp only [Store.volume] at bound ⊢; rw [bound]; rfl

/-- An entry whose file could be removed is dropped. -/
theorem remove_delete (L : Layout A) (k : String) (s : Store A) : ∃ faults,
    s.remove (L.filename k) = ({ s with faults },.failed) ∨
    (∃ r s', s.remove (L.filename k) = (s',r) ∧ r ≠ .failed ∧ s'.delete L k = { dropKey L k s with faults }) := by
  obtain ⟨faults,failed | ⟨missing,gone⟩ | ⟨i,bound,done⟩⟩ := remove_cases (L.filename k) s
  · exact ⟨faults,.inl failed⟩
  · refine ⟨faults,.inr ⟨_,_,gone,by simp,?_⟩⟩
    simp only [dropKey,missing]; rfl
  · refine ⟨faults,.inr ⟨_,_,done,by simp,?_⟩⟩
    simp only [dropKey,bound]; rfl

end calls

/-! ### Eviction -/

theorem dropKey_faults (L : Layout A) (k : String) (s : Store A) (before after : List Bool) :
    { dropKey L k { s with faults := before } with faults := after } = { dropKey L k s with faults := after } := by
  unfold dropKey
  simp only [Store.volume]
  split <;> rfl

theorem evict_cons (L : Layout A) (enough fits : Store A → Bool) (k : String) (rest : List String) (s : Store A) :
    ∃ faults, (enough s = true ∧ evict L enough fits (k :: rest) s = (s,.ok)) ∨
      evict L enough fits (k :: rest) s = ({ s with faults },.failed) ∨
      evict L enough fits (k :: rest) s = evict L enough fits rest { dropKey L k s with faults } := by
  cases room : enough s with
  | true => exact ⟨[],.inl ⟨rfl,by simp [evict,room]⟩⟩
  | false =>
    obtain ⟨faults,failed | ⟨r,s',removed,worked,after⟩⟩ := remove_delete L k s
    · exact ⟨faults,.inr (.inl (by simp [evict,room,failed]))⟩
    · refine ⟨faults,.inr (.inr ?_)⟩
      cases r with
      | ok => simp [evict,room,removed,after]
      | notExist => simp [evict,room,removed,after]
      | failed => exact absurd rfl worked

/-- Evictions do not depend on the calls to come. -/
theorem Evicts.refault {keep : String → Bool} {before : List Bool} (evicts : Evicts L keep { s with faults := before } t)
    (after : List Bool) : Evicts L keep { s with faults := after } { t with faults := after } := by
  induction evicts with
  | refl => exact .refl
  | @drop t k e _ found may ih =>
    have dropped := Evicts.drop (k := k) ih found may
    have same := dropKey_faults L k t after after
    rw [← same]
    unfold dropKey at dropped ⊢
    simp only [Store.volume] at dropped ⊢
    split at dropped
    · exact dropped
    · exact dropped

theorem Evicts.trans {keep : String → Bool} {u : Store A} (first : Evicts L keep s t) (evicts : Evicts L keep t u) :
    Evicts L keep s u := by
  induction evicts with
  | refl => exact first
  | drop _ found may ih => exact .drop ih found may

/-- Evictions after a first one. -/
theorem Evicts.head {keep : String → Bool} {e : Entry A} {faults : List Bool} (found : s.entries.lookup k = some e)
    (may : keep k = false) (evicts : Evicts L keep { dropKey L k s with faults } t) :
    ∃ u, Evicts L keep s u ∧ t = { u with faults := t.faults } :=
  ⟨_,(Evicts.drop .refl found may).trans (evicts.refault (dropKey L k s).faults),rfl⟩

/-- The loop evicts keys of its list until there is enough room; it ends without
    an error where there is, and at its end only what `fits` says decides. -/
theorem evict_spec {keep : String → Bool} {enough fits : Store A → Bool} {keys : List String} {s out : Store A}
    {r : Evicted} (ended : evict L enough fits keys s = (out,r)) (distinct : keys.Nodup)
    (present : ∀ k ∈ keys, (s.entries.lookup k).isSome = true ∧ keep k = false) :
    (∃ t faults, Evicts L keep s t ∧ out = { t with faults }) ∧
    (r = .ok → enough out = true ∨ (fits out = true ∧ ∀ k ∈ keys, out.entries.lookup k = none)) ∧
    (r = .exceeded → fits out = false ∧ ∀ k ∈ keys, out.entries.lookup k = none) := by
  induction keys generalizing s with
  | nil =>
    simp only [evict] at ended
    cases fit : fits s with
    | true =>
      simp only [fit,if_true] at ended
      obtain ⟨rfl,rfl⟩ := Prod.mk.inj ended
      exact ⟨⟨s,s.faults,.refl,rfl⟩,fun _ => .inr ⟨fit,by simp⟩,nofun⟩
    | false =>
      simp only [fit,Bool.false_eq_true,if_false] at ended
      obtain ⟨rfl,rfl⟩ := Prod.mk.inj ended
      exact ⟨⟨s,s.faults,.refl,rfl⟩,nofun,fun _ => ⟨fit,by simp⟩⟩
  | cons k rest ih =>
    obtain ⟨fresh,distinct⟩ := List.nodup_cons.mp distinct
    obtain ⟨faults,⟨room,stopped⟩ | failed | continued⟩ := evict_cons L enough fits k rest s
    · rw [stopped] at ended
      obtain ⟨rfl,rfl⟩ := Prod.mk.inj ended
      exact ⟨⟨s,s.faults,.refl,rfl⟩,fun _ => .inl room,nofun⟩
    · rw [failed] at ended
      obtain ⟨rfl,rfl⟩ := Prod.mk.inj ended
      exact ⟨⟨s,faults,.refl,rfl⟩,nofun,nofun⟩
    · rw [continued] at ended
      have left : ∀ j ∈ rest, (({ dropKey L k s with faults } : Store A).entries.lookup j).isSome = true ∧ keep j = false := by
        intro j member
        obtain ⟨there,may⟩ := present j (List.mem_cons_of_mem _ member)
        have other : j ≠ k := by rintro rfl; exact fresh member
        exact ⟨by simpa [AList.lookup_erase_ne other] using there,may⟩
      obtain ⟨⟨t,f,evicts,rfl⟩,fine,exceeded⟩ := ih ended distinct left
      obtain ⟨there,may⟩ := present k List.mem_cons_self
      obtain ⟨e,found⟩ := Option.isSome_iff_exists.mp there
      -- the key that went first does not come back
      have gone : t.entries.lookup k = none := by
        cases still : t.entries.lookup k with
        | none => rfl
        | some e =>
          have older := evicts.older still
          simp at older
      have all : (∀ j ∈ rest, t.entries.lookup j = none) → ∀ j ∈ k :: rest, t.entries.lookup j = none := by
        intro others j member
        rcases List.mem_cons.mp member with rfl | later
        · exact gone
        · exact others j later
      obtain ⟨u,whole,same⟩ := evicts.head found may
      refine ⟨⟨u,f,whole,by rw [same]⟩,fun ok => ?_,fun ceased => ?_⟩
      · rcases fine ok with room | ⟨fit,others⟩
        · exact .inl room
        · exact .inr ⟨fit,all others⟩
      · obtain ⟨unfit,others⟩ := exceeded ceased
        exact ⟨unfit,all others⟩

theorem oldest_mem {keep : String → Bool} : k ∈ s.oldest keep ↔ (s.entries.lookup k).isSome = true ∧ keep k = false := by
  simp only [Store.oldest,List.mem_mergeSort,List.mem_filter,Bool.not_eq_true']
  rw [AList.lookup_isSome]
  rfl

theorem oldest_nodup (s : Store A) (keep : String → Bool) : (s.oldest keep).Nodup := by
  simp only [Store.oldest]
  refine (List.mergeSort_perm _ _).nodup_iff.mpr ?_
  exact s.entries.keys_nodup.filter _

/-- `evictLocked`, as all engines call the loop. -/
theorem evict_oldest {keep : String → Bool} {enough fits : Store A → Bool} {s out : Store A} {r : Evicted}
    (ended : evict L enough fits (s.oldest keep) s = (out,r)) :
    (∃ t faults, Evicts L keep s t ∧ out = { t with faults }) ∧
    (r = .ok → enough out = true ∨ (fits out = true ∧ ∀ k, keep k = false → out.entries.lookup k = none)) ∧
    (r = .exceeded → fits out = false ∧ ∀ k, keep k = false → out.entries.lookup k = none) := by
  have present : ∀ k ∈ s.oldest keep, (s.entries.lookup k).isSome = true ∧ keep k = false := by
    intro k member
    exact oldest_mem.mp member
  obtain ⟨evicted,fine,exceeded⟩ := evict_spec ended (oldest_nodup s keep) present
  obtain ⟨t,faults,evicts,rfl⟩ := evicted
  have rest : (∀ k ∈ s.oldest keep, t.entries.lookup k = none) → ∀ k, keep k = false → t.entries.lookup k = none := by
    intro gone k may
    cases still : t.entries.lookup k with
    | none => rfl
    | some e =>
      have older := evicts.older still
      rw [← still]
      exact gone k (oldest_mem.mpr ⟨by rw [older]; rfl,may⟩)
  refine ⟨⟨t,faults,evicts,rfl⟩,fun ok => ?_,fun ceased => ?_⟩
  · rcases fine ok with room | ⟨fit,gone⟩
    · exact .inl room
    · exact .inr ⟨fit,rest gone⟩
  · obtain ⟨unfit,gone⟩ := exceeded ceased
    exact ⟨unfit,rest gone⟩

/-- A key that is not there is not evicted. -/
theorem Evicts.avoid (evicts : Evicts L (fun _ => false) s t) (key : String) (absent : s.entries.lookup key = none) :
    Evicts L (fun k => decide (k = key)) s t := by
  induction evicts with
  | refl => exact .refl
  | @drop t k e before found _ ih =>
    have other : k ≠ key := by
      rintro rfl
      rw [before.older found] at absent
      cases absent
    exact .drop ih found (by simpa using other)

/-! ### What a publication does -/

/-- The most entries of the Go server. -/
def maxEntries : Nat := 10000

/-- What the publishing section of an engine does to the store, and what it
    answers; only some engines replace an entry. -/
inductive Publishing (L : Layout A) (maxTotal : Int) (replaces : Bool) (p : Staged A) (rollbackFails : Bool) (s : Store A) :
    Store A → Nat → Prop where
  /-- Nothing but evictions, which leave the key itself alone. -/
  | refused {t : Store A} {faults : List Bool} {status : Nat} : Evicts L (fun k => decide (k = p.key)) s t →
      Publishing L maxTotal replaces p rollbackFails s { t with faults } status
  | created {t : Store A} {i : Inode} {faults : List Bool} : replaces = false → s.entries.lookup p.key = none →
      Evicts L (fun k => decide (k = p.key)) s t → t.volume.names.lookup p.tmp = some i →
      t.volume.names.lookup (L.filename p.key) = none → t.used + L.charge p.artifact ≤ maxTotal →
      Publishing L maxTotal replaces p rollbackFails s
        { ((t.perform (.link (L.filename p.key) i)).perform .syncDirectory).record L p.key ⟨p.artifact,p.accessed⟩
            p.contents with faults } 200
  /-- The new name was taken back. -/
  | withdrawn {t : Store A} {i : Inode} {faults : List Bool} : replaces = false → s.entries.lookup p.key = none →
      Evicts L (fun k => decide (k = p.key)) s t → t.volume.names.lookup p.tmp = some i →
      t.volume.names.lookup (L.filename p.key) = none → t.used + L.charge p.artifact ≤ maxTotal →
      Publishing L maxTotal replaces p rollbackFails s
        { (t.perform (.link (L.filename p.key) i)).perform (.unlink (L.filename p.key)) with faults } 503
  /-- The new name could not be taken back. -/
  | orphaned {t : Store A} {i : Inode} {faults : List Bool} : replaces = false → rollbackFails = true →
      s.entries.lookup p.key = none →
      Evicts L (fun k => decide (k = p.key)) s t → t.volume.names.lookup p.tmp = some i →
      t.volume.names.lookup (L.filename p.key) = none → t.used + L.charge p.artifact ≤ maxTotal →
      Publishing L maxTotal replaces p rollbackFails s { t.perform (.link (L.filename p.key) i) with faults } 503
  | replaced (synced : Bool) {t : Store A} {i : Inode} {faults : List Bool} {old : Int} : replaces = true →
      old = ((s.entries.lookup p.key).map (fun e => L.charge e.artifact)).getD 0 →
      Evicts L (fun k => decide (k = p.key)) s t → t.volume.names.lookup p.tmp = some i →
      t.used - old + L.charge p.artifact ≤ maxTotal →
      (s.entries.lookup p.key = none → t.entries.keys.length < maxEntries) →
      Publishing L maxTotal replaces p rollbackFails s
        { (if synced then
            (({ t.perform (.rename p.tmp (L.filename p.key) i) with used := t.used - old } : Store A).record L p.key
              ⟨p.artifact,p.accessed⟩ p.contents).perform .syncDirectory
          else ({ t.perform (.rename p.tmp (L.filename p.key) i) with used := t.used - old } : Store A).record L p.key
            ⟨p.artifact,p.accessed⟩ p.contents) with faults } (if synced then 200 else 503)
  /-- Others made room after the publication. -/
  | added {t : Store A} {i : Inode} {faults : List Bool} : replaces = false → s.entries.lookup p.key = none →
      s.volume.names.lookup p.tmp = some i → s.volume.names.lookup (L.filename p.key) = none →
      Evicts L (fun k => decide (k = p.key))
        ((s.perform (.link (L.filename p.key) i)).record L p.key ⟨p.artifact,p.accessed⟩ p.contents) t →
      t.used ≤ maxTotal → Publishing L maxTotal replaces p rollbackFails s { t with faults } 201
  /-- Others could not make room, and the publication was undone. -/
  | undone {t : Store A} {i : Inode} {faults : List Bool} : replaces = false → s.entries.lookup p.key = none →
      s.volume.names.lookup p.tmp = some i → s.volume.names.lookup (L.filename p.key) = none →
      Evicts L (fun k => decide (k = p.key))
        ((s.perform (.link (L.filename p.key) i)).record L p.key ⟨p.artifact,p.accessed⟩ p.contents) t →
      Publishing L maxTotal replaces p rollbackFails s { (t.perform (.unlink (L.filename p.key))).delete L p.key with faults } 503
  | stranded {t : Store A} {i : Inode} {faults : List Bool} : replaces = false → rollbackFails = true →
      s.entries.lookup p.key = none →
      s.volume.names.lookup p.tmp = some i → s.volume.names.lookup (L.filename p.key) = none →
      Evicts L (fun k => decide (k = p.key))
        ((s.perform (.link (L.filename p.key) i)).record L p.key ⟨p.artifact,p.accessed⟩ p.contents) t →
      Publishing L maxTotal replaces p rollbackFails s { t.delete L p.key with faults } 503

/-- What the publishing section of the engines that never replace an entry does,
    which synchronise the directory before they record one. -/
inductive Linking (L : Layout A) (maxTotal : Int) (duplicate : A → A → Nat) (p : Staged A) (rollbackFails : Bool) (s : Store A) :
    Store A → Nat → Prop where
  | known {old : Entry A} : s.entries.lookup p.key = some old →
      Linking L maxTotal duplicate p rollbackFails s s (duplicate old.artifact p.artifact)
  | refused {t : Store A} {faults : List Bool} : s.entries.lookup p.key = none → Evicts L (fun k => decide (k = p.key)) s t →
      Linking L maxTotal duplicate p rollbackFails s { t with faults } 503
  | created {t : Store A} {i : Inode} {faults : List Bool} : s.entries.lookup p.key = none →
      Evicts L (fun k => decide (k = p.key)) s t → t.volume.names.lookup p.tmp = some i →
      t.volume.names.lookup (L.filename p.key) = none → t.used + L.charge p.artifact ≤ maxTotal →
      Linking L maxTotal duplicate p rollbackFails s
        { ((t.perform (.link (L.filename p.key) i)).perform .syncDirectory).record L p.key ⟨p.artifact,p.accessed⟩
            p.contents with faults } 200
  | withdrawn {t : Store A} {i : Inode} {faults : List Bool} : s.entries.lookup p.key = none →
      Evicts L (fun k => decide (k = p.key)) s t → t.volume.names.lookup p.tmp = some i →
      t.volume.names.lookup (L.filename p.key) = none → t.used + L.charge p.artifact ≤ maxTotal →
      Linking L maxTotal duplicate p rollbackFails s
        { (t.perform (.link (L.filename p.key) i)).perform (.unlink (L.filename p.key)) with faults } 503
  | orphaned {t : Store A} {i : Inode} {faults : List Bool} : rollbackFails = true → s.entries.lookup p.key = none →
      Evicts L (fun k => decide (k = p.key)) s t → t.volume.names.lookup p.tmp = some i →
      t.volume.names.lookup (L.filename p.key) = none → t.used + L.charge p.artifact ≤ maxTotal →
      Linking L maxTotal duplicate p rollbackFails s { t.perform (.link (L.filename p.key) i) with faults } 503

theorem Linking.publishing {duplicate : A → A → Nat} {maxTotal : Int} {p : Staged A} {rollbackFails : Bool} {s' : Store A}
    {status : Nat} (linking : Linking L maxTotal duplicate p rollbackFails s s' status) :
    Publishing L maxTotal false p rollbackFails s s' status := by
  cases linking with
  | known _ => exact .refused (t := s) .refl
  | refused _ evicts => exact .refused evicts
  | created known apart tmp free room => exact .created rfl known apart tmp free room
  | withdrawn known apart tmp free room => exact .withdrawn rfl known apart tmp free room
  | orphaned fails known apart tmp free room => exact .orphaned rfl fails known apart tmp free room

/-- The publishing section of the engines that never replace an entry. -/
theorem addEntry_linking {evictLocked : Int → Store A → Store A × Evicted} {duplicate : A → A → Nat} {maxTotal : Int}
    {p : Staged A} {rollbackFails : Bool} {s' : Store A} {status : Nat}
    (evicted : ∀ {incoming s out r}, evictLocked incoming s = (out,r) →
      (∃ t faults, Evicts L (fun _ => false) s t ∧ out = { t with faults }) ∧
      (r = .ok → out.used + incoming ≤ maxTotal))
    (published : addEntry L evictLocked duplicate p rollbackFails s = (s',status)) :
    Linking L maxTotal duplicate p rollbackFails s s' status := by
  unfold addEntry at published
  cases known : s.entries.lookup p.key with
  | some old =>
    rw [known] at published
    obtain ⟨rfl,rfl⟩ := Prod.mk.inj published
    exact .known known
  | none =>
    rw [known] at published
    simp only at published
    cases ran : evictLocked (L.charge p.artifact) s with
    | mk out r =>
      rw [ran] at published
      obtain ⟨⟨t,faults,evicts,rfl⟩,room⟩ := evicted ran
      have apart := evicts.avoid p.key known
      cases r with
      | failed =>
        obtain ⟨rfl,rfl⟩ := Prod.mk.inj published
        exact .refused known apart
      | exceeded =>
        obtain ⟨rfl,rfl⟩ := Prod.mk.inj published
        exact .refused known apart
      | ok =>
        simp only at published
        have room := room rfl
        obtain ⟨f,⟨kept,failed⟩ | ⟨i,tmp,free,linked⟩⟩ := link_cases p.tmp (L.filename p.key) { t with faults }
        · cases result : ({ t with faults } : Store A).link p.tmp (L.filename p.key) with
          | mk u r =>
            rw [result] at published kept failed
            simp only at kept failed
            subst kept
            cases r with
            | ok => exact absurd rfl failed
            | exist => obtain ⟨rfl,rfl⟩ := Prod.mk.inj published; exact .refused known apart
            | failed => obtain ⟨rfl,rfl⟩ := Prod.mk.inj published; exact .refused known apart
        · rw [linked] at published
          simp only at published
          obtain ⟨g,failed | synced⟩ := syncRoot_cases
            ({ ({ t with faults } : Store A).perform (.link (L.filename p.key) i) with faults := f } : Store A)
          · rw [failed] at published
            simp only at published
            have bound : (({ t with faults } : Store A).perform (.link (L.filename p.key) i)).volume.names.lookup
                (L.filename p.key) = some i := by
              simp [Store.perform,Disk.perform,Volume.apply,Volume.alter,Change.apply,bindName]
            obtain ⟨h,⟨fails,stayed⟩ | gone⟩ := rollback_cases rollbackFails bound
            · obtain ⟨rfl,rfl⟩ := Prod.mk.inj published
              rw [stayed]
              exact .orphaned (t := t) fails known apart tmp free room
            · obtain ⟨rfl,rfl⟩ := Prod.mk.inj published
              rw [gone]
              exact .withdrawn (t := t) known apart tmp free room
          · rw [synced] at published
            obtain ⟨rfl,rfl⟩ := Prod.mk.inj published
            exact .created known apart tmp free room

/-- The calls of a publishing section. -/
inductive SectionOp (L : Layout A) (replaces : Bool) (p : Staged A) (i : Inode) : Op FileName (Contents A) → Prop where
  | unlink (k : String) : SectionOp L replaces p i (.unlink (L.filename k))
  | link : SectionOp L replaces p i (.link (L.filename p.key) i)
  | rename : replaces = true → SectionOp L replaces p i (.rename p.tmp (L.filename p.key) i)
  | sync : SectionOp L replaces p i .syncDirectory

theorem Evicts.ops {keep : String → Bool} (evicts : Evicts L keep s t) : ∃ ops, t.disk = s.disk.performs ops ∧
    t.next = s.next ∧ ∀ op ∈ ops, ∃ k, op = .unlink (L.filename k) := by
  induction evicts with
  | refl => exact ⟨[],rfl,rfl,by simp⟩
  | @drop t k e _ _ _ ih =>
    obtain ⟨ops,disk,next,unlinks⟩ := ih
    cases bound : t.volume.names.lookup (L.filename k) with
    | none => exact ⟨ops,by rw [← disk]; simp [dropKey,bound,Store.delete],by simpa using next,unlinks⟩
    | some i =>
      refine ⟨ops ++ [.unlink (L.filename k)],?_,by simpa using next,?_⟩
      · rw [Disk.performs_append,← disk]
        simp [dropKey,bound,Store.delete,Store.perform,Disk.performs]
      · intro op member
        rcases List.mem_append.mp member with before | last
        · exact unlinks op before
        · exact ⟨k,List.mem_singleton.mp last⟩

/-- Evictions leave every other name alone. -/
theorem Evicts.names {keep : String → Bool} (evicts : Evicts L keep s t) {name : FileName}
    (other : ∀ k, L.filename k ≠ name) : t.volume.names.lookup name = s.volume.names.lookup name := by
  obtain ⟨ops,disk,_,unlinks⟩ := evicts.ops
  rw [Store.volume,disk]
  refine Disk.performs_invariant (I := fun v => v.names.lookup name = s.volume.names.lookup name) rfl ?_
  intro v op member held
  obtain ⟨k,rfl⟩ := unlinks op member
  have passes : (Op.unlink (L.filename k) : Op FileName (Contents A)).Passes name := other k
  rw [names_apply passes]
  exact held

/-- A publishing section makes only its own calls, all on the staged file. -/
theorem Publishing.ops {maxTotal : Int} {replaces : Bool} {p : Staged A} {rollbackFails : Bool} {s' : Store A} {status : Nat}
    {i : Inode} (published : Publishing L maxTotal replaces p rollbackFails s s' status)
    (staged : s.volume.names.lookup p.tmp = some i) (other : ∀ k, L.filename k ≠ p.tmp) :
    ∃ ops, s'.disk = s.disk.performs ops ∧ s'.next = s.next ∧ ∀ op ∈ ops, SectionOp L replaces p i op := by
  have own : ∀ {t : Store A} {j : Inode}, Evicts L (fun k => decide (k = p.key)) s t → t.volume.names.lookup p.tmp = some j → j = i := by
    intro t j evicts found
    rw [evicts.names other,staged] at found
    exact (Option.some.inj found).symm
  have evictions : ∀ {ops : List (Op FileName (Contents A))}, (∀ op ∈ ops, ∃ k, op = .unlink (L.filename k)) →
      ∀ op ∈ ops, SectionOp L replaces p i op := by
    intro ops unlinks op member
    obtain ⟨k,rfl⟩ := unlinks op member
    exact .unlink k
  have more : ∀ {ops last : List (Op FileName (Contents A))}, (∀ op ∈ ops, SectionOp L replaces p i op) →
      (∀ op ∈ last, SectionOp L replaces p i op) → ∀ op ∈ ops ++ last, SectionOp L replaces p i op := by
    intro ops last first second op member
    rcases List.mem_append.mp member with before | after
    · exact first op before
    · exact second op after
  have linked : ∀ {ops : List (Op FileName (Contents A))}, (∀ op ∈ ops, ∃ k, op = .unlink (L.filename k)) →
      ∀ op ∈ Op.link (L.filename p.key) i :: ops, SectionOp L replaces p i op := by
    intro ops unlinks op member
    rcases List.mem_cons.mp member with rfl | later
    · exact .link
    · exact evictions unlinks op later
  cases published with
  | refused evicts =>
    obtain ⟨ops,disk,next,unlinks⟩ := evicts.ops
    exact ⟨ops,disk,next,evictions unlinks⟩
  | @created t j faults _ absent evicts tmp free room =>
    obtain rfl := own evicts tmp
    obtain ⟨ops,disk,next,unlinks⟩ := evicts.ops
    refine ⟨ops ++ [.link (L.filename p.key) j,.syncDirectory],?_,next,more (evictions unlinks) ?_⟩
    · rw [Disk.performs_append,← disk]; rfl
    · simp only [List.mem_cons,List.not_mem_nil,or_false]
      rintro op (rfl | rfl)
      · exact .link
      · exact .sync
  | @withdrawn t j faults _ absent evicts tmp free room =>
    obtain rfl := own evicts tmp
    obtain ⟨ops,disk,next,unlinks⟩ := evicts.ops
    refine ⟨ops ++ [.link (L.filename p.key) j,.unlink (L.filename p.key)],?_,next,more (evictions unlinks) ?_⟩
    · rw [Disk.performs_append,← disk]; rfl
    · simp only [List.mem_cons,List.not_mem_nil,or_false]
      rintro op (rfl | rfl)
      · exact .link
      · exact .unlink _
  | @orphaned t j faults _ fails absent evicts tmp free room =>
    obtain rfl := own evicts tmp
    obtain ⟨ops,disk,next,unlinks⟩ := evicts.ops
    refine ⟨ops ++ [.link (L.filename p.key) j],?_,next,more (evictions unlinks) ?_⟩
    · rw [Disk.performs_append,← disk]; rfl
    · simp only [List.mem_singleton]
      rintro op rfl
      exact .link
  | @replaced synced t j faults old replaces was evicts tmp room crowd =>
    obtain rfl := own evicts tmp
    obtain ⟨ops,disk,next,unlinks⟩ := evicts.ops
    cases synced with
    | true =>
      refine ⟨ops ++ [.rename p.tmp (L.filename p.key) j,.syncDirectory],?_,next,more (evictions unlinks) ?_⟩
      · rw [Disk.performs_append,← disk]; rfl
      · simp only [List.mem_cons,List.not_mem_nil,or_false]
        rintro op (rfl | rfl)
        · exact .rename replaces
        · exact .sync
    | false =>
      refine ⟨ops ++ [.rename p.tmp (L.filename p.key) j],?_,next,more (evictions unlinks) ?_⟩
      · rw [Disk.performs_append,← disk]; rfl
      · simp only [List.mem_singleton]
        rintro op rfl
        exact .rename replaces
  | @added t j faults _ absent tmp free evicts room =>
    rw [staged] at tmp
    obtain rfl := Option.some.inj tmp
    obtain ⟨ops,disk,next,unlinks⟩ := evicts.ops
    exact ⟨.link (L.filename p.key) i :: ops,disk,next,linked unlinks⟩
  | @undone t j faults _ absent tmp free evicts =>
    rw [staged] at tmp
    obtain rfl := Option.some.inj tmp
    obtain ⟨ops,disk,next,unlinks⟩ := evicts.ops
    refine ⟨(.link (L.filename p.key) i :: ops) ++ [.unlink (L.filename p.key)],?_,next,more (linked unlinks) ?_⟩
    · rw [Disk.performs_append]
      change t.disk.perform _ = _
      rw [disk]; rfl
    · simp only [List.mem_singleton]
      rintro op rfl
      exact .unlink _
  | @stranded t j faults _ fails absent tmp free evicts =>
    rw [staged] at tmp
    obtain rfl := Option.some.inj tmp
    obtain ⟨ops,disk,next,unlinks⟩ := evicts.ops
    exact ⟨.link (L.filename p.key) i :: ops,disk,next,linked unlinks⟩

/-! ### What a reader does -/

/-- What the section of a GET does to the store, and what it ends with. -/
inductive Fetching (L : Layout A) (Reads : A → File (Contents A) → Prop) (key : String) (s : Store A) :
    Store A → Answer A → Prop where
  | refused {faults : List Bool} {status : Nat} : Fetching L Reads key s { s with faults } (.refused status)
  | opened (touched : Bool) {e : Entry A} {i : Inode} {file : File (Contents A)} {faults : List Bool} {now : Nat} :
      s.entries.lookup key = some e → s.volume.names.lookup (L.filename key) = some i → s.volume.files i = some file →
      Reads e.artifact file →
      Fetching L Reads key s { (if touched then s.perform (.touch i now) else s) with
        entries := s.entries.insert key { e with accessed := now }, faults } (.opened i e.artifact file.contents)
  /-- The file is gone, and the entry goes with it. -/
  | missed {e : Entry A} {faults : List Bool} : s.entries.lookup key = some e →
      s.volume.file (L.filename key) = none → Fetching L Reads key s { s.delete L key with faults } (.refused 404)

/-- A reader only touches files. -/
theorem Fetching.ops {Reads : A → File (Contents A) → Prop} {s' : Store A} {answer : Answer A}
    (ran : Fetching L Reads k s s' answer) : ∃ ops, s'.disk = s.disk.performs ops ∧ s'.next = s.next ∧
      ∀ op ∈ ops, ∃ i now, op = .touch i now := by
  cases ran with
  | refused => exact ⟨[],rfl,rfl,by simp⟩
  | missed _ _ => exact ⟨[],rfl,rfl,by simp⟩
  | @opened touched e i file faults now _ _ _ _ =>
    cases touched with
    | true => exact ⟨[.touch i now],rfl,rfl,by simp⟩
    | false => exact ⟨[],rfl,rfl,by simp⟩

theorem openFile_cases (readArtifact : File (Contents A) → Option A) (name : FileName) (s : Store A) : ∃ faults,
    openFile readArtifact name s = ({ s with faults },none) ∨
    ∃ i a file, s.volume.names.lookup name = some i ∧ s.volume.files i = some file ∧ readArtifact file = some a ∧
      openFile readArtifact name s = ({ s with faults },some (i,a,file)) := by
  unfold openFile
  obtain ⟨faults,failed | worked⟩ := fails_cases s
  · rw [failed]; exact ⟨faults,.inl rfl⟩
  · rw [worked]
    refine ⟨faults,?_⟩
    simp only [Store.volume]
    cases bound : s.disk.volume.names.lookup name with
    | none => exact .inl rfl
    | some i =>
      cases there : s.disk.volume.files i with
      | none => simp [there]
      | some file =>
        cases read : readArtifact file with
        | none => simp [there,read]
        | some a => exact .inr ⟨i,a,file,rfl,there,read,by simp [there,read]⟩

/-- The section of a GET in the engines whose files carry a header. -/
theorem getEntry_fetching {readArtifact : File (Contents A) → Option A} {sameArtifact : A → A → Bool} {now : Nat}
    {s' : Store A} {answer : Answer A} (same : ∀ a b, sameArtifact a b = true → a = b)
    (ran : getEntry L readArtifact sameArtifact k now s = (s',answer)) :
    Fetching L (fun a file => readArtifact file = some a) k s s' answer := by
  unfold getEntry at ran
  cases known : s.entries.lookup k with
  | none =>
    rw [known] at ran
    obtain ⟨rfl,rfl⟩ := Prod.mk.inj ran
    exact .refused
  | some e =>
    rw [known] at ran
    simp only at ran
    obtain ⟨faults,failed | ⟨i,a,file,bound,there,read,opened⟩⟩ := openFile_cases readArtifact (L.filename k) s
    · rw [failed] at ran
      obtain ⟨rfl,rfl⟩ := Prod.mk.inj ran
      exact .refused
    · rw [opened] at ran
      simp only at ran
      split at ran
      · rename_i equal
        obtain ⟨rfl,rfl⟩ := Prod.mk.inj ran
        obtain rfl := same _ _ equal
        exact .opened true known bound there read
      · obtain ⟨rfl,rfl⟩ := Prod.mk.inj ran
        exact .refused

/-! ### What `New` reads -/

/-- The loop of `New` removes a staging file or records an entry, and goes on. -/
theorem scan_cons {keyOf : A → String} {readArtifact : File (Contents A) → Option A} {accepts : A → Bool} {name : FileName}
    {i : Inode} {rest : List (FileName × Inode)} {s' : Store A}
    (ran : scan L keyOf readArtifact accepts ((name,i) :: rest) s = some s') : ∃ faults,
    (∃ suffix, name = .upload suffix ∧
      scan L keyOf readArtifact accepts rest { s.perform (.unlink name) with faults } = some s') ∨
    (∃ stem j a f, name = .entry stem ∧ s.volume.names.lookup name = some j ∧ s.volume.files j = some f ∧
      readArtifact f = some a ∧ L.filename (keyOf a) = name ∧ accepts a = true ∧
      scan L keyOf readArtifact accepts rest
        (({ s with faults } : Store A).record L (keyOf a) ⟨a,f.modified⟩ f.contents) = some s') := by
  simp only [scan] at ran
  split at ran
  · rename_i file suffix there
    split at ran
    · split at ran
      · rename_i t removed
        obtain ⟨faults,failed | ⟨_,missing⟩ | ⟨j,_,gone⟩⟩ := remove_cases (.upload suffix) s
        · rw [failed] at removed; exact absurd (congrArg Prod.snd removed) (by simp)
        · rw [missing] at removed; exact absurd (congrArg Prod.snd removed) (by simp)
        · rw [gone] at removed
          obtain ⟨rfl,_⟩ := Prod.mk.inj removed
          exact ⟨faults,.inl ⟨suffix,rfl,ran⟩⟩
      · cases ran
    · cases ran
  · rename_i file stem there
    split at ran
    · split at ran
      · rename_i t j a f opened
        obtain ⟨faults,failed | ⟨j',a',f',bound,file',read,done⟩⟩ := openFile_cases readArtifact (.entry stem) s
        · rw [failed] at opened; exact absurd (congrArg Prod.snd opened) (by simp)
        · rw [done] at opened
          simp only [Prod.mk.injEq,Option.some.injEq] at opened
          obtain ⟨rfl,rfl,rfl,rfl⟩ := opened
          split at ran
          · rename_i accepted
            simp only [Bool.and_eq_true,decide_eq_true_eq] at accepted
            exact ⟨faults,.inr ⟨stem,j',a',f',rfl,bound,file',read,accepted.1,accepted.2,ran⟩⟩
          · cases ran
      · cases ran
    · cases ran
  · cases ran

end Expbuild.Stores
