import Expbuild.Handlers
import Expbuild.Runs

/-!
The accounts of a cache server. Whatever its handlers do, and whichever calls to
the file system fail, `used` is the sum of what the entries charge, it stays
within the budget, and the entries are the published files.
-/
namespace Expbuild.Accounting
open Expbuild.Tables Expbuild.Disks Expbuild.Engines Expbuild.Stores Expbuild.Handlers Expbuild.Runs

section
variable {A : Type} {E : Engine A} (law : Lawful E)

/-- The index and the directory agree: `used` counts the entries, and the file of
    an entry is there and stores its artifact, unless others have removed it. -/
structure Kept (vanished : List String) (entries : Table String (Entry A)) (used : Int)
    (v : Volume FileName (Contents A)) : Prop where
  counted : used = sumOf (fun _ e => E.layout.charge e.artifact) entries
  valid : ∀ {k e}, entries.lookup k = some e → E.validKey k = true
  filed : ∀ {k e}, entries.lookup k = some e → k ∈ vanished ∨ ∃ i f, v.names.lookup (E.layout.filename k) = some i ∧
    v.files i = some f ∧ law.Good k e.artifact f.contents
  charged : ∀ {k e}, entries.lookup k = some e → 0 ≤ E.layout.charge e.artifact
  apart : ∀ {k j e e'}, entries.lookup k = some e → entries.lookup j = some e' →
    E.layout.filename k = E.layout.filename j → k = j
  gone : ∀ k ∈ vanished, v.names.lookup (E.layout.filename k) = none
  alone : E.shared = false → vanished = []

end

variable {A : Type} {E : Engine A} {law : Lawful E} {vanished : List String} {entries : Table String (Entry A)}
  {used : Int} {v : Volume FileName (Contents A)} {k key : String} {e : Entry A}

/-! ### The index -/

/-- Calls that concern neither the names nor the files of the entries. -/
theorem Kept.apply (kept : Kept law vanished entries used v) (op : Op FileName (Contents A))
    (passes : ∀ {k}, (entries.lookup k).isSome = true ∨ k ∈ vanished → op.Passes (E.layout.filename k))
    (leaves : ∀ {k i}, (entries.lookup k).isSome = true → v.names.lookup (E.layout.filename k) = some i → op.Leaves i) :
    Kept law vanished entries used (v.apply op) where
  counted := kept.counted
  valid := kept.valid
  filed := by
    intro k e found
    have there : (entries.lookup k).isSome = true := by rw [found]; rfl
    rcases kept.filed found with away | ⟨i,f,bound,file,good⟩
    · exact .inl away
    · obtain ⟨g,after,same⟩ := file_apply (leaves there bound) file
      exact .inr ⟨i,g,(names_apply (passes (.inl there))).trans bound,after,by rw [same.contents]; exact good⟩
  charged := kept.charged
  apart := kept.apart
  gone := fun k away => (names_apply (passes (.inr away))).trans (kept.gone k away)
  alone := kept.alone

/-- Names that no entry has may go. -/
theorem Kept.unlink (kept : Kept law vanished entries used v) (name : FileName)
    (other : ∀ {k}, (entries.lookup k).isSome = true → name ≠ E.layout.filename k) :
    Kept law vanished entries used (v.apply (.unlink name)) where
  counted := kept.counted
  valid := kept.valid
  filed := by
    intro k e found
    have there : (entries.lookup k).isSome = true := by rw [found]; rfl
    have passes : (Op.unlink name : Op FileName (Contents A)).Passes (E.layout.filename k) := other there
    rcases kept.filed found with away | ⟨i,f,bound,file,good⟩
    · exact .inl away
    · exact .inr ⟨i,f,(names_apply passes).trans bound,file,good⟩
  charged := kept.charged
  apart := kept.apart
  gone := by
    intro k away
    by_cases same : E.layout.filename k = name
    · rw [same]
      simp [Volume.apply,Volume.alter,Change.apply,bindName]
    · have passes : (Op.unlink name : Op FileName (Contents A)).Passes (E.layout.filename k) := Ne.symm same
      exact (names_apply passes).trans (kept.gone k away)
  alone := kept.alone

/-- An entry goes. -/
theorem Kept.erase (kept : Kept law vanished entries used v) (found : entries.lookup k = some e) :
    Kept law vanished (entries.erase k) (used - E.layout.charge e.artifact) v := by
  have older : ∀ {j e'}, (entries.erase k).lookup j = some e' → entries.lookup j = some e' := by
    intro j e' there
    rw [lookup_erase] at there
    split at there
    · cases there
    · exact there
  refine ⟨?_,fun there => kept.valid (older there),fun there => kept.filed (older there),fun there => kept.charged (older there),
    fun first second => kept.apart (older first) (older second),kept.gone,kept.alone⟩
  have total := sumOf_erase (fun _ (e : Entry A) => E.layout.charge e.artifact) found
  have counted := kept.counted
  omega

/-- An eviction keeps the index. -/
theorem Kept.dropKey {s : Store A} (kept : Kept law vanished s.entries s.used s.volume) (found : s.entries.lookup k = some e) :
    Kept law vanished (dropKey E.layout k s).entries (dropKey E.layout k s).used (dropKey E.layout k s).volume := by
  rw [dropKey_entries,dropKey_used found]
  rcases dropKey_volume E.layout k s with unlinked | ⟨_,same⟩
  · rw [unlinked]
    refine (kept.erase found).unlink _ (fun {j} there same => ?_)
    obtain ⟨e',here⟩ := Option.isSome_iff_exists.mp there
    rw [lookup_erase] at here
    split at here
    · cases here
    · rename_i other
      exact other (kept.apart found here same).symm
  · rw [same]
    exact kept.erase found

theorem Kept.evicts {keep : String → Bool} {s t : Store A} (kept : Kept law vanished s.entries s.used s.volume)
    (evicts : Evicts E.layout keep s t) : Kept law vanished t.entries t.used t.volume :=
  evicts.invariant (I := fun t => Kept law vanished t.entries t.used t.volume) kept
    (fun _ _ _ held found _ => held.dropKey found)

/-- Evictions do not add to what is used. -/
theorem used_le {keep : String → Bool} {s t : Store A} (kept : Kept law vanished s.entries s.used s.volume)
    (evicts : Evicts E.layout keep s t) : t.used ≤ s.used := by
  have both : Kept law vanished t.entries t.used t.volume ∧ t.used ≤ s.used := by
    refine evicts.invariant (I := fun t => Kept law vanished t.entries t.used t.volume ∧ t.used ≤ s.used)
      ⟨kept,le_refl _⟩ ?_
    rintro t k e ⟨held,below⟩ found _
    have charged := held.charged found
    exact ⟨held.dropKey found,by rw [dropKey_used found]; omega⟩
  exact both.2

/-- A published file is recorded. -/
theorem Kept.insert {i : Inode} {f : File (Contents A)} (kept : Kept law vanished entries used v)
    (fresh : entries.lookup key = none) (valid : E.validKey key = true)
    (bound : v.names.lookup (E.layout.filename key) = some i) (file : v.files i = some f)
    (good : law.Good key e.artifact f.contents)
    (other : ∀ {k}, (entries.lookup k).isSome = true → E.layout.filename k ≠ E.layout.filename key) :
    Kept law vanished (entries.insert key e) (used + E.layout.charge e.artifact) v where
  counted := by
    have total := sumOf_insert (fun _ (e : Entry A) => E.layout.charge e.artifact) key e entries
    rw [sumOf_erase_none _ fresh] at total
    rw [total,kept.counted,add_comm]
  valid := by
    intro k e' found
    rcases lookup_insert_some found with ⟨rfl,_⟩ | ⟨_,before⟩
    · exact valid
    · exact kept.valid before
  filed := by
    intro k e' found
    rcases lookup_insert_some found with ⟨rfl,rfl⟩ | ⟨_,before⟩
    · exact .inr ⟨i,f,bound,file,good⟩
    · exact kept.filed before
  charged := by
    intro k e' found
    rcases lookup_insert_some found with ⟨rfl,rfl⟩ | ⟨_,before⟩
    · rw [law.charge good]; exact Int.natCast_nonneg _
    · exact kept.charged before
  apart := by
    intro k j e₁ e₂ first second same
    rcases lookup_insert_some first with ⟨rfl,_⟩ | ⟨_,before₁⟩
    · rcases lookup_insert_some second with ⟨rfl,_⟩ | ⟨_,before₂⟩
      · rfl
      · exact absurd same.symm (other (by rw [before₂]; rfl))
    · rcases lookup_insert_some second with ⟨rfl,_⟩ | ⟨_,before₂⟩
      · exact absurd same (other (by rw [before₁]; rfl))
      · exact kept.apart before₁ before₂ same
  gone := kept.gone
  alone := kept.alone

/-- An access changes no account. -/
theorem Kept.accessed (kept : Kept law vanished entries used v) (now : Nat) (found : entries.lookup key = some e) :
    Kept law vanished (entries.insert key { e with accessed := now }) used v := by
  have same : ∀ {k e'}, (entries.insert key { e with accessed := now }).lookup k = some e' →
      ∃ old, entries.lookup k = some old ∧ old.artifact = e'.artifact := by
    intro k e' there
    rcases lookup_insert_some there with ⟨rfl,rfl⟩ | ⟨_,before⟩
    · exact ⟨e,found,rfl⟩
    · exact ⟨e',before,rfl⟩
  refine ⟨?_,?_,?_,?_,?_,kept.gone,kept.alone⟩
  · rw [sumOf_insert,kept.counted]
    exact (sumOf_erase (fun _ (e : Entry A) => E.layout.charge e.artifact) found).symm
  · intro k e' there
    obtain ⟨old,before,_⟩ := same there
    exact kept.valid before
  · intro k e' there
    obtain ⟨old,before,artifact⟩ := same there
    rw [← artifact]
    exact kept.filed before
  · intro k e' there
    obtain ⟨old,before,artifact⟩ := same there
    rw [← artifact]
    exact kept.charged before
  · intro k j e₁ e₂ first second equal
    obtain ⟨_,before₁,_⟩ := same first
    obtain ⟨_,before₂,_⟩ := same second
    exact kept.apart before₁ before₂ equal

/-- What vanished matters only for entries, and while no file has the name. -/
theorem Kept.revise {later : List String} (kept : Kept law vanished entries used v)
    (covers : ∀ k ∈ vanished, (entries.lookup k).isSome = true → k ∈ later)
    (gone : ∀ k ∈ later, v.names.lookup (E.layout.filename k) = none) (alone : E.shared = false → later = []) :
    Kept law later entries used v where
  counted := kept.counted
  valid := kept.valid
  filed := by
    intro k e found
    rcases kept.filed found with away | there
    · exact .inl (covers k away (by rw [found]; rfl))
    · exact .inr there
  charged := kept.charged
  apart := kept.apart
  gone := gone
  alone := alone

/-- After a step the keys that vanished are those whose files are not back. -/
theorem Kept.filtered {later : List String} (kept : Kept law vanished entries used v) (sub : ∀ k ∈ vanished, k ∈ later)
    (alone : E.shared = false → later = []) :
    Kept law (later.filter (fun k => (v.names.lookup (E.layout.filename k)).isNone)) entries used v := by
  refine kept.revise (fun k away _ => ?_) (fun k member => ?_) (fun sole => by rw [alone sole]; rfl)
  · exact List.mem_filter.mpr ⟨sub k away,by rw [kept.gone k away]; rfl⟩
  · simpa using (List.mem_filter.mp member).2

/-- No entry has the file name of a key that is in neither the index nor the directory. -/
theorem Kept.unnamed (kept : Kept law vanished entries used v) (absent : entries.lookup key = none)
    (free : v.names.lookup (E.layout.filename key) = none) (there : (entries.lookup k).isSome = true) :
    E.layout.filename k ≠ E.layout.filename key := by
  intro same
  obtain ⟨e,found⟩ := Option.isSome_iff_exists.mp there
  rcases kept.filed found with away | ⟨i,f,bound,_⟩
  · cases shared : E.shared with
    | false => rw [kept.alone shared] at away; cases away
    | true =>
      obtain rfl := law.injective shared same
      rw [found] at absent
      cases absent
  · rw [same,free] at bound
    cases bound

/-- A new name of a key that is not in the index. -/
theorem Kept.link {i : Inode} (kept : Kept law vanished entries used v) (absent : entries.lookup key = none)
    (free : v.names.lookup (E.layout.filename key) = none) :
    Kept law (vanished.filter (fun k => decide (E.layout.filename k ≠ E.layout.filename key))) entries used
      (v.apply (.link (E.layout.filename key) i)) := by
  have other : ∀ {k}, (entries.lookup k).isSome = true → E.layout.filename k ≠ E.layout.filename key :=
    fun there => kept.unnamed absent free there
  have fewer : Kept law (vanished.filter (fun k => decide (E.layout.filename k ≠ E.layout.filename key))) entries used v := by
    refine kept.revise (fun k away there => List.mem_filter.mpr ⟨away,by simpa using other there⟩)
      (fun k member => kept.gone k (List.mem_filter.mp member).1) (fun sole => by rw [kept.alone sole]; rfl)
  refine fewer.apply _ (fun {k} which => ?_) (fun _ _ => trivial)
  rcases which with there | member
  · exact Ne.symm (other there)
  · exact Ne.symm (by simpa using (List.mem_filter.mp member).2)

/-- The link and the entry of a key that had neither. -/
theorem Kept.entered {i : Inode} {f : File (Contents A)} (kept : Kept law vanished entries used v)
    (absent : entries.lookup key = none) (free : v.names.lookup (E.layout.filename key) = none)
    (valid : E.validKey key = true) (file : v.files i = some f) (good : law.Good key e.artifact f.contents) :
    Kept law (vanished.filter (fun k => decide (E.layout.filename k ≠ E.layout.filename key))) (entries.insert key e)
      (used + E.layout.charge e.artifact) (v.apply (.link (E.layout.filename key) i)) := by
  have bound : (v.apply (.link (E.layout.filename key) i)).names.lookup (E.layout.filename key) = some i := by
    simp [Volume.apply,Volume.alter,Change.apply,bindName]
  exact (kept.link (i := i) absent free).insert absent valid bound file good (fun there => kept.unnamed absent free there)

/-- The key is taken out of the index, if it is there. -/
theorem Kept.vacate (kept : Kept law vanished entries used v) (key : String) :
    Kept law vanished (entries.erase key)
      (used - ((entries.lookup key).map (fun e => E.layout.charge e.artifact)).getD 0) v := by
  cases found : entries.lookup key with
  | some e => simpa using kept.erase found
  | none =>
    have same : entries.erase key = entries :=
      AList.ext (List.kerase_of_notMem_keys (AList.lookup_eq_none.mp found))
    simpa [same] using kept

theorem Kept.syncs (kept : Kept law vanished entries used v) : Kept law vanished entries used (v.apply .syncDirectory) :=
  kept.apply .syncDirectory (fun _ => trivial) (fun _ _ => trivial)

@[simp] theorem names_link (v : Volume FileName (Contents A)) (name : FileName) (i : Inode) :
    (v.apply (.link name i)).names.lookup name = some i := by
  simp [Volume.apply,Volume.alter,Change.apply,bindName]

@[simp] theorem names_rename (v : Volume FileName (Contents A)) (source name : FileName) (i : Inode) :
    (v.apply (.rename source name i)).names.lookup name = some i := by
  simp [Volume.apply,Volume.alter,Change.apply,bindName]

theorem delete_used {L : Layout A} {s : Store A} (found : s.entries.lookup k = some e) :
    (s.delete L k).used = s.used - L.charge e.artifact := by
  simp [Store.delete,found,Layout.charge]

/-- A recorded entry that others made room for in vain is taken back. -/
theorem taken_back {s t : Store A} {contents : Contents A}
    (kept : Kept law vanished (s.record E.layout key e contents).entries (s.record E.layout key e contents).used s.volume)
    (evicts : Evicts E.layout (fun k => decide (k = key)) (s.record E.layout key e contents) t) :
    t.entries.lookup key = some e ∧ Kept law vanished t.entries t.used t.volume ∧
      Kept law vanished (t.delete E.layout key).entries (t.delete E.layout key).used t.volume ∧
      (t.delete E.layout key).used ≤ s.used := by
  have recorded : t.entries.lookup key = some e := by
    rw [evicts.kept (by simp)]
    simp [Store.record]
  have after := Kept.evicts (s := s.record E.layout key e contents) kept evicts
  have below : t.used ≤ s.used + E.layout.charge e.artifact := used_le (s := s.record E.layout key e contents) kept evicts
  refine ⟨recorded,after,?_,?_⟩
  · rw [delete_used recorded]
    exact after.erase recorded
  · rw [delete_used recorded]
    omega

/-- Evictions do not touch the staged file. -/
theorem evicts_staged {keep : String → Bool} {s t : Store A} {name : FileName} {i j : Inode}
    {f : File (Contents A)} (evicts : Evicts E.layout keep s t) (law : Lawful E) (upload : ∃ suffix, name = .upload suffix)
    (staged : s.volume.names.lookup name = some i) (file : s.volume.files i = some f)
    (bound : t.volume.names.lookup name = some j) : j = i ∧ t.volume.files i = some f := by
  obtain ⟨ops,disk,_,unlinks⟩ := evicts.ops
  rw [evicts.names (fun k => law.entry_ne k upload),staged] at bound
  refine ⟨(Option.some.inj bound).symm,?_⟩
  rw [Store.volume,disk]
  refine Disk.performs_invariant (I := fun v => v.files i = some f) file (fun v op member held => ?_)
  obtain ⟨k,rfl⟩ := unlinks op member
  exact held

/-- A publication keeps the index, and what is used stays within the budget. -/
theorem publish_kept {s s' : Store A} {p : Staged A} {i : Inode} {f : File (Contents A)} {rollbackFails : Bool} {status : Nat}
    (kept : Kept law vanished s.entries s.used s.volume) (within : s.used ≤ E.maxTotal)
    (published : Publishing E.layout E.maxTotal law.replaces p rollbackFails s s' status)
    (upload : ∃ suffix, p.tmp = .upload suffix) (staged : s.volume.names.lookup p.tmp = some i)
    (file : s.volume.files i = some f) (contents : f.contents = p.contents)
    (valid : E.validKey p.key = true) (good : law.Good p.key p.artifact p.contents) :
    Kept law (vanished.filter (fun k => (s'.volume.names.lookup (E.layout.filename k)).isNone)) s'.entries s'.used s'.volume ∧
      s'.used ≤ E.maxTotal := by
  have good : law.Good p.key p.artifact f.contents := contents ▸ good
  have less : ∀ k ∈ vanished.filter (fun k => decide (E.layout.filename k ≠ E.layout.filename p.key)), k ∈ vanished :=
    fun k member => (List.mem_filter.mp member).1
  have missing : ∀ {t : Store A}, Evicts E.layout (fun k => decide (k = p.key)) s t → s.entries.lookup p.key = none →
      t.entries.lookup p.key = none := by
    intro t evicts absent
    rw [evicts.kept (by simp),absent]
  have lower : ∀ {t : Store A}, Evicts E.layout (fun k => decide (k = p.key)) s t → t.used ≤ E.maxTotal := by
    intro t evicts
    exact le_trans (used_le kept evicts) within
  cases published with
  | @refused t faults status evicts =>
    have after := kept.evicts evicts
    exact ⟨after.filtered (fun _ away => away) kept.alone,lower (t := t) evicts⟩
  | @created t j faults _ absent evicts tmp free room =>
    obtain ⟨rfl,there⟩ := evicts_staged evicts law upload staged file tmp
    have after := kept.evicts evicts
    have recorded := after.entered (e := ⟨p.artifact,p.accessed⟩) (missing evicts absent) free valid there good
    exact ⟨recorded.syncs.filtered less kept.alone,room⟩
  | @withdrawn t j faults _ absent evicts tmp free room =>
    have after := kept.evicts evicts
    have linked := after.link (i := j) (missing evicts absent) free
    have back := linked.unlink (E.layout.filename p.key)
      (fun there => Ne.symm (after.unnamed (missing evicts absent) free there))
    exact ⟨back.filtered less kept.alone,lower (t := t) evicts⟩
  | @orphaned t j faults _ fails absent evicts tmp free room =>
    have after := kept.evicts evicts
    have linked := after.link (i := j) (missing evicts absent) free
    exact ⟨linked.filtered less kept.alone,lower (t := t) evicts⟩
  | @replaced synced t j faults old replaces was evicts tmp room crowd =>
    obtain ⟨rfl,there⟩ := evicts_staged evicts law upload staged file tmp
    have sole := kept.alone (law.owned replaces)
    -- the entry that is replaced leaves the index first, and no other has its file
    have vacated := (kept.evicts evicts).vacate p.key
    rw [evicts.kept (by simp),← was] at vacated
    have other : ∀ {k}, ((t.entries.erase p.key).lookup k).isSome = true → E.layout.filename k ≠ E.layout.filename p.key := by
      intro k there same
      obtain ⟨e,found⟩ := Option.isSome_iff_exists.mp there
      have name := law.collides replaces (vacated.valid found) valid same
      rw [name] at found
      simp at found
    have renamed : Kept law vanished (t.entries.erase p.key) (t.used - old)
        (t.volume.apply (.rename p.tmp (E.layout.filename p.key) j)) := by
      refine vacated.apply _ (fun {k} which => ?_) (fun _ _ => trivial)
      rcases which with there | away
      · exact ⟨Ne.symm (law.entry_ne k upload),Ne.symm (other there)⟩
      · rw [sole] at away
        cases away
    have recorded := renamed.insert (e := ⟨p.artifact,p.accessed⟩) (by simp) valid (names_rename _ _ _ _) there good other
    rw [insert_erase] at recorded
    cases synced with
    | false => exact ⟨recorded.filtered (fun _ away => away) kept.alone,room⟩
    | true => exact ⟨recorded.syncs.filtered (fun _ away => away) kept.alone,room⟩
  | @added t j faults _ absent tmp free evicts room =>
    rw [staged] at tmp
    obtain rfl := Option.some.inj tmp
    have recorded := kept.entered (e := ⟨p.artifact,p.accessed⟩) absent free valid file good
    exact ⟨(Kept.evicts recorded evicts).filtered less kept.alone,room⟩
  | @undone t j faults _ absent tmp free evicts =>
    rw [staged] at tmp
    obtain rfl := Option.some.inj tmp
    have recorded := kept.entered (e := ⟨p.artifact,p.accessed⟩) absent free valid file good
    obtain ⟨mine,before,erased,below⟩ := taken_back recorded evicts
    refine ⟨(erased.unlink (E.layout.filename p.key) (fun {k} there same => ?_)).filtered less kept.alone,below.trans within⟩
    obtain ⟨e,found⟩ := Option.isSome_iff_exists.mp there
    have found : (t.entries.erase p.key).lookup k = some e := found
    rw [lookup_erase] at found
    split at found
    · cases found
    · rename_i other
      exact other (before.apart mine found same).symm
  | @stranded t j faults _ fails absent tmp free evicts =>
    rw [staged] at tmp
    obtain rfl := Option.some.inj tmp
    have recorded := kept.entered (e := ⟨p.artifact,p.accessed⟩) absent free valid file good
    obtain ⟨_,_,erased,below⟩ := taken_back recorded evicts
    exact ⟨erased.filtered less kept.alone,below.trans within⟩

/-- A file that others remove. -/
theorem Kept.vanish (kept : Kept law vanished entries used v) (shared : E.shared = true) (key : String) :
    Kept law (key :: vanished) entries used (v.apply (.unlink (E.layout.filename key))) where
  counted := kept.counted
  valid := kept.valid
  filed := by
    intro k e found
    by_cases same : k = key
    · exact .inl (by rw [same]; exact List.mem_cons_self)
    · have passes : (Op.unlink (E.layout.filename key) : Op FileName (Contents A)).Passes (E.layout.filename k) :=
        fun equal => same (law.injective shared equal).symm
      rcases kept.filed found with away | ⟨i,f,bound,file,good⟩
      · exact .inl (List.mem_cons_of_mem _ away)
      · exact .inr ⟨i,f,(names_apply passes).trans bound,file,good⟩
  charged := kept.charged
  apart := kept.apart
  gone := by
    intro k away
    by_cases same : E.layout.filename k = E.layout.filename key
    · rw [same]
      simp [Volume.apply,Volume.alter,Change.apply,bindName]
    · have passes : (Op.unlink (E.layout.filename key) : Op FileName (Contents A)).Passes (E.layout.filename k) := Ne.symm same
      rcases List.mem_cons.mp away with rfl | away
      · exact absurd rfl same
      · exact (names_apply passes).trans (kept.gone k away)
  alone := by
    intro sole
    rw [shared] at sole
    cases sole

/-- A reader keeps the index. -/
theorem fetch_kept {s s' : Store A} {answer : Answer A} (kept : Kept law vanished s.entries s.used s.volume)
    (within : s.used ≤ E.maxTotal) (ran : Fetching E.layout law.Reads key s s' answer) :
    Kept law vanished s'.entries s'.used s'.volume ∧ s'.used ≤ E.maxTotal := by
  cases ran with
  | refused => exact ⟨kept,within⟩
  | @opened touched e i file faults now found _ _ _ =>
    have accessed := kept.accessed now found
    cases touched with
    | true => exact ⟨accessed.apply (.touch i now) (fun _ => trivial) (fun _ _ => trivial),within⟩
    | false => exact ⟨accessed,within⟩
  | @missed e faults found _ =>
    have charged := kept.charged found
    have erased := kept.erase found
    rw [← delete_used (L := E.layout) found] at erased
    refine ⟨erased,?_⟩
    have less : (s.delete E.layout key).used ≤ E.maxTotal := by rw [delete_used found]; omega
    exact less

section
variable (law)

/-- The accounts of a server are right and within its budget. -/
structure Balanced (s : System A) : Prop where
  kept : Kept law s.vanished s.store.entries s.store.used s.store.volume
  within : s.store.used ≤ E.maxTotal

end

variable {s s' : System A}

/-- Calls on a staging file do not concern the entries. -/
theorem Balanced.own {name : FileName} {i : Inode} (balanced : Balanced law s) (owns : Owns s.store.volume name i)
    (op : Op FileName (Contents A))
    (passes : ∀ n, op.Passes n) (leaves : ∀ j, j ≠ i → op.Leaves j) :
    Kept law s.vanished s.store.entries s.store.used (s.store.volume.apply op) := by
  refine balanced.kept.apply _ (fun _ => passes _) (fun {k j} _ bound => leaves j ?_)
  rintro rfl
  exact law.entry_ne k owns.upload (owns.only _ (.inl bound))

theorem Balanced.created (balanced : Balanced law s) (tidy : Tidy law s) (suffix : String) (file : File (Contents A)) :
    Kept law s.vanished s.store.entries s.store.used
      (s.store.volume.apply (.create (.upload suffix) s.store.next file)) := by
  refine balanced.kept.apply _ (fun {k} _ => Ne.symm (law.entry_ne k ⟨suffix,rfl⟩)) (fun {k j} _ bound => ?_)
  exact Nat.ne_of_gt (tidy.allocated _ j (.inl bound)).1

/-- Every step keeps the accounts. -/
theorem Balanced.step {l : Label} (balanced : Balanced law s) (tidy : Tidy law s) (stepped : Stepped E l s s') : Balanced law s' := by
  have within := balanced.within
  cases stepped with
  | arrived _ => exact ⟨balanced.kept,within⟩
  | asked _ => exact ⟨balanced.kept,within⟩
  | started _ _ _ => exact ⟨balanced.kept,within⟩
  | ended _ _ => exact ⟨balanced.kept,within⟩
  | acquired _ _ => exact ⟨balanced.kept,within⟩
  | refused _ => exact ⟨balanced.kept,within⟩
  | spoiled _ _ => exact ⟨balanced.created tidy _ _,within⟩
  | @created t r a suffix now faults found free =>
    refine ⟨?_,within⟩
    have created := balanced.created tidy suffix ⟨.short 0,true,false,now⟩
    refine created.apply (.write s.store.next (.envelope none []) now) (fun _ => trivial) (fun {k j} _ bound => ?_)
    rintro rfl
    -- the new inode has no name but the one of the upload
    exact law.entry_ne k ⟨suffix,rfl⟩ ((tidy.owns_created suffix _).only _ (.inl bound))
  | received found _ =>
    obtain ⟨_,owns,_⟩ := tidy.sound found
    exact ⟨balanced.own owns (.write _ _ _) (fun _ => trivial) (fun _ different => Ne.symm different),within⟩
  | abandoned _ => exact ⟨balanced.kept,within⟩
  | unsynced found _ =>
    obtain ⟨_,owns,_⟩ := tidy.sound found
    exact ⟨balanced.own owns (.write _ _ _) (fun _ => trivial) (fun _ different => Ne.symm different),within⟩
  | @finished t r a a' name i body now faults later _ found done =>
    obtain ⟨_,owns,_⟩ := tidy.sound found
    refine ⟨?_,within⟩
    have both : Kept law s.vanished s.store.entries s.store.used
        (s.store.disk.performs (sealing (E.header a') body i now)).volume ∧
        Owns (s.store.disk.performs (sealing (E.header a') body i now)).volume name i := by
      refine Disk.performs_invariant (I := fun v => Kept law s.vanished s.store.entries s.store.used v ∧ Owns v name i)
        ⟨balanced.kept,owns⟩ ?_
      rintro v op member ⟨kept,held⟩
      obtain ⟨passes,leaves,unbound⟩ := sealing_ops member
      refine ⟨kept.apply op (fun _ => passes _) (fun {k j} _ bound => leaves j ?_),held.apply (passes name) (fun n => unbound n i)⟩
      rintro rfl
      exact law.entry_ne k held.upload (held.only _ (.inl bound))
    exact both.1
  | @published t p i faults rollbackFails store status _ found free ran =>
    obtain ⟨owns,valid,good,_,f,there,contents,_⟩ := tidy.sound found
    obtain ⟨kept,within⟩ := publish_kept (s := s.enter faults) balanced.kept within (law.publish ran) owns.upload owns.bound there
      contents valid good
    exact ⟨kept,within⟩
  | kept _ _ _ => exact ⟨balanced.kept,within⟩
  | @left t name i status faults found =>
    obtain ⟨upload,_⟩ := tidy.sound found
    exact ⟨balanced.kept.unlink name (fun {k} _ => Ne.symm (law.entry_ne k upload)),within⟩
  | released _ => exact ⟨balanced.kept,within⟩
  | @fetched t key now status faults store found free ran =>
    obtain ⟨kept,within⟩ := fetch_kept (s := s.enter faults) balanced.kept within (law.get ran)
    exact ⟨kept,within⟩
  | @opened t key now faults store i a contents found free ran =>
    obtain ⟨kept,within⟩ := fetch_kept (s := s.enter faults) balanced.kept within (law.get ran)
    exact ⟨kept,within⟩
  | sent _ _ => exact ⟨balanced.kept,within⟩
  | @vanished key i shared there => exact ⟨balanced.kept.vanish shared key,within⟩

/-! ### The directory -/

section
variable (law)

/-- Every published file is the one of an entry. -/
def Indexed (entries : Table String (Entry A)) (v : Volume FileName (Contents A)) : Prop :=
  ∀ n i f, v.names.lookup n = some i → v.files i = some f → law.Tracked n f →
    ∃ k e, entries.lookup k = some e ∧ E.layout.filename k = n

end

/-- Calls that bind only names of uploads, on files that are not published. -/
theorem Indexed.apply {next : Inode} (indexed : Indexed law entries v) (allocated : Allocated next v)
    (op : Op FileName (Contents A)) (binds : ∀ {n j}, op.Binds n j → ∃ suffix, n = .upload suffix)
    (leaves : ∀ {n j}, v.names.lookup n = some j → (∃ suffix, n = .upload suffix) ∨ op.Leaves j) :
    Indexed law entries (v.apply op) := by
  intro n i g bound file tracked
  have upload : ¬∃ suffix, n = .upload suffix := by
    rintro ⟨suffix,rfl⟩
    exact law.untracked tracked
  rcases lookup_apply bound with before | bind
  · obtain ⟨_,f,found⟩ := allocated n i (.inl before)
    obtain ⟨g',after,same⟩ := file_apply ((leaves before).resolve_left upload) found
    rw [after] at file
    obtain rfl := Option.some.inj file
    exact indexed n i f before found (law.tracked same tracked)
  · exact absurd (binds bind) upload

theorem Indexed.unlink (indexed : Indexed law entries v) (name : FileName) :
    Indexed law entries (v.apply (.unlink name)) := by
  intro n i f bound file tracked
  exact indexed n i f ((lookup_apply bound).resolve_right (fun bind => bind)) file tracked

theorem Indexed.insert (indexed : Indexed law entries v) : Indexed law (entries.insert key e) v := by
  intro n i f bound file tracked
  obtain ⟨k,e',found,named⟩ := indexed n i f bound file tracked
  by_cases same : k = key
  · exact ⟨key,e,by simp,by rw [← same]; exact named⟩
  · exact ⟨k,e',by rw [AList.lookup_insert_ne same]; exact found,named⟩

/-- The name of an entry is bound. -/
theorem Indexed.bind (indexed : Indexed law entries v) (found : entries.lookup key = some e) (op : Op FileName (Contents A))
    (binds : ∀ {n j}, op.Binds n j → n = E.layout.filename key) (files : (v.apply op).files = v.files) :
    Indexed law entries (v.apply op) := by
  intro n i f bound file tracked
  rcases lookup_apply bound with before | bind
  · rw [files] at file
    exact indexed n i f before file tracked
  · exact ⟨key,e,found,(binds bind).symm⟩

/-- An entry goes whose file is not there. -/
theorem Indexed.erase (indexed : Indexed law entries v) (free : v.names.lookup (E.layout.filename k) = none) :
    Indexed law (entries.erase k) v := by
  intro n i f bound file tracked
  obtain ⟨j,e',found,named⟩ := indexed n i f bound file tracked
  have other : j ≠ k := by
    rintro rfl
    rw [named,bound] at free
    cases free
  exact ⟨j,e',by rw [AList.lookup_erase_ne other]; exact found,named⟩

@[simp] theorem names_unlink (v : Volume FileName (Contents A)) (name : FileName) :
    (v.apply (.unlink name)).names.lookup name = none := by
  simp [Volume.apply,Volume.alter,Change.apply,bindName]

theorem Indexed.evicts {keep : String → Bool} {s t : Store A} (indexed : Indexed law s.entries s.volume)
    (evicts : Evicts E.layout keep s t) : Indexed law t.entries t.volume := by
  refine evicts.invariant (I := fun t => Indexed law t.entries t.volume) indexed ?_
  intro t k e held found _
  rw [dropKey_entries]
  rcases dropKey_volume E.layout k t with unlinked | ⟨free,same⟩
  · rw [unlinked]
    exact (held.unlink _).erase (names_unlink _ _)
  · rw [same]
    exact held.erase free

/-- A publication whose rollback works leaves no file without an entry. -/
theorem publish_indexed {s s' : Store A} {p : Staged A} {status : Nat} (indexed : Indexed law s.entries s.volume)
    (published : Publishing E.layout E.maxTotal law.replaces p false s s' status) : Indexed law s'.entries s'.volume := by
  cases published with
  | refused evicts =>
    have after := indexed.evicts evicts
    exact after
  | @created t j faults _ absent evicts tmp free room =>
    have recorded : Indexed law (t.entries.insert p.key ⟨p.artifact,p.accessed⟩) t.volume := (indexed.evicts evicts).insert
    have linked := recorded.bind (AList.lookup_insert _) (.link (E.layout.filename p.key) j) (fun bind => bind.1.symm) rfl
    exact linked.bind (AList.lookup_insert _) .syncDirectory (fun bind => bind.elim) rfl
  | @withdrawn t j faults _ absent evicts tmp free room =>
    intro n i f bound file tracked
    have before : t.volume.names.lookup n = some i := by
      have bound : ((t.volume.apply (.link (E.layout.filename p.key) j)).apply (.unlink (E.layout.filename p.key))).names.lookup n
        = some i := bound
      rcases lookup_apply ((lookup_apply bound).resolve_right (fun bind => bind)) with before | ⟨rfl,_⟩
      · exact before
      · rw [names_unlink] at bound
        cases bound
    exact indexed.evicts evicts n i f before file tracked
  | orphaned _ fails => cases fails
  | @replaced synced t j faults old replaces was evicts tmp room crowd =>
    have recorded : Indexed law (t.entries.insert p.key ⟨p.artifact,p.accessed⟩) t.volume := (indexed.evicts evicts).insert
    have renamed := recorded.bind (AList.lookup_insert _) (.rename p.tmp (E.layout.filename p.key) j) (fun bind => bind.1.symm) rfl
    cases synced with
    | false => exact renamed
    | true => exact renamed.bind (AList.lookup_insert _) .syncDirectory (fun bind => bind.elim) rfl
  | @added t j faults _ absent tmp free evicts room =>
    have recorded : Indexed law (s.entries.insert p.key ⟨p.artifact,p.accessed⟩) s.volume := indexed.insert
    have linked := recorded.bind (AList.lookup_insert _) (.link (E.layout.filename p.key) j) (fun bind => bind.1.symm) rfl
    have after := Indexed.evicts (s := (s.perform (.link (E.layout.filename p.key) j)).record E.layout p.key
      ⟨p.artifact,p.accessed⟩ p.contents) linked evicts
    exact after
  | @undone t j faults _ absent tmp free evicts =>
    have recorded : Indexed law (s.entries.insert p.key ⟨p.artifact,p.accessed⟩) s.volume := indexed.insert
    have linked := recorded.bind (AList.lookup_insert _) (.link (E.layout.filename p.key) j) (fun bind => bind.1.symm) rfl
    have after := Indexed.evicts (s := (s.perform (.link (E.layout.filename p.key) j)).record E.layout p.key
      ⟨p.artifact,p.accessed⟩ p.contents) linked evicts
    exact (after.unlink _).erase (names_unlink _ _)
  | stranded _ fails => cases fails

/-- A reader leaves no file without an entry. -/
theorem fetch_indexed {s s' : Store A} {answer : Answer A} (indexed : Indexed law s.entries s.volume)
    (allocated : Allocated s.next s.volume) (ran : Fetching E.layout law.Reads key s s' answer) :
    Indexed law s'.entries s'.volume := by
  cases ran with
  | refused => exact indexed
  | @opened touched e i file faults now found _ _ _ =>
    have accessed : Indexed law (s.entries.insert key { e with accessed := now }) s.volume := indexed.insert
    cases touched with
    | false => exact accessed
    | true => exact accessed.apply allocated (.touch i now) (fun bind => bind.elim) (fun _ => .inr trivial)
  | @missed e faults found missing =>
    refine indexed.erase ?_
    cases bound : s.volume.names.lookup (E.layout.filename key) with
    | none => rfl
    | some i =>
      obtain ⟨_,f,file⟩ := allocated _ i (.inl bound)
      simp [Volume.file,bound,file] at missing

/-- Every step whose rollback works leaves no file without an entry. -/
theorem Indexed.step {l : Label} (indexed : Indexed law s.store.entries s.store.volume) (tidy : Tidy law s)
    (calm : ∀ t faults, l ≠ .publish t faults true) (stepped : Stepped E l s s') :
    Indexed law s'.store.entries s'.store.volume := by
  -- calls on the file of an upload
  have own : ∀ {name : FileName} {i : Inode} {v : Volume FileName (Contents A)} (op : Op FileName (Contents A)),
      Indexed law s.store.entries v → Allocated s.store.next v → Owns v name i → (∀ n j, ¬op.Binds n j) →
      (∀ j, j ≠ i → op.Leaves j) → Indexed law s.store.entries (v.apply op) := by
    intro name i v op indexed allocated owns unbound leaves
    refine indexed.apply allocated op (fun bind => absurd bind (unbound _ _)) (fun {n j} bound => ?_)
    by_cases same : j = i
    · subst same
      rw [owns.only n (.inl bound)]
      exact .inl owns.upload
    · exact .inr (leaves j same)
  have create : ∀ (suffix : String) (file : File (Contents A)), Indexed law s.store.entries
      (s.store.volume.apply (.create (.upload suffix) s.store.next file)) := by
    intro suffix file
    refine indexed.apply tidy.allocated _ (fun bind => ⟨suffix,bind.1.symm⟩) (fun {n j} bound => .inr ?_)
    exact Nat.ne_of_gt (tidy.allocated n j (.inl bound)).1
  cases stepped with
  | arrived _ => exact indexed
  | asked _ => exact indexed
  | started _ _ _ => exact indexed
  | ended _ _ => exact indexed
  | acquired _ _ => exact indexed
  | refused _ => exact indexed
  | spoiled _ _ => exact create _ _
  | @created t r a suffix now faults found free =>
    have owns := tidy.owns_created suffix (⟨.short 0,true,false,now⟩ : File (Contents A))
    refine (create suffix _).apply (tidy.allocated.create _ _) _ (fun bind => bind.elim) (fun {n j} bound => ?_)
    by_cases same : j = s.store.next
    · subst same
      exact .inl ⟨suffix,owns.only n (.inl bound)⟩
    · exact .inr (Ne.symm same)
  | received found _ =>
    obtain ⟨_,owns,_⟩ := tidy.sound found
    exact own _ indexed tidy.allocated owns (fun _ _ bind => bind) (fun _ different => Ne.symm different)
  | abandoned _ => exact indexed
  | unsynced found _ =>
    obtain ⟨_,owns,_⟩ := tidy.sound found
    exact own _ indexed tidy.allocated owns (fun _ _ bind => bind) (fun _ different => Ne.symm different)
  | @finished t r a a' name i body now faults later _ found done =>
    obtain ⟨_,owns,_⟩ := tidy.sound found
    have all : Indexed law s.store.entries (s.store.disk.performs (sealing (E.header a') body i now)).volume ∧
        Allocated s.store.next (s.store.disk.performs (sealing (E.header a') body i now)).volume ∧
        Owns (s.store.disk.performs (sealing (E.header a') body i now)).volume name i := by
      refine Disk.performs_invariant (I := fun v => Indexed law s.store.entries v ∧ Allocated s.store.next v ∧ Owns v name i)
        ⟨indexed,tidy.allocated,owns⟩ ?_
      rintro v op member ⟨held,allocated,owned⟩
      obtain ⟨passes,leaves,unbound⟩ := sealing_ops member
      exact ⟨own op held allocated owned unbound leaves,allocated.apply (fun n j bind => absurd bind (unbound n j)),
        owned.apply (passes name) (fun n => unbound n i)⟩
    exact all.1
  | @published t p i faults rollbackFails store status label found free ran =>
    have works : rollbackFails = false := by
      cases rollbackFails with
      | false => rfl
      | true => exact absurd label (calm t faults)
    subst works
    exact publish_indexed (s := s.enter faults) indexed (law.publish ran)
  | kept _ _ _ => exact indexed
  | left _ => exact indexed.unlink _
  | released _ => exact indexed
  | @fetched t key now status faults store found free ran =>
    exact fetch_indexed (s := s.enter faults) indexed tidy.allocated (law.get ran)
  | @opened t key now faults store i a contents found free ran =>
    have after := fetch_indexed (s := s.enter faults) indexed tidy.allocated (law.get ran)
    exact after
  | sent _ _ => exact indexed
  | vanished _ _ => exact indexed.unlink _

end Expbuild.Accounting
