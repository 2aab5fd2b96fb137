import Expbuild.Histories

/-!
What `New` makes of a directory. The loop over the directory records every file
of an entry under its own key, so that at its end the index and the directory
agree; an eviction then brings them within the budget.
-/
namespace Expbuild.Booting
open Expbuild.Tables Expbuild.Disks Expbuild.Engines Expbuild.Stores Expbuild.Handlers Expbuild.Accounting Expbuild.Histories

section
variable {A : Type} {E : Engine A} (law : Lawful E)

/-- The loop has read all but the rest of the directory. -/
structure Scanned (rest : List (FileName × Inode)) (s : Store A) : Prop where
  kept : Kept law [] s.entries s.used s.volume
  allocated : Allocated s.next s.volume
  here : ∀ {n i}, (n,i) ∈ rest → s.volume.names.lookup n = some i
  distinct : (rest.map Prod.fst).Nodup
  indexed : ∀ {n i f}, s.volume.names.lookup n = some i → s.volume.files i = some f → law.Tracked n f →
    (n,i) ∈ rest ∨ ∃ k e, s.entries.lookup k = some e ∧ E.layout.filename k = n
  unread : ∀ {n i}, (n,i) ∈ rest → ∀ {k e}, s.entries.lookup k = some e → E.layout.filename k ≠ n
  mirror : Mirror E.layout s.entries s.log s.volume
  disciplined : Disciplined law.replaces s.log

variable {law}
variable {s s' : Store A} {name : FileName} {i : Inode} {rest : List (FileName × Inode)}

theorem Scanned.fresh (m : Mounted A) (faults : List Bool) :
    Scanned law (items m.volume) (.fresh m.volume m.next faults) where
  kept := ⟨rfl,nofun,nofun,nofun,nofun,nofun,fun _ => rfl⟩
  allocated := m.allocated
  here := by
    intro n i member
    obtain ⟨row,found,same⟩ := List.mem_map.mp member
    cases same
    exact lookup_iff_entry.mpr found
  distinct := by
    have keys : (items m.volume).map Prod.fst = m.volume.names.keys := by
      simp [items,AList.keys,List.keys]
    rw [keys]
    exact m.volume.names.keys_nodup
  indexed := by
    intro n i f bound _ _
    exact .inl (List.mem_map.mpr ⟨⟨n,i⟩,lookup_iff_entry.mp bound,rfl⟩)
  unread := nofun
  mirror := fun _ => mirrored_absent rfl rfl
  disciplined := trivial

/-- The calls to come do not matter. -/
theorem Scanned.refault (scanned : Scanned law rest s) (faults : List Bool) : Scanned law rest { s with faults } :=
  ⟨scanned.kept,scanned.allocated,scanned.here,scanned.distinct,scanned.indexed,scanned.unread,scanned.mirror,scanned.disciplined⟩

theorem Scanned.other (scanned : Scanned law ((name,i) :: rest) s) {n : FileName} {j : Inode} (member : (n,j) ∈ rest) :
    n ≠ name := by
  rintro rfl
  have distinct := (List.nodup_cons.mp scanned.distinct).1
  exact distinct (List.mem_map.mpr ⟨(n,j),member,rfl⟩)

/-- A staging file is removed. -/
theorem Scanned.removed (scanned : Scanned law ((name,i) :: rest) s) (upload : ∃ suffix, name = .upload suffix) :
    Scanned law rest (s.perform (.unlink name)) where
  kept := scanned.kept.unlink name (fun {k} _ => Ne.symm (law.entry_ne k upload))
  allocated := scanned.allocated.apply (fun _ _ bind => bind.elim)
  here := by
    intro n j member
    have passes : (Op.unlink name : Op FileName (Contents A)).Passes n := Ne.symm (scanned.other member)
    exact (names_apply passes).trans (scanned.here (List.mem_cons_of_mem _ member))
  distinct := (List.nodup_cons.mp scanned.distinct).2
  indexed := by
    intro n j f bound file tracked
    rcases scanned.indexed ((lookup_apply bound).resolve_right (fun bind => bind)) file tracked with member | known
    · rcases List.mem_cons.mp member with same | later
      · cases same
        obtain ⟨suffix,rfl⟩ := upload
        exact absurd tracked law.untracked
      · exact .inl later
    · exact .inr known
  unread := fun member => scanned.unread (List.mem_cons_of_mem _ member)
  mirror := scanned.mirror.apply (.unlink name) (fun {k} _ => Ne.symm (law.entry_ne k upload)) (fun _ _ => trivial)
  disciplined := scanned.disciplined

/-- A file that is none of an entry is passed over. -/
theorem Scanned.passed (scanned : Scanned law ((name,i) :: rest) s)
    (foreign : ∀ f, s.volume.files i = some f → ¬law.Tracked name f) : Scanned law rest s where
  kept := scanned.kept
  allocated := scanned.allocated
  here := fun member => scanned.here (List.mem_cons_of_mem _ member)
  distinct := (List.nodup_cons.mp scanned.distinct).2
  indexed := by
    intro n j f bound file tracked
    rcases scanned.indexed bound file tracked with member | known
    · rcases List.mem_cons.mp member with same | later
      · cases same
        exact absurd tracked (foreign f file)
      · exact .inl later
    · exact .inr known
  unread := fun member => scanned.unread (List.mem_cons_of_mem _ member)
  mirror := scanned.mirror
  disciplined := scanned.disciplined

/-- No entry has the name of a file that is still to be read. -/
theorem Scanned.absent {key : String} (scanned : Scanned law ((name,i) :: rest) s) (named : E.layout.filename key = name) :
    s.entries.lookup key = none := by
  cases found : s.entries.lookup key with
  | none => rfl
  | some e => exact absurd named (scanned.unread List.mem_cons_self found)

/-- The file of an entry is recorded. -/
theorem Scanned.recorded {key : String} {e : Entry A} {f : File (Contents A)} (scanned : Scanned law ((name,i) :: rest) s)
    (named : E.layout.filename key = name) (file : s.volume.files i = some f) (regular : f.regular = true)
    (valid : E.validKey key = true) (good : law.Good key e.artifact f.contents) :
    Scanned law rest (s.record E.layout key e f.contents) where
  kept := by
    have other : ∀ {k}, (s.entries.lookup k).isSome = true → E.layout.filename k ≠ E.layout.filename key := by
      intro k there
      obtain ⟨e',found⟩ := Option.isSome_iff_exists.mp there
      rw [named]
      exact scanned.unread List.mem_cons_self found
    exact scanned.kept.insert (scanned.absent named) valid (by rw [named]; exact scanned.here List.mem_cons_self) file good other
  allocated := scanned.allocated
  here := fun member => scanned.here (List.mem_cons_of_mem _ member)
  distinct := (List.nodup_cons.mp scanned.distinct).2
  indexed := by
    intro n j g bound there tracked
    rcases scanned.indexed bound there tracked with member | ⟨k,e',found,same⟩
    · rcases List.mem_cons.mp member with same | later
      · cases same
        exact .inr ⟨key,e,by simp [Store.record],named⟩
      · exact .inl later
    · by_cases again : k = key
      · exact .inr ⟨key,e,by simp [Store.record],by rw [← again]; exact same⟩
      · exact .inr ⟨k,e',by simpa [Store.record,AList.lookup_insert_ne again] using found,same⟩
  unread := by
    intro n j member k e' found
    rcases lookup_insert_some found with ⟨rfl,_⟩ | ⟨_,before⟩
    · rw [named]
      exact Ne.symm (scanned.other member)
    · exact scanned.unread (List.mem_cons_of_mem _ member) before
  mirror := by
    have bound : s.volume.names.lookup (E.layout.filename key) = some i := by
      rw [named]
      exact scanned.here List.mem_cons_self
    refine scanned.mirror.revise key (mirrored_present (AList.lookup_insert _) bound file regular (latest_published _ _ _ _)) ?_
      (fun other => latest_published_other other) (fun _ _ => rfl) rfl
    intro k other
    simp [Store.record,AList.lookup_insert_ne other]
  disciplined := ⟨fun _ => (scanned.mirror key).absent (scanned.absent named),scanned.disciplined⟩

/-- The loop of the engines whose files carry a header. -/
theorem scan_scanned {keyOf : A → String} {readArtifact : File (Contents A) → Option A} {accepts : A → Bool}
    (scanned : Scanned law rest s) (ran : scan E.layout keyOf readArtifact accepts rest s = some s')
    (reads : ∀ {file a}, readArtifact file = some a → accepts a = true →
      file.regular = true ∧ E.validKey (keyOf a) = true ∧ law.Good (keyOf a) a file.contents) : Scanned law [] s' := by
  induction rest generalizing s with
  | nil =>
    simp only [scan] at ran
    cases ran
    exact scanned
  | cons item rest ih =>
    obtain ⟨name,i⟩ := item
    obtain ⟨faults,⟨suffix,rfl,ran⟩ | ⟨stem,j,a,f,rfl,bound,file,read,named,accepted,ran⟩⟩ := scan_cons ran
    · exact ih ((scanned.removed ⟨suffix,rfl⟩).refault faults) ran
    · obtain ⟨regular,valid,good⟩ := reads read accepted
      rw [scanned.here List.mem_cons_self] at bound
      obtain rfl := Option.some.inj bound
      have recorded := (scanned.refault faults).recorded (e := ⟨a,f.modified⟩) named file regular valid good
      exact ih recorded ran

/-- At the end of the loop only entries are left in the directory. -/
theorem scan_entries {keyOf : A → String} {readArtifact : File (Contents A) → Option A} {accepts : A → Bool}
    {rest : List (FileName × Inode)} {store store' : Store A}
    (names : ∀ {n i}, store.volume.names.lookup n = some i → (n,i) ∈ rest ∨ ∃ stem, n = .entry stem)
    (ran : scan E.layout keyOf readArtifact accepts rest store = some store') {n : FileName} {i : Inode}
    (bound : store'.volume.names.lookup n = some i) : ∃ stem, n = .entry stem := by
  induction rest generalizing store with
  | nil =>
    simp only [scan,Option.some.injEq] at ran
    subst ran
    exact (names bound).resolve_left (by simp)
  | cons item rest ih =>
    obtain ⟨name,j⟩ := item
    obtain ⟨faults,⟨suffix,rfl,ran⟩ | ⟨stem,_,a,f,rfl,_,_,_,_,_,ran⟩⟩ := scan_cons ran
    · refine ih (fun {n i} still => ?_) ran
      rcases names ((lookup_apply still).resolve_right (fun bind => bind)) with member | entry
      · rcases List.mem_cons.mp member with same | later
        · cases same
          exact absurd ((names_unlink store.volume _).symm.trans still) (by simp)
        · exact .inl later
      · exact .inr entry
    · refine ih (fun {n i} still => ?_) ran
      rcases names still with member | entry
      · rcases List.mem_cons.mp member with same | later
        · cases same
          exact .inr ⟨stem,rfl⟩
        · exact .inl later
      · exact .inr entry

/-! ### The server that `New` returns -/

section
variable (law)

/-- A server without requests whose accounts are right. -/
structure Booted (s : Store A) : Prop where
  tidy : Tidy law (System.boot s)
  balanced : Balanced law (System.boot s)
  indexed : Indexed law s.entries s.volume
  told : Told law s.log (System.boot s) []

end

/-- What the loop has read is evicted into the budget. -/
theorem Scanned.booted {keep : String → Bool} {t : Store A} {faults : List Bool} (scanned : Scanned law [] s)
    (evicts : Evicts E.layout keep s t) (within : t.used ≤ E.maxTotal) : Booted law { t with faults } where
  tidy := by
    obtain ⟨ops,disk,next,unlinks⟩ := evicts.ops
    refine ⟨?_,nofun,nofun,nofun,nofun⟩
    change Allocated t.next t.disk.volume
    rw [next,disk]
    refine Handlers.Allocated.performs scanned.allocated (fun op member n j bind => ?_)
    obtain ⟨k,rfl⟩ := unlinks op member
    exact bind.elim
  balanced := by
    have kept := scanned.kept.evicts evicts
    exact ⟨kept,within⟩
  indexed := by
    have before : Indexed law s.entries s.volume := by
      intro n i f bound file tracked
      rcases scanned.indexed bound file tracked with member | known
      · cases member
      · exact known
    have after := before.evicts evicts
    exact after
  told := by
    obtain ⟨mirror,disciplined⟩ := scanned.mirror.evicts scanned.kept scanned.disciplined evicts
    exact ⟨mirror,disciplined,nofun,nofun,nofun,fun told => .inl told⟩

end
end Expbuild.Booting
