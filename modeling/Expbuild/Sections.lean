import Expbuild.Stores
import Expbuild.Turbocache
import Expbuild.Nxcache
import Expbuild.Gocache
import Expbuild.Gradlecache

/-! The sections of the four engines, by the cases of `Publishing` and `Fetching`. -/
namespace Expbuild.Sections
open Expbuild.Tables Expbuild.Disks Expbuild.Engines Expbuild.Stores

section turbocache
open Turbocache
variable {c : Turbocache.Server} {s s' : Store Turbocache.Artifact}

theorem turbo_evictLocked {incoming : Int} {r : Evicted} (ended : c.evictLocked incoming s = (s',r)) :
    (∃ t faults, Evicts c.layout (fun _ => false) s t ∧ s' = { t with faults }) ∧
    (r = .ok → s'.used + incoming ≤ c.maxTotal) ∧
    (r = .exceeded → c.maxTotal < s'.used + incoming ∧ ∀ k, s'.entries.lookup k = none) := by
  obtain ⟨evicted,fine,exceeded⟩ := evict_oldest ended
  refine ⟨evicted,fun ok => ?_,fun ceased => ?_⟩
  · rcases fine ok with room | ⟨room,_⟩
    · exact of_decide_eq_true room
    · exact of_decide_eq_true room
  · obtain ⟨full,gone⟩ := exceeded ceased
    exact ⟨not_le.mp (of_decide_eq_false full),fun k => gone k rfl⟩

theorem turbo_linking {p : Staged Turbocache.Artifact} {rollbackFails : Bool} {status : Nat}
    (published : c.engine.publish p rollbackFails s = (s',status)) :
    Linking c.layout c.maxTotal Turbocache.Server.duplicate p rollbackFails s s' status := by
  refine addEntry_linking (fun ended => ?_) published
  obtain ⟨evicted,room,_⟩ := turbo_evictLocked ended
  exact ⟨evicted,room⟩

theorem turbo_same {a b : Turbocache.Artifact} (same : Turbocache.Server.sameArtifact a b = true) : a = b := by
  simp only [Turbocache.Server.sameArtifact,Bool.and_eq_true,decide_eq_true_eq] at same
  obtain ⟨⟨⟨⟨⟨⟨h₁,h₂⟩,h₃⟩,h₄⟩,h₅⟩,h₆⟩,h₇⟩ := same
  cases a
  cases b
  simp_all

theorem turbo_fetching {key : String} {now : Nat} {answer : Answer Turbocache.Artifact}
    (ran : c.engine.get key now s = (s',answer)) :
    Fetching c.layout (fun a file => c.readArtifact file = some a) key s s' answer :=
  getEntry_fetching (fun _ _ => turbo_same) ran

end turbocache

section nxcache
variable {c : Nxcache.Server} {s s' : Store Nxcache.Artifact}

theorem nx_evictLocked {incoming : Int} {r : Evicted} (ended : c.evictLocked incoming s = (s',r)) :
    (∃ t faults, Evicts c.layout (fun _ => false) s t ∧ s' = { t with faults }) ∧
    (r = .ok → s'.used + incoming ≤ c.maxTotal) ∧
    (r = .exceeded → c.maxTotal < s'.used + incoming ∧ ∀ k, s'.entries.lookup k = none) := by
  obtain ⟨evicted,fine,exceeded⟩ := evict_oldest ended
  refine ⟨evicted,fun ok => ?_,fun ceased => ?_⟩
  · rcases fine ok with room | ⟨room,_⟩
    · have := of_decide_eq_true room; omega
    · have := of_decide_eq_true room; omega
  · obtain ⟨full,gone⟩ := exceeded ceased
    have := of_decide_eq_false full
    exact ⟨by omega,fun k => gone k rfl⟩

theorem nx_linking {p : Staged Nxcache.Artifact} {rollbackFails : Bool} {status : Nat}
    (published : c.engine.publish p rollbackFails s = (s',status)) :
    Linking c.layout c.maxTotal (fun _ _ => 409) p rollbackFails s s' status := by
  have added : addEntry c.layout c.evictLocked (fun _ _ => 409) p rollbackFails s = (s',status) := published
  refine addEntry_linking (fun ended => ?_) added
  obtain ⟨evicted,room,_⟩ := nx_evictLocked ended
  exact ⟨evicted,room⟩

theorem nx_same {a b : Nxcache.Artifact} (same : Nxcache.Server.sameArtifact a b = true) : a = b := by
  simp only [Nxcache.Server.sameArtifact,Bool.and_eq_true,decide_eq_true_eq] at same
  obtain ⟨⟨h₁,h₂⟩,h₃⟩ := same
  cases a
  cases b
  simp_all

theorem nx_fetching {key : String} {now : Nat} {answer : Answer Nxcache.Artifact}
    (ran : c.engine.get key now s = (s',answer)) :
    Fetching c.layout (fun a file => c.readArtifact file = some a) key s s' answer :=
  getEntry_fetching (fun _ _ => nx_same) ran

end nxcache

section gocache
variable {c : Gocache.Server} {s s' : Store Gocache.Artifact}

theorem go_evictLocked {incoming : Int} {keep : Option String} {adding : Bool} {r : Evicted}
    (ended : c.evictLocked incoming keep adding s = (s',r)) :
    (∃ t faults, Evicts c.layout (fun k => decide (some k = keep)) s t ∧ s' = { t with faults }) ∧
    (r = .ok → s'.used + incoming ≤ c.maxTotal ∧
      ((s'.entries.keys.length < maxEntries ∨ adding = false ∧ s'.entries.keys.length ≤ maxEntries) ∨
        ∀ k, some k ≠ keep → s'.entries.lookup k = none)) ∧
    (r = .exceeded → c.maxTotal < s'.used + incoming ∧ ∀ k, some k ≠ keep → s'.entries.lookup k = none) := by
  obtain ⟨evicted,fine,exceeded⟩ := evict_oldest ended
  refine ⟨evicted,fun ok => ?_,fun ceased => ?_⟩
  · rcases fine ok with room | ⟨room,gone⟩
    · simp only [Bool.and_eq_true,Bool.or_eq_true,decide_eq_true_eq,Bool.not_eq_true'] at room
      exact ⟨by omega,.inl room.2⟩
    · have := of_decide_eq_true room
      exact ⟨by omega,.inr (fun k other => gone k (decide_eq_false other))⟩
  · obtain ⟨full,gone⟩ := exceeded ceased
    have := of_decide_eq_false full
    exact ⟨by omega,fun k other => gone k (decide_eq_false other)⟩

theorem empty_of_lookup {V : Type} {t : Table String V} (none_ : ∀ k, t.lookup k = none) : t.keys = [] := by
  refine List.eq_nil_iff_forall_not_mem.mpr (fun k member => ?_)
  exact AList.lookup_eq_none.mp (none_ k) member

theorem go_publishing {p : Staged Gocache.Artifact} {rollbackFails : Bool} {status : Nat}
    (published : c.engine.publish p rollbackFails s = (s',status)) :
    Publishing c.layout c.maxTotal true p rollbackFails s s' status := by
  have published : c.publish p rollbackFails s = (s',status) := published
  unfold Gocache.Server.publish at published
  simp only at published
  have grows : c.layout.charge p.artifact - c.replaced p.key s ≤ c.incoming p.key p.artifact s := by
    unfold Gocache.Server.incoming
    simp only
    split <;> omega
  generalize c.incoming p.key p.artifact s = extra at published grows
  have was : c.replaced p.key s = ((s.entries.lookup p.key).map (fun e => c.layout.charge e.artifact)).getD 0 := rfl
  generalize c.replaced p.key s = old at published grows was
  cases ran : c.evictLocked extra (some p.key) (s.entries.lookup p.key).isNone s with
  | mk out r =>
    rw [ran] at published
    obtain ⟨⟨t,faults,evicts,rfl⟩,room,_⟩ := go_evictLocked ran
    have apart : Evicts c.layout (fun k => decide (k = p.key)) s t := by simpa using evicts
    cases r with
    | failed =>
      obtain ⟨rfl,rfl⟩ := Prod.mk.inj published
      exact .refused apart
    | exceeded =>
      obtain ⟨rfl,rfl⟩ := Prod.mk.inj published
      exact .refused apart
    | ok =>
      simp only at published
      obtain ⟨fits,few⟩ := room rfl
      simp only at fits few
      have crowd : s.entries.lookup p.key = none → t.entries.keys.length < maxEntries := by
        intro absent
        rcases few with (below | ⟨notAdding,_⟩) | gone
        · exact below
        · simp [absent] at notAdding
        · have all : ∀ k, t.entries.lookup k = none := by
            intro k
            by_cases same : k = p.key
            · rw [same,apart.kept (by simp),absent]
            · exact gone k (by simpa using same)
          rw [empty_of_lookup all]
          decide
      obtain ⟨f,failed | ⟨i,tmp,renamed⟩⟩ := rename_cases p.tmp (c.filename p.key) { t with faults }
      · rw [failed] at published
        obtain ⟨rfl,rfl⟩ := Prod.mk.inj published
        exact .refused (t := t) apart
      · rw [renamed] at published
        simp only at published
        generalize built : Store.record c.layout p.key _ p.contents _ = u at published
        obtain ⟨g,unsynced | synced⟩ := syncRoot_cases u
        · rw [unsynced] at published
          obtain ⟨rfl,rfl⟩ := Prod.mk.inj published
          subst built
          exact .replaced false (t := t) rfl was apart tmp (by omega) crowd
        · rw [synced] at published
          obtain ⟨rfl,rfl⟩ := Prod.mk.inj published
          subst built
          exact .replaced true (t := t) rfl was apart tmp (by omega) crowd

theorem go_same {a b : Gocache.Artifact} (same : Gocache.Server.sameArtifact a b = true) : a = b := by
  simp only [Gocache.Server.sameArtifact,Bool.and_eq_true,decide_eq_true_eq] at same
  obtain ⟨⟨⟨⟨⟨⟨⟨h₁,h₂⟩,h₃⟩,h₄⟩,h₅⟩,h₆⟩,h₇⟩,h₈⟩ := same
  cases a
  cases b
  simp_all

theorem go_fetching {key : String} {now : Nat} {answer : Answer Gocache.Artifact}
    (ran : c.engine.get key now s = (s',answer)) :
    Fetching c.layout (fun a file => c.readArtifact file = some a) key s s' answer :=
  getEntry_fetching (fun _ _ => go_same) ran

end gocache

section gradlecache
variable {c : Gradlecache.Server} {s s' : Store Gradlecache.Archive}

theorem gradle_evictLocked {kept : Option String} {r : Evicted} (ended : c.evictLocked kept s = (s',r)) :
    (∃ t faults, Evicts Gradlecache.Server.layout (fun k => decide (some k = kept)) s t ∧ s' = { t with faults }) ∧
    (r = .ok → s'.used ≤ c.maxTotal) ∧
    (r = .exceeded → c.maxTotal < s'.used ∧ ∀ k, some k ≠ kept → s'.entries.lookup k = none) := by
  unfold Gradlecache.Server.evictLocked at ended
  simp only at ended
  split at ended
  · rename_i room
    obtain ⟨rfl,rfl⟩ := Prod.mk.inj ended
    exact ⟨⟨s,s.faults,.refl,rfl⟩,fun _ => of_decide_eq_true room,nofun⟩
  · obtain ⟨evicted,fine,exceeded⟩ := evict_oldest ended
    refine ⟨evicted,fun ok => ?_,fun ceased => ?_⟩
    · rcases fine ok with room | ⟨room,_⟩
      · exact of_decide_eq_true room
      · exact of_decide_eq_true room
    · obtain ⟨full,gone⟩ := exceeded ceased
      exact ⟨not_le.mp (of_decide_eq_false full),fun k other => gone k (decide_eq_false other)⟩

theorem gradle_publishing {p : Staged Gradlecache.Archive} {rollbackFails : Bool} {status : Nat}
    (published : c.engine.publish p rollbackFails s = (s',status)) :
    Publishing Gradlecache.Server.layout c.maxTotal false p rollbackFails s s' status := by
  have published : c.publish p rollbackFails s = (s',status) := published
  unfold Gradlecache.Server.publish at published
  cases known : s.entries.lookup p.key with
  | some old =>
    rw [known] at published
    obtain ⟨rfl,rfl⟩ := Prod.mk.inj published
    exact .refused (t := s) .refl
  | none =>
    rw [known] at published
    simp only at published
    obtain ⟨f,⟨kept,failed⟩ | ⟨i,tmp,free,linked⟩⟩ := link_cases p.tmp (Gradlecache.Server.layout.filename p.key) s
    · cases result : s.link p.tmp (Gradlecache.Server.layout.filename p.key) with
      | mk u r =>
        rw [result] at published kept failed
        simp only at kept failed
        subst kept
        cases r with
        | ok => exact absurd rfl failed
        | exist => obtain ⟨rfl,rfl⟩ := Prod.mk.inj published; exact .refused (t := s) .refl
        | failed => obtain ⟨rfl,rfl⟩ := Prod.mk.inj published; exact .refused (t := s) .refl
    · rw [linked] at published
      simp only at published
      cases ran : c.evictLocked (some p.key) (Store.record Gradlecache.Server.layout p.key ⟨p.artifact,p.accessed⟩ p.contents
          ({ s.perform (.link (Gradlecache.Server.layout.filename p.key) i) with faults := f } : Store Gradlecache.Archive)) with
      | mk out r =>
        rw [ran] at published
        obtain ⟨⟨t,g,evicts,rfl⟩,room,_⟩ := gradle_evictLocked ran
        have apart : Evicts Gradlecache.Server.layout (fun k => decide (k = p.key))
            ((s.perform (.link (Gradlecache.Server.layout.filename p.key) i)).record Gradlecache.Server.layout p.key
              ⟨p.artifact,p.accessed⟩ p.contents) { t with faults := s.faults } := by
          have again := Evicts.refault (s := (s.perform (.link (Gradlecache.Server.layout.filename p.key) i)).record
            Gradlecache.Server.layout p.key ⟨p.artifact,p.accessed⟩ p.contents) evicts s.faults
          simp only [Option.some.injEq] at again
          exact again
        have bound : t.volume.names.lookup (Gradlecache.Server.layout.filename p.key) = some i := by
          refine Evicts.invariant (I := fun t => t.volume.names.lookup (Gradlecache.Server.layout.filename p.key) = some i)
            evicts ?_ ?_
          · simp [Store.record,Store.perform,Disk.perform,Volume.apply,Volume.alter,Change.apply,bindName]
          · intro t k e held _ may
            rcases dropKey_volume Gradlecache.Server.layout k t with unlinked | ⟨_,same⟩
            · have other : p.key ≠ k := by rintro rfl; simp at may
              rw [unlinked]
              simpa [Volume.apply,Volume.alter,Change.apply,bindName,lookup_erase,Gradlecache.Server.layout,other] using held
            · rw [same]; exact held
        have taken : ∀ {out : Store Gradlecache.Archive} {answer : Nat},
            ((({ t with faults := [rollbackFails] } : Store Gradlecache.Archive).remove
              (Gradlecache.Server.layout.filename p.key)).1.delete Gradlecache.Server.layout p.key,503) = (out,answer) →
            Publishing Gradlecache.Server.layout c.maxTotal false p rollbackFails s out answer := by
          intro out answer ended
          obtain ⟨rfl,rfl⟩ := Prod.mk.inj ended
          obtain ⟨h,⟨fails,stayed⟩ | gone⟩ := rollback_cases rollbackFails bound
          · rw [stayed]
            exact .stranded (t := { t with faults := s.faults }) rfl fails known tmp free apart
          · rw [gone]
            exact .undone (t := { t with faults := s.faults }) rfl known tmp free apart
        cases r with
        | ok =>
          obtain ⟨rfl,rfl⟩ := Prod.mk.inj published
          exact .added (t := { t with faults := s.faults }) rfl known tmp free apart (room rfl)
        | failed => exact taken published
        | exceeded => exact taken published

theorem gradle_fetching {key : String} {now : Nat} {answer : Answer Gradlecache.Archive}
    (ran : c.engine.get key now s = (s',answer)) :
    Fetching Gradlecache.Server.layout (fun _ _ => True) key s s' answer := by
  have ran : Gradlecache.Server.get key now s = (s',answer) := ran
  unfold Gradlecache.Server.get at ran
  cases known : s.entries.lookup key with
  | none =>
    rw [known] at ran
    obtain ⟨rfl,rfl⟩ := Prod.mk.inj ran
    exact .refused
  | some e =>
    rw [known] at ran
    simp only at ran
    obtain ⟨faults,failed | worked⟩ := fails_cases s
    · rw [failed] at ran
      obtain ⟨rfl,rfl⟩ := Prod.mk.inj ran
      exact .refused
    · rw [worked] at ran
      simp only [Store.volume] at ran
      cases bound : s.disk.volume.names.lookup (Gradlecache.Server.layout.filename key) with
      | none =>
        rw [bound] at ran
        obtain ⟨rfl,rfl⟩ := Prod.mk.inj ran
        exact .missed known (by simp [Volume.file,bound])
      | some i =>
        rw [bound] at ran
        cases there : s.disk.volume.files i with
        | none =>
          simp only [Option.bind_some,there,Option.map_none] at ran
          obtain ⟨rfl,rfl⟩ := Prod.mk.inj ran
          exact .missed known (by simp [Volume.file,bound,there])
        | some file =>
          simp only [Option.bind_some,there,Option.map_some] at ran
          obtain ⟨rfl,rfl⟩ := Prod.mk.inj ran
          by_cases late : now - e.accessed ≥ 60
          · rw [if_pos late]
            exact .opened true known bound there trivial
          · rw [if_neg late]
            exact .opened false known bound there trivial

end gradlecache
end Expbuild.Sections
