import Expbuild.Sections

/-!
What an eviction removes. The candidates are the entries that are not kept, the
least recently used first; `evictLocked` removes the shortest prefix of them that
makes room, and where a removal fails a shorter one (`eviction_minimal`).
-/
namespace Expbuild.Evictions
open Expbuild.Tables Expbuild.Disks Expbuild.Engines Expbuild.Stores

variable {A : Type} {L : Layout A} {s s' : Store A}

/-- What the entries use together. -/
def usage (L : Layout A) (entries : Table String (Entry A)) : Int := sumOf (fun _ e => L.charge e.artifact) entries

/-- The entries without some of the keys. -/
def without (keys : List String) (entries : Table String (Entry A)) : Table String (Entry A) :=
  keys.foldl (fun rest key => rest.erase key) entries

/-- The keys that may be evicted, in their order: by access, then by name. -/
structure Candidates (entries : Table String (Entry A)) (keep : String → Bool) (keys : List String) : Prop where
  all : ∀ k, k ∈ keys ↔ k ∈ entries ∧ keep k = false
  sorted : keys.Pairwise (fun i j => ∀ e f, entries.lookup i = some e → entries.lookup j = some f →
    e.accessed < f.accessed ∨ (e.accessed = f.accessed ∧ i < j))

/-- An eviction removes the first `n` of its candidates. -/
structure Removes (L : Layout A) (met : Table String (Entry A) → Prop) (keys : List String) (n : Nat) (s s' : Store A)
    (r : Evicted) : Prop where
  within : n ≤ keys.length
  entries : s'.entries = without (keys.take n) s.entries
  /-- No shorter prefix is enough. -/
  needed : ∀ m < n, ¬met (without (keys.take m) s.entries)
  used : s'.used = usage L s'.entries
  ok : r = .ok → met s'.entries
  exceeded : r = .exceeded → n = keys.length ∧ ¬met s'.entries
  failed : r = .failed → n < keys.length ∧ true ∈ s.faults

/-- An eviction removes a prefix of its candidates, the shortest that is enough. -/
def Minimal (L : Layout A) (keep : String → Bool) (met : Table String (Entry A) → Prop) (s s' : Store A) (r : Evicted) :
    Prop :=
  ∃ keys n, Candidates s.entries keep keys ∧ Removes L met keys n s s' r

/-- An index without the keys that `gone` lists: its oldest, and no more of them than it
    takes to make room. -/
structure Trims (met : Table String (Entry A) → Prop) (found left : Table String (Entry A)) (gone : List String) : Prop where
  oldest : ∃ keys, Candidates found (fun _ => false) keys ∧ gone <+: keys
  rest : left = without gone found
  needed : ∀ fewer, fewer <+: gone → fewer ≠ gone → ¬met (without fewer found)
  enough : met left

theorem Minimal.trims {met : Table String (Entry A) → Prop} (minimal : Minimal L (fun _ => false) met s s' .ok) :
    ∃ gone, Trims met s.entries s'.entries gone := by
  obtain ⟨keys,n,candidates,removes⟩ := minimal
  refine ⟨keys.take n,⟨keys,candidates,List.take_prefix n keys⟩,removes.entries,fun fewer shorter other => ?_,removes.ok rfl⟩
  have length : fewer.length < n := by
    have bound := shorter.length_le
    have unequal : fewer.length ≠ (keys.take n).length := fun same => other (shorter.eq_of_length same)
    rw [List.length_take] at bound unequal
    omega
  have taken : fewer = keys.take fewer.length := List.prefix_iff_eq_take.mp (shorter.trans (List.take_prefix n keys))
  rw [taken]
  exact removes.needed fewer.length length

/-! ### The candidates -/

theorem lookup_accessed {entries : Table String (Entry A)} {k : String} {e : Entry A} (found : entries.lookup k = some e) :
    ((entries.lookup k).map (fun e => e.accessed)).getD 0 = e.accessed := by
  rw [found]
  rfl

theorem oldest_candidates (s : Store A) (keep : String → Bool) : Candidates s.entries keep (s.oldest keep) := by
  refine ⟨fun k => ?_,?_⟩
  · rw [oldest_mem,AList.lookup_isSome]
  · have distinct := oldest_nodup s keep
    have sorted : (s.oldest keep).Pairwise (fun i j =>
        (if ((s.entries.lookup i).map (fun e => e.accessed)).getD 0 = ((s.entries.lookup j).map (fun e => e.accessed)).getD 0 then
          decide (i ≤ j) else decide (((s.entries.lookup i).map (fun e => e.accessed)).getD 0 <
            ((s.entries.lookup j).map (fun e => e.accessed)).getD 0)) = true) := by
      refine List.pairwise_mergeSort ?_ ?_ _
      · intro i j k first second
        split at first
        · split at second
          · rw [if_pos (by omega)]
            exact decide_eq_true (String.le_trans (of_decide_eq_true first) (of_decide_eq_true second))
          · have := of_decide_eq_true second
            rw [if_neg (by omega)]
            exact decide_eq_true (by omega)
        · have := of_decide_eq_true first
          split at second
          · rw [if_neg (by omega)]
            exact decide_eq_true (by omega)
          · have := of_decide_eq_true second
            rw [if_neg (by omega)]
            exact decide_eq_true (by omega)
      · intro i j
        simp only [Bool.or_eq_true]
        by_cases same : ((s.entries.lookup i).map (fun e => e.accessed)).getD 0 = ((s.entries.lookup j).map (fun e => e.accessed)).getD 0
        · rw [if_pos same,if_pos same.symm]
          simpa using String.le_total i j
        · rw [if_neg same,if_neg (Ne.symm same)]
          simp only [decide_eq_true_eq]
          omega
    refine (List.pairwise_and_iff.mpr ⟨sorted,distinct⟩).imp ?_
    rintro i j ⟨before,different⟩ e f first second
    rw [lookup_accessed first,lookup_accessed second] at before
    by_cases same : e.accessed = f.accessed
    · rw [if_pos same] at before
      refine .inr ⟨same,?_⟩
      by_contra later
      exact different (String.le_antisymm (of_decide_eq_true before) (String.not_lt.mp later))
    · rw [if_neg same] at before
      exact .inl (of_decide_eq_true before)

/-! ### The loop -/

/-- A removal leaves the index alone, and fails only where a call does. -/
theorem remove_frame (name : FileName) (s : Store A) :
    (s.remove name).1.entries = s.entries ∧ (s.remove name).1.used = s.used ∧
      (∀ fault ∈ (s.remove name).1.faults, fault ∈ s.faults) ∧ ((s.remove name).2 = .failed → true ∈ s.faults) := by
  unfold Store.remove Store.fails
  cases calls : s.faults with
  | nil =>
    simp only
    split
    · exact ⟨rfl,rfl,by simp [calls],(by simp)⟩
    · exact ⟨rfl,rfl,by simp [calls,Store.perform],(by simp)⟩
  | cons fault rest =>
    cases fault with
    | true => exact ⟨rfl,rfl,fun f member => List.mem_cons_of_mem _ member,fun _ => List.mem_cons_self⟩
    | false =>
      simp only
      split
      · exact ⟨rfl,rfl,fun f member => List.mem_cons_of_mem _ member,(by simp)⟩
      · exact ⟨rfl,rfl,fun f member => List.mem_cons_of_mem _ member,(by simp)⟩

/-- One turn of the loop: there is room, the removal fails, or the key goes. -/
theorem evict_turn (L : Layout A) (enough fits : Store A → Bool) (k : String) (rest : List String) (s : Store A) :
    (enough s = true ∧ evict L enough fits (k :: rest) s = (s,.ok)) ∨
    (enough s = false ∧ true ∈ s.faults ∧ ∃ t : Store A, t.entries = s.entries ∧ t.used = s.used ∧
      evict L enough fits (k :: rest) s = (t,.failed)) ∨
    (enough s = false ∧ ∃ t : Store A, t.entries = s.entries ∧ t.used = s.used ∧ (∀ fault ∈ t.faults, fault ∈ s.faults) ∧
      evict L enough fits (k :: rest) s = evict L enough fits rest (t.delete L k)) := by
  cases room : enough s with
  | true => exact .inl ⟨rfl,by simp [evict,room]⟩
  | false =>
    obtain ⟨entries,used,faults,failed⟩ := remove_frame (L.filename k) s
    cases removed : s.remove (L.filename k) with
    | mk t r =>
      rw [removed] at entries used faults failed
      cases r with
      | failed => exact .inr (.inl ⟨rfl,failed rfl,t,entries,used,by simp [evict,room,removed]⟩)
      | ok => exact .inr (.inr ⟨rfl,t,entries,used,faults,by simp [evict,room,removed]⟩)
      | notExist => exact .inr (.inr ⟨rfl,t,entries,used,faults,by simp [evict,room,removed]⟩)

/-- A key that goes takes its charge with it. -/
theorem delete_usage {k : String} {e : Entry A} (found : s.entries.lookup k = some e) (exact_ : s.used = usage L s.entries) :
    (s.delete L k).used = usage L (s.delete L k).entries := by
  have whole := sumOf_erase (fun _ e => L.charge e.artifact) found
  have less : (s.delete L k).used = s.used - L.charge e.artifact := by
    simp [Store.delete,found,Layout.charge]
  rw [less,exact_]
  simp only [usage,Store.delete] at whole ⊢
  omega

/-- The loop removes the shortest prefix of its keys that makes room. -/
theorem evict_removes {met : Table String (Entry A) → Prop} {enough fits : Store A → Bool} {keys : List String}
    {r : Evicted} (ended : evict L enough fits keys s = (s',r)) (distinct : keys.Nodup)
    (present : ∀ k ∈ keys, k ∈ s.entries) (exact_ : s.used = usage L s.entries)
    (room : ∀ t : Store A, t.used = usage L t.entries → (enough t = true ↔ met t.entries))
    (last : ∀ t : Store A, t.used = usage L t.entries → t.entries = without keys s.entries →
      (fits t = true ↔ met t.entries)) : ∃ n, Removes L met keys n s s' r := by
  induction keys generalizing s with
  | nil =>
    have final := last s exact_ rfl
    simp only [evict] at ended
    obtain ⟨rfl,rfl⟩ := Prod.mk.inj ended
    refine ⟨0,Nat.le_refl _,rfl,(by simp),exact_,fun ok => ?_,fun exceeded => ⟨rfl,fun enough => ?_⟩,fun failed => ?_⟩
    · by_cases fit : fits s = true
      · exact final.mp fit
      · rw [if_neg fit] at ok
        cases ok
    · rw [if_pos (final.mpr enough)] at exceeded
      cases exceeded
    · split at failed <;> cases failed
  | cons k rest ih =>
    obtain ⟨fresh,distinct⟩ := List.nodup_cons.mp distinct
    rcases evict_turn L enough fits k rest s with ⟨enough_,stopped⟩ | ⟨scarce,fault,t,entries,used,stopped⟩ |
        ⟨scarce,t,entries,used,faults,continued⟩
    · rw [stopped] at ended
      obtain ⟨rfl,rfl⟩ := Prod.mk.inj ended
      exact ⟨0,Nat.zero_le _,rfl,(by simp),exact_,fun _ => (room s exact_).mp enough_,(by simp),(by simp)⟩
    · rw [stopped] at ended
      obtain ⟨rfl,rfl⟩ := Prod.mk.inj ended
      refine ⟨0,Nat.zero_le _,entries,(by simp),?_,(by simp),(by simp),fun _ => ⟨by simp,fault⟩⟩
      rw [used,entries,exact_]
    · rw [continued] at ended
      obtain ⟨e,found⟩ := Option.isSome_iff_exists.mp (AList.lookup_isSome.mpr (present k List.mem_cons_self))
      have erased : (t.delete L k).entries = s.entries.erase k := by simp [Store.delete,entries]
      have kept : ∀ j ∈ rest, j ∈ (t.delete L k).entries := by
        intro j member
        have other : j ≠ k := by
          rintro rfl
          exact fresh member
        rw [erased,AList.mem_erase]
        exact ⟨other,present j (List.mem_cons_of_mem _ member)⟩
      have counted : (t.delete L k).used = usage L (t.delete L k).entries :=
        delete_usage (by rw [entries]; exact found) (by rw [used,entries]; exact exact_)
      have final : ∀ u : Store A, u.used = usage L u.entries → u.entries = without rest (t.delete L k).entries →
          (fits u = true ↔ met u.entries) := by
        intro u counts same
        refine last u counts ?_
        rw [same,erased]
        rfl
      obtain ⟨n,removes⟩ := ih ended distinct kept counted final
      refine ⟨n + 1,Nat.succ_le_succ removes.within,?_,?_,removes.used,removes.ok,?_,?_⟩
      · rw [removes.entries,erased]
        rfl
      · -- the key itself was needed, and so was every later one
        intro m below
        cases m with
        | zero =>
          intro enough_
          rw [(room s exact_).mpr enough_] at scarce
          cases scarce
        | succ m =>
          have later := removes.needed m (by omega)
          rw [erased] at later
          exact later
      · intro exceeded
        obtain ⟨all,unmet⟩ := removes.exceeded exceeded
        exact ⟨by rw [all]; rfl,unmet⟩
      · intro failed
        obtain ⟨below,fault⟩ := removes.failed failed
        exact ⟨Nat.succ_lt_succ below,faults true (by simpa [Store.delete] using fault)⟩

/-- `evictLocked`, as all engines call the loop. -/
theorem oldest_minimal {keep : String → Bool} {met : Table String (Entry A) → Prop} {enough fits : Store A → Bool}
    {r : Evicted} (ended : evict L enough fits (s.oldest keep) s = (s',r)) (exact_ : s.used = usage L s.entries)
    (room : ∀ t : Store A, t.used = usage L t.entries → (enough t = true ↔ met t.entries))
    (last : ∀ t : Store A, t.used = usage L t.entries → t.entries = without (s.oldest keep) s.entries →
      (fits t = true ↔ met t.entries)) : Minimal L keep met s s' r := by
  have candidates := oldest_candidates s keep
  obtain ⟨n,removes⟩ := evict_removes ended (oldest_nodup s keep) (fun k member => ((candidates.all k).mp member).1) exact_
    room last
  exact ⟨_,n,candidates,removes⟩

/-! ### The engines -/

theorem mem_without {keys : List String} {entries : Table String (Entry A)} {k : String} :
    k ∈ without keys entries ↔ k ∈ entries ∧ k ∉ keys := by
  induction keys generalizing entries with
  | nil => simp [without]
  | cons first rest ih =>
    change k ∈ without rest (entries.erase first) ↔ _
    rw [ih,AList.mem_erase,List.mem_cons]
    tauto

theorem lookup_without {keys : List String} {entries : Table String (Entry A)} {k : String} (other : k ∉ keys) :
    (without keys entries).lookup k = entries.lookup k := by
  induction keys generalizing entries with
  | nil => rfl
  | cons first rest ih =>
    obtain ⟨different,later⟩ := not_or.mp (mt List.mem_cons.mpr other)
    change (without rest (entries.erase first)).lookup k = _
    rw [ih later,lookup_erase,if_neg different]

/-- What is found is gone or left as it was. -/
theorem Trims.kept {met : Table String (Entry A) → Prop} {found left : Table String (Entry A)} {gone : List String} {k : String}
    (trims : Trims met found left gone) : k ∈ gone ∨ left.lookup k = found.lookup k := by
  by_cases member : k ∈ gone
  · exact .inl member
  · rw [trims.rest]
    exact .inr (lookup_without member)

/-- Whether the incoming bytes fit beside the entries. -/
def Fits (L : Layout A) (maxTotal incoming : Int) (entries : Table String (Entry A)) : Prop :=
  usage L entries + incoming ≤ maxTotal

/-- Whether one more entry, if there is one, keeps their number within the limit. -/
def Few (adding : Bool) (entries : Table String (Entry A)) : Prop :=
  entries.keys.length + (if adding then 1 else 0) ≤ maxEntries

theorem turbo_minimal {c : Turbocache.Server} {s s' : Store Turbocache.Artifact} {incoming : Int} {r : Evicted}
    (exact_ : s.used = usage c.layout s.entries) (ended : c.evictLocked incoming s = (s',r)) :
    Minimal c.layout (fun _ => false) (Fits c.layout c.maxTotal incoming) s s' r := by
  have room : ∀ t : Store Turbocache.Artifact, t.used = usage c.layout t.entries →
      (decide (t.used + incoming ≤ c.maxTotal) = true ↔ Fits c.layout c.maxTotal incoming t.entries) := by
    intro t counts
    rw [decide_eq_true_eq,counts]
    rfl
  exact oldest_minimal ended exact_ room (fun t counts _ => room t counts)

theorem nx_minimal {c : Nxcache.Server} {s s' : Store Nxcache.Artifact} {incoming : Int} {r : Evicted}
    (exact_ : s.used = usage c.layout s.entries) (ended : c.evictLocked incoming s = (s',r)) :
    Minimal c.layout (fun _ => false) (Fits c.layout c.maxTotal incoming) s s' r := by
  have room : ∀ t : Store Nxcache.Artifact, t.used = usage c.layout t.entries →
      (decide (t.used ≤ c.maxTotal - incoming) = true ↔ Fits c.layout c.maxTotal incoming t.entries) := by
    intro t counts
    rw [decide_eq_true_eq,counts]
    unfold Fits
    omega
  exact oldest_minimal ended exact_ room (fun t counts _ => room t counts)

/-- Where every candidate is gone, at most the kept key is left. -/
theorem keys_of_without {entries rest : Table String (Entry A)} {keep : Option String} {keys : List String}
    (candidates : Candidates entries (fun k => decide (some k = keep)) keys) (left : rest = without keys entries) :
    rest.keys.length ≤ 1 := by
  have kept : ∀ k ∈ rest.keys, some k = keep := by
    intro k member
    have both : k ∈ without keys entries := by
      rw [← left]
      exact AList.mem_keys.mp member
    rw [mem_without,candidates.all] at both
    by_contra other
    exact both.2 ⟨both.1,decide_eq_false other⟩
  have distinct := rest.keys_nodup
  match rest.keys,kept,distinct with
  | [],_,_ => exact Nat.zero_le _
  | [_],_,_ => exact Nat.le_refl _
  | i :: j :: _,kept,distinct =>
    have first := kept i (by simp)
    have second := kept j (by simp)
    rw [← second] at first
    cases first
    simp at distinct

theorem go_minimal {c : Gocache.Server} {s s' : Store Gocache.Artifact} {incoming : Int} {keep : Option String} {adding : Bool}
    {r : Evicted} (exact_ : s.used = usage c.layout s.entries) (ended : c.evictLocked incoming keep adding s = (s',r)) :
    Minimal c.layout (fun k => decide (some k = keep))
      (fun entries => Fits c.layout c.maxTotal incoming entries ∧ Few adding entries) s s' r := by
  refine oldest_minimal ended exact_ (fun t counts => ?_) (fun t counts gone => ?_)
  · simp only [Bool.and_eq_true,Bool.or_eq_true,decide_eq_true_eq,Bool.not_eq_true',counts]
    unfold Fits Few maxEntries
    cases adding with
    | true => simp; omega
    | false => simp; omega
  · have few := keys_of_without (oldest_candidates s (fun k => decide (some k = keep))) gone
    rw [decide_eq_true_eq,counts]
    unfold Fits Few maxEntries
    cases adding with
    | true => simp; omega
    | false => simp; omega

theorem gradle_minimal {c : Gradlecache.Server} {s s' : Store Gradlecache.Archive} {kept : Option String} {r : Evicted}
    (exact_ : s.used = usage Gradlecache.Server.layout s.entries) (ended : c.evictLocked kept s = (s',r)) :
    Minimal Gradlecache.Server.layout (fun k => decide (some k = kept)) (Fits Gradlecache.Server.layout c.maxTotal 0) s s' r := by
  have room : ∀ t : Store Gradlecache.Archive, t.used = usage Gradlecache.Server.layout t.entries →
      (decide (t.used ≤ c.maxTotal) = true ↔ Fits Gradlecache.Server.layout c.maxTotal 0 t.entries) := by
    intro t counts
    rw [decide_eq_true_eq,counts]
    unfold Fits
    omega
  unfold Gradlecache.Server.evictLocked at ended
  simp only at ended
  split at ended
  · rename_i fits
    obtain ⟨rfl,rfl⟩ := Prod.mk.inj ended
    exact ⟨_,0,oldest_candidates s _,Nat.zero_le _,rfl,(by simp),exact_,fun _ => (room s exact_).mp fits,(by simp),(by simp)⟩
  · exact oldest_minimal ended exact_ room (fun t counts _ => room t counts)

/-- Every engine evicts the shortest prefix of its candidates that makes room, and a
    prefix of them where a removal fails; the usage stays exact. -/
theorem eviction_minimal :
    (∀ (c : Turbocache.Server) (incoming : Int) (s s' : Store Turbocache.Artifact) (r : Evicted),
      s.used = usage c.layout s.entries → c.evictLocked incoming s = (s',r) →
      Minimal c.layout (fun _ => false) (Fits c.layout c.maxTotal incoming) s s' r) ∧
    (∀ (c : Nxcache.Server) (incoming : Int) (s s' : Store Nxcache.Artifact) (r : Evicted),
      s.used = usage c.layout s.entries → c.evictLocked incoming s = (s',r) →
      Minimal c.layout (fun _ => false) (Fits c.layout c.maxTotal incoming) s s' r) ∧
    (∀ (c : Gocache.Server) (incoming : Int) (keep : Option String) (adding : Bool) (s s' : Store Gocache.Artifact)
      (r : Evicted), s.used = usage c.layout s.entries → c.evictLocked incoming keep adding s = (s',r) →
      Minimal c.layout (fun k => decide (some k = keep))
        (fun entries => Fits c.layout c.maxTotal incoming entries ∧ Few adding entries) s s' r) ∧
    (∀ (c : Gradlecache.Server) (kept : Option String) (s s' : Store Gradlecache.Archive) (r : Evicted),
      s.used = usage Gradlecache.Server.layout s.entries → c.evictLocked kept s = (s',r) →
      Minimal Gradlecache.Server.layout (fun k => decide (some k = kept)) (Fits Gradlecache.Server.layout c.maxTotal 0)
        s s' r) :=
  ⟨fun _ _ _ _ _ => turbo_minimal,fun _ _ _ _ _ => nx_minimal,fun _ _ _ _ _ _ _ => go_minimal,
    fun _ _ _ _ _ => gradle_minimal⟩

/-- A Gradle cache of two archives that is too full by one of them. -/
def crowded : Store Gradlecache.Archive :=
  { entries := ((∅ : Table String (Entry Gradlecache.Archive)).insert "a" ⟨⟨6⟩,2⟩).insert "b" ⟨⟨6⟩,1⟩
    used := 12, disk := ⟨⟨∅,fun _ => none,∅,[]⟩,[]⟩, next := 0, faults := [], log := [] }

theorem eviction_minimal_crowded : crowded.used = usage Gradlecache.Server.layout crowded.entries ∧
    8 < usage Gradlecache.Server.layout crowded.entries ∧
    ∃ s' r, (⟨8,8⟩ : Gradlecache.Server).evictLocked none crowded = (s',r) ∧
      Minimal Gradlecache.Server.layout (fun k => decide (some k = none)) (Fits Gradlecache.Server.layout 8 0) crowded s' r :=
  ⟨by decide,by decide,_,_,rfl,eviction_minimal.2.2.2 ⟨8,8⟩ none crowded _ _ (by decide) rfl⟩

end Expbuild.Evictions
