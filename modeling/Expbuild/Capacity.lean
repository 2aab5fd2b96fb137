import Expbuild.Laws

/-!
The budget of the four servers over whole runs: whatever requests arrive and
whichever calls to the file system fail, the index, the counter and the directory
agree, and there is room for every body that a handler lets through.
-/
namespace Expbuild.Capacity
open Expbuild.Tables Expbuild.Disks Expbuild.Engines Expbuild.Stores Expbuild.Handlers Expbuild.Accounting Expbuild.Runs
  Expbuild.Booting Expbuild.Sections Expbuild.Laws

section
variable {A : Type} {E : Engine A}

/-- The `Remove` that takes back a name after a failed publication succeeds. -/
def Restores (l : Label) : Prop := ∀ t faults, l ≠ .publish t faults true

/-- The states that the server reaches from a store that `New` returned. -/
abbrev Served (E : Engine A) (store : Store A) (s : System A) : Prop :=
  Reaches (step E) (fun _ l => Restores l) (.boot store) s

/-- The index, the counter and the directory agree. -/
structure Accounted (E : Engine A) (Published : FileName → File (Contents A) → Prop) (s : System A) : Prop where
  used : s.store.used = sumOf (fun _ e => E.layout.size e.artifact + E.layout.header) s.store.entries
  within : s.store.used ≤ E.maxTotal
  /-- An entry has its file, unless others removed it. -/
  filed : ∀ k e, s.store.entries.lookup k = some e → k ∈ s.vanished ∨
    ∃ i f, s.store.volume.names.lookup (E.layout.filename k) = some i ∧ s.store.volume.files i = some f ∧
      (f.contents.size E.layout.header : Int) = E.layout.size e.artifact + E.layout.header
  /-- A published file has its entry. -/
  entered : ∀ n i f, s.store.volume.names.lookup n = some i → s.store.volume.files i = some f → Published n f →
    ∃ k e, s.store.entries.lookup k = some e ∧ E.layout.filename k = n
  apart : ∀ k j e e', s.store.entries.lookup k = some e → s.store.entries.lookup j = some e' →
    E.layout.filename k = E.layout.filename j → k = j
  vanished : ∀ k ∈ s.vanished, s.store.volume.names.lookup (E.layout.filename k) = none
  owned : E.shared = false → s.vanished = []

variable {law : Lawful E} {store : Store A} {s s' : System A}

section
variable (law)

/-- The invariant of a server whose rollbacks work. -/
structure Sane (s : System A) : Prop where
  tidy : Tidy law s
  balanced : Balanced law s
  indexed : Indexed law s.store.entries s.store.volume

end

theorem Sane.step {l : Label} (sane : Sane law s) (restores : Restores l) (moved : step E l s = some s') : Sane law s' := by
  have stepped := step_stepped moved
  exact ⟨sane.tidy.step stepped,sane.balanced.step sane.tidy stepped,sane.indexed.step sane.tidy restores stepped⟩

theorem sane_served (booted : Booted law store) (served : Served E store s) : Sane law s :=
  served.invariant (I := Sane law) ⟨booted.tidy,booted.balanced,booted.indexed⟩
    (fun sane restores moved => sane.step restores moved)

theorem Sane.accounted (sane : Sane law s) : Accounted E law.Tracked s where
  used := sane.balanced.kept.counted
  within := sane.balanced.within
  filed := by
    intro k e found
    rcases sane.balanced.kept.filed found with away | ⟨i,f,bound,file,good⟩
    · exact .inl away
    · exact .inr ⟨i,f,bound,file,(law.charge good).symm⟩
  entered := sane.indexed
  apart := fun _ _ _ _ => sane.balanced.kept.apart
  vanished := sane.balanced.kept.gone
  owned := sane.balanced.kept.alone

/-! ### The number of entries -/

theorem keys_erase (t : Table String (Entry A)) (k : String) : (t.erase k).keys.length ≤ t.keys.length := by
  have erased : (t.erase k).keys = t.keys.erase k := List.keys_kerase
  rw [erased]
  exact List.length_erase_le

/-- A known key keeps its place, a new one takes one more. -/
theorem keys_insert (t : Table String (Entry A)) (k : String) (e : Entry A) :
    (t.insert k e).keys.length = if (t.lookup k).isSome then t.keys.length else t.keys.length + 1 := by
  have inserted : (t.insert k e).keys = k :: t.keys.erase k := AList.keys_insert _
  rw [inserted,List.length_cons]
  split
  · rename_i there
    have member : k ∈ t.keys := AList.lookup_isSome.mp there
    have positive : 0 < t.keys.length := List.length_pos_of_mem member
    rw [List.length_erase_of_mem member]
    omega
  · rename_i absent
    have missing : k ∉ t.keys := fun member => absent (AList.lookup_isSome.mpr member)
    rw [List.erase_of_not_mem missing]

theorem keys_evicts {L : Layout A} {keep : String → Bool} {s t : Store A} (evicts : Evicts L keep s t) :
    t.entries.keys.length ≤ s.entries.keys.length := by
  refine evicts.invariant (I := fun t => t.entries.keys.length ≤ s.entries.keys.length) (le_refl _) ?_
  intro t k e below _ _
  rw [dropKey_entries]
  exact (keys_erase t.entries k).trans below

/-- An engine that replaces entries adds one only where there is room. -/
theorem keys_publishing {L : Layout A} {maxTotal : Int} {p : Staged A} {rollbackFails : Bool} {s s' : Store A} {status : Nat}
    (few : s.entries.keys.length ≤ maxEntries) (published : Publishing L maxTotal true p rollbackFails s s' status) :
    s'.entries.keys.length ≤ maxEntries := by
  cases published with
  | refused evicts => exact (keys_evicts evicts).trans few
  | @replaced synced t i faults old _ _ evicts _ _ crowd =>
    have entries : ∀ {u : Store A}, u.entries = t.entries.insert p.key ⟨p.artifact,p.accessed⟩ →
        u.entries.keys.length ≤ maxEntries := by
      intro u same
      rw [same,keys_insert]
      split
      · exact (keys_evicts evicts).trans few
      · rename_i absent
        have before : s.entries.lookup p.key = none := by
          rw [← evicts.kept (k := p.key) (by simp)]
          simpa using absent
        exact crowd before
    cases synced
    · exact entries rfl
    · exact entries rfl
  | created never => cases never
  | withdrawn never => cases never
  | orphaned never => cases never
  | added never => cases never
  | undone never => cases never
  | stranded never => cases never

theorem keys_fetching {L : Layout A} {Reads : A → File (Contents A) → Prop} {key : String} {s s' : Store A}
    {answer : Answer A} (few : s.entries.keys.length ≤ maxEntries) (ran : Fetching L Reads key s s' answer) :
    s'.entries.keys.length ≤ maxEntries := by
  cases ran with
  | refused => exact few
  | opened touched found _ _ _ =>
    have same : ∀ e : Entry A, (s.entries.insert key e).keys.length = s.entries.keys.length := by
      intro e
      rw [keys_insert,if_pos (by rw [found]; rfl)]
    exact (le_of_eq (same _)).trans few
  | missed _ _ => exact (keys_erase s.entries key).trans few

theorem keys_step (law : Lawful E) {l : Label} (replaces : law.replaces = true) (few : s.store.entries.keys.length ≤ maxEntries)
    (moved : step E l s = some s') : s'.store.entries.keys.length ≤ maxEntries := by
  cases step_stepped moved with
  | @published t p i faults rollbackFails store status _ _ _ ran =>
    have publishing := law.publish ran
    rw [replaces] at publishing
    exact keys_publishing (s := s.enter faults) few publishing
  | @fetched t key now status faults store _ _ ran => exact keys_fetching (s := s.enter faults) few (law.get ran)
  | @opened t key now faults store i a contents _ _ ran =>
    have bounded := keys_fetching (s := s.enter faults) few (law.get ran)
    exact bounded
  | _ => exact few

/-! ### Room for what is let through -/

/-- The counter is the sum of what the entries charge. -/
def Counted (L : Layout A) (s : Store A) : Prop := s.used = sumOf (fun _ e => L.charge e.artifact) s.entries

theorem Counted.evicts {L : Layout A} {keep : String → Bool} {s t : Store A} (counted : Counted L s)
    (evicts : Evicts L keep s t) : Counted L t := by
  refine evicts.invariant (I := Counted L) counted ?_
  intro t k e held found _
  have total := sumOf_erase (fun _ (e : Entry A) => L.charge e.artifact) found
  have before : t.used = sumOf (fun _ e => L.charge e.artifact) t.entries := held
  simp only [Counted,dropKey_entries,dropKey_used found]
  omega

/-- What is used where at most one entry is left. -/
theorem Counted.single {L : Layout A} {s : Store A} {key : String} (counted : Counted L s)
    (alone : ∀ k, k ≠ key → s.entries.lookup k = none) :
    s.used = ((s.entries.lookup key).map (fun e => L.charge e.artifact)).getD 0 := by
  have nothing : ∀ k, (s.entries.erase key).lookup k = none := by
    intro k
    rw [lookup_erase]
    split
    · rfl
    · exact alone k (by assumption)
  have empty : (s.entries.erase key).entries = [] := List.map_eq_nil_iff.mp (empty_of_lookup nothing)
  have zero : sumOf (fun _ (e : Entry A) => L.charge e.artifact) (s.entries.erase key) = 0 := by
    simp [sumOf,empty]
  have before : s.used = sumOf (fun _ e => L.charge e.artifact) s.entries := counted
  cases found : s.entries.lookup key with
  | none =>
    have total := sumOf_erase_none (fun _ (e : Entry A) => L.charge e.artifact) found
    simp only [Option.map_none,Option.getD_none]
    omega
  | some e =>
    have total := sumOf_erase (fun _ (e : Entry A) => L.charge e.artifact) found
    simp only [Option.map_some,Option.getD_some]
    omega

/-- There is room for every body that `put` lets through, whatever calls fail
    meanwhile: the eviction of its publication never runs out of entries. -/
def Roomy (E : Engine A) (eviction : Staged A → Store A → Store A × Evicted) (s : System A) : Prop :=
  ∀ r now a body a' tmp accessed faults, E.validKey r.key = true → E.start r now = .ok a → E.finish r a body = .ok a' →
    (eviction ⟨r.key,a',tmp,.envelope (E.header a') body,accessed⟩ (s.enter faults)).2 ≠ .exceeded

theorem Sane.counted (sane : Sane law s) (faults : List Bool) : Counted E.layout (s.enter faults) :=
  sane.balanced.kept.counted

end

/-! ### The engines -/

section turbocache
variable {c : Turbocache.Server} {s : System Turbocache.Artifact}

theorem turbo_roomy (sane : Sane (turboLaw c) s) (limits : c.maxEntry + Turbocache.headerSize ≤ c.maxTotal) :
    Roomy c.engine (fun p => c.evictLocked (p.artifact.size + Turbocache.headerSize)) s := by
  intro r now a body a' tmp accessed faults valid started finished exceeded
  have small : a'.size ≤ c.maxEntry := ((turboLaw c).finish valid started finished).2
  obtain ⟨⟨t,later,evicts,same⟩,_,beyond⟩ := turbo_evictLocked (s := s.enter faults) rfl
  obtain ⟨large,nothing⟩ := beyond exceeded
  rw [same] at large nothing
  have used := ((sane.counted faults).evicts evicts).single (fun k (_ : k ≠ "") => nothing k)
  rw [nothing ""] at used
  simp only [Option.map_none,Option.getD_none] at used large
  omega

/-- The accounts of Turborepo are right after every step, and it has room. -/
theorem turbo_accounted {m : Mounted Turbocache.Artifact} {faults : List Bool} {store : Store Turbocache.Artifact}
    (made : c.new m.volume m.next faults = some store) (served : Served c.engine store s) :
    Accounted c.engine entryName s ∧ Roomy c.engine (fun p => c.evictLocked (p.artifact.size + Turbocache.headerSize)) s := by
  obtain ⟨limits,booted⟩ := turbo_new made
  have sane := sane_served booted served
  exact ⟨sane.accounted,turbo_roomy sane limits.2⟩

end turbocache

section nxcache
variable {c : Nxcache.Server} {s : System Nxcache.Artifact}

theorem nx_roomy (sane : Sane (nxLaw c) s) (limits : c.maxEntry + Nxcache.headerSize ≤ c.maxTotal) :
    Roomy c.engine (fun p => c.evictLocked (p.artifact.size + Nxcache.headerSize)) s := by
  intro r now a body a' tmp accessed faults valid started finished exceeded
  have small : a'.size ≤ c.maxEntry := ((nxLaw c).finish valid started finished).2
  obtain ⟨⟨t,later,evicts,same⟩,_,beyond⟩ := nx_evictLocked (s := s.enter faults) rfl
  obtain ⟨large,nothing⟩ := beyond exceeded
  rw [same] at large nothing
  have used := ((sane.counted faults).evicts evicts).single (fun k (_ : k ≠ "") => nothing k)
  rw [nothing ""] at used
  simp only [Option.map_none,Option.getD_none] at used large
  omega

theorem nx_accounted {m : Mounted Nxcache.Artifact} {faults : List Bool} {store : Store Nxcache.Artifact}
    (made : c.new m.volume m.next faults = some store) (served : Served c.engine store s) :
    Accounted c.engine entryName s ∧ Roomy c.engine (fun p => c.evictLocked (p.artifact.size + Nxcache.headerSize)) s := by
  obtain ⟨limits,booted⟩ := nx_new made
  have sane := sane_served booted served
  exact ⟨sane.accounted,nx_roomy sane limits.2⟩

end nxcache

section gocache
variable {c : Gocache.Server} {s : System Gocache.Artifact} {free : CollisionFree c}

theorem go_roomy (sane : Sane (goLaw c free) s) (limits : c.maxEntry + Gocache.headerSize ≤ c.maxTotal) :
    Roomy c.engine (fun p s => c.evictLocked (c.incoming p.key p.artifact s) (some p.key) (s.entries.lookup p.key).isNone s) s := by
  intro r now a body a' tmp accessed faults valid started finished exceeded
  obtain ⟨good,small⟩ := (goLaw c free).finish valid started finished
  have small : a'.size ≤ c.maxEntry := small
  obtain ⟨⟨t,later,evicts,same⟩,_,beyond⟩ := go_evictLocked (s := s.enter faults) rfl
  obtain ⟨large,nothing⟩ := beyond exceeded
  rw [same] at large nothing
  have used := ((sane.counted faults).evicts evicts).single (fun k (other : k ≠ r.key) => nothing k (by simpa using other))
  -- the entry of the key itself is the one that is left, and it fitted before
  have left : t.entries.lookup r.key = s.store.entries.lookup r.key := evicts.kept (by simp)
  have fitted := (used_le (s := s.enter faults) sane.balanced.kept evicts).trans sane.balanced.within
  have replaced : c.replaced r.key (s.enter faults) = t.used := by rw [used,left]; rfl
  have charge : c.layout.charge a' = a'.size + Gocache.headerSize := rfl
  have total : c.engine.maxTotal = c.maxTotal := rfl
  simp only [Gocache.Server.incoming,replaced] at large
  split at large <;> omega

theorem go_few {m : Mounted Gocache.Artifact} {faults : List Bool} {store : Store Gocache.Artifact}
    (made : c.new m.volume m.next faults = some store) : store.entries.keys.length ≤ maxEntries := by
  unfold Gocache.Server.new at made
  split at made
  · cases made
  · split at made
    · cases made
    · split at made
      · rename_i read _ out ran
        cases made
        obtain ⟨_,room,_⟩ := go_evictLocked ran
        rcases (room rfl).2 with (below | ⟨_,few⟩) | gone
        · exact le_of_lt below
        · exact few
        · rw [empty_of_lookup (fun k => gone k (by simp))]
          exact Nat.zero_le _
      · cases made

theorem go_accounted {m : Mounted Gocache.Artifact} {faults : List Bool} {store : Store Gocache.Artifact}
    (free : CollisionFree c) (made : c.new m.volume m.next faults = some store) (served : Served c.engine store s) :
    Accounted c.engine entryName s ∧ s.store.entries.keys.length ≤ 10000 ∧
      Roomy c.engine (fun p s => c.evictLocked (c.incoming p.key p.artifact s) (some p.key) (s.entries.lookup p.key).isNone s) s := by
  obtain ⟨limits,booted⟩ := go_new free made
  have sane := sane_served booted served
  have few : s.store.entries.keys.length ≤ maxEntries :=
    served.invariant (I := fun s => s.store.entries.keys.length ≤ maxEntries) (go_few made)
      (fun few _ moved => keys_step (goLaw c free) rfl few moved)
  exact ⟨sane.accounted,few,go_roomy sane limits.2⟩

end gocache

section gradlecache
variable {c : Gradlecache.Server} {s : System Gradlecache.Archive}

/-- The eviction of Gradle, which comes after the link. -/
def gradleEviction (c : Gradlecache.Server) (p : Staged Gradlecache.Archive) (s : Store Gradlecache.Archive) :
    Store Gradlecache.Archive × Evicted :=
  match s.entries.lookup p.key,s.link p.tmp (Gradlecache.Server.layout.filename p.key) with
  | none,(s,.ok) => c.evictLocked (some p.key) (s.record Gradlecache.Server.layout p.key ⟨p.artifact,p.accessed⟩ p.contents)
  | _,(s,_) => (s,.ok)

theorem gradle_roomy (sane : Sane (gradleLaw c) s) (limits : c.maxEntry ≤ c.maxTotal) :
    Roomy c.engine (gradleEviction c) s := by
  intro r now a body a' tmp accessed faults valid started finished exceeded
  have small : a'.size ≤ c.maxEntry := ((gradleLaw c).finish valid started finished).2
  unfold gradleEviction at exceeded
  split at exceeded
  · rename_i out absent linked
    have absent : s.store.entries.lookup r.key = none := absent
    have counted : Counted Gradlecache.Server.layout (out.record Gradlecache.Server.layout r.key ⟨a',accessed⟩
        (.envelope (c.engine.header a') body)) := by
      obtain ⟨later,⟨failed,unlinked⟩ | ⟨i,_,_,worked⟩⟩ :=
        link_cases tmp (Gradlecache.Server.layout.filename r.key) (s.enter faults)
      · rw [linked] at unlinked
        exact absurd rfl unlinked
      · rw [linked] at worked
        obtain ⟨rfl,_⟩ := Prod.mk.inj worked
        have inserted := sumOf_insert (fun _ (e : Entry Gradlecache.Archive) => Gradlecache.Server.layout.charge e.artifact) r.key
          ⟨a',accessed⟩ s.store.entries
        rw [sumOf_erase_none _ absent] at inserted
        have before : s.store.used = sumOf (fun _ e => Gradlecache.Server.layout.charge e.artifact) s.store.entries :=
          sane.balanced.kept.counted
        change s.store.used + _ = sumOf _ (s.store.entries.insert r.key ⟨a',accessed⟩)
        rw [inserted,before,add_comm]
    obtain ⟨⟨t,later,evicts,same⟩,_,beyond⟩ := gradle_evictLocked (Prod.mk.eta (p := c.evictLocked (some r.key)
      (out.record Gradlecache.Server.layout r.key ⟨a',accessed⟩ (.envelope (c.engine.header a') body)))).symm
    obtain ⟨large,nothing⟩ := beyond exceeded
    rw [same] at large nothing
    have used := (counted.evicts evicts).single (fun k (other : k ≠ r.key) => nothing k (by simpa using other))
    rw [evicts.kept (k := r.key) (by simp)] at used
    simp [Store.record,Layout.charge,Gradlecache.Server.layout] at used
    simp only at large
    omega
  · cases exceeded

theorem gradle_accounted {m : Mounted Gradlecache.Archive} {faults : List Bool} {store : Store Gradlecache.Archive}
    (made : c.new m.volume m.next faults = some store) (served : Served c.engine store s) :
    Accounted c.engine gradleTracked s ∧ Roomy c.engine (gradleEviction c) s := by
  obtain ⟨limits,booted⟩ := gradle_new made
  have sane := sane_served booted served
  exact ⟨sane.accounted,gradle_roomy sane limits.2⟩

end gradlecache

/-- The accounts of the four servers are right after every step of every run that
    starts with a directory `New` accepts, whichever calls fail but the one that
    takes a publication back. -/
theorem caches_accounted :
    (∀ (c : Turbocache.Server) (m : Mounted Turbocache.Artifact) faults store s,
      c.new m.volume m.next faults = some store → Served c.engine store s →
      Accounted c.engine entryName s ∧ Roomy c.engine (fun p => c.evictLocked (p.artifact.size + Turbocache.headerSize)) s) ∧
    (∀ (c : Nxcache.Server) (m : Mounted Nxcache.Artifact) faults store s,
      c.new m.volume m.next faults = some store → Served c.engine store s →
      Accounted c.engine entryName s ∧ Roomy c.engine (fun p => c.evictLocked (p.artifact.size + Nxcache.headerSize)) s) ∧
    (∀ (c : Gocache.Server) (m : Mounted Gocache.Artifact) faults store s, CollisionFree c →
      c.new m.volume m.next faults = some store → Served c.engine store s →
      Accounted c.engine entryName s ∧ s.store.entries.keys.length ≤ 10000 ∧
        Roomy c.engine
          (fun p s => c.evictLocked (c.incoming p.key p.artifact s) (some p.key) (s.entries.lookup p.key).isNone s) s) ∧
    (∀ (c : Gradlecache.Server) (m : Mounted Gradlecache.Archive) faults store s,
      c.new m.volume m.next faults = some store → Served c.engine store s →
      Accounted c.engine gradleTracked s ∧ Roomy c.engine (gradleEviction c) s) :=
  ⟨fun _ _ _ _ _ made served => turbo_accounted made served,fun _ _ _ _ _ made served => nx_accounted made served,
    fun _ _ _ _ _ free made served => go_accounted free made served,
    fun _ _ _ _ _ made served => gradle_accounted made served⟩

/-! ### Servers on an empty directory -/

def blank {A : Type} : Mounted A where
  volume := ⟨∅,fun _ => none,∅,[]⟩
  next := 0
  allocated := by
    rintro n i (bound | bound | ⟨_,member,_⟩)
    · cases bound
    · cases bound
    · cases member

/-- The digests of the keys and the body below. -/
def digest (bytes : List UInt8) : String :=
  if bytes = "key".toUTF8.toList then "2c70e12b7a0646f92279f427c7b38e7334d8e5389cff167a1dc30e73f826b683"
  else if bytes = (String.ofList (List.replicate 64 '0')).toUTF8.toList then
    "60e05bd1b195af2f94112fa7197a5c88289058840ce7c6df9693756bc6250f55"
  else if bytes = [1,2,3] then "039058c6f2c0cb492c533b0a4d14ef77cc0f78abccced5287d84a1a2011cfb81"
  else String.ofList ('x' :: bytes.map (fun b => Char.ofNat b.toNat))

def turboServer : Turbocache.Server := ⟨digest,10,10000⟩

def goServer : Gocache.Server := ⟨digest,fun _ => "5289df737df57326fcdd22597afb1fac",10,10000,false⟩

/-- What a digest was made of. -/
def source (digest : String) : List UInt8 :=
  if digest = "2c70e12b7a0646f92279f427c7b38e7334d8e5389cff167a1dc30e73f826b683" then "key".toUTF8.toList
  else if digest = "60e05bd1b195af2f94112fa7197a5c88289058840ce7c6df9693756bc6250f55" then
    (String.ofList (List.replicate 64 '0')).toUTF8.toList
  else if digest = "039058c6f2c0cb492c533b0a4d14ef77cc0f78abccced5287d84a1a2011cfb81" then [1,2,3]
  else digest.toList.tail.map (fun c => UInt8.ofNat c.toNat)

theorem source_digest (bytes : List UInt8) : source (digest bytes) = bytes := by
  have byte : ∀ b : UInt8, UInt8.ofNat (Char.ofNat b.toNat).toNat = b := by
    intro b
    have ascii : ∀ n < 256, (Char.ofNat n).toNat = n := by decide +kernel
    rw [ascii b.toNat b.toNat_lt,UInt8.ofNat_toNat]
  have plain : ∀ (xs : List UInt8) (head : String), head.toList.head? ≠ some 'x' →
      String.ofList ('x' :: xs.map (fun b => Char.ofNat b.toNat)) ≠ head := by
    rintro xs _ other rfl
    exact other (by simp)
  unfold digest
  split
  · rename_i same; rw [same]; decide +kernel
  · split
    · rename_i same; rw [same]; decide +kernel
    · split
      · rename_i same; rw [same]; decide +kernel
      · unfold source
        rw [if_neg (plain _ _ (by decide +kernel)),if_neg (plain _ _ (by decide +kernel)),
          if_neg (plain _ _ (by decide +kernel))]
        have decoded : (fun c => UInt8.ofNat c.toNat) ∘ (fun b : UInt8 => Char.ofNat b.toNat) = id := funext byte
        simp [decoded]

theorem toList_loop (bytes : ByteArray) (i : Nat) (read : List UInt8) :
    ByteArray.toList.loop bytes i read = read.reverse ++ bytes.data.toList.drop i := by
  fun_induction ByteArray.toList.loop bytes i read with
  | case1 i read more ih =>
    have there : i < bytes.data.toList.length := more
    have byte : bytes.get! i = bytes.data.toList.get ⟨i,there⟩ := getElem!_pos bytes.data i more
    rw [ih,List.drop_eq_getElem_cons there,byte]
    simp
  | case2 i read done =>
    have past : bytes.data.toList.length ≤ i := not_lt.mp done
    rw [List.drop_eq_nil_of_le past,List.append_nil]

theorem goServer_free : CollisionFree goServer := by
  intro k j _ _ same
  have bytes : k.toUTF8.toList = j.toUTF8.toList := by
    rw [← source_digest k.toUTF8.toList,← source_digest j.toUTF8.toList]
    exact congrArg source same
  have data : k.toByteArray.data.toList = j.toByteArray.data.toList := by
    simpa [ByteArray.toList,toList_loop] using bytes
  exact String.toByteArray_inj.mp (ByteArray.ext (Array.ext' data))

/-- A PUT of three bytes from its arrival to its end. -/
def upload (r : Put) : List Label :=
  [.put r,.start 0 1,.acquire 0,.create 0 "1" 2 [],.receive 0 [1,2,3] 3 false,.finish 0 4 [],.publish 0 [] false,
    .leave 0 false,.release 0]

def turboPut : Put := ⟨"key",3,fun name => if name = "x-artifact-duration" then ["7"] else []⟩

def goPut : Put where
  key := String.ofList (List.replicate 64 '0')
  contentLength := 3
  header := fun name =>
    if name = "X-Cacheprog-OutputID" then [String.ofList (List.replicate 64 'a')]
    else if name = "X-Cacheprog-MD5Sum" then ["5289df737df57326fcdd22597afb1fac"]
    else if name = "X-Cacheprog-Sha256Sum" then ["039058c6f2c0cb492c533b0a4d14ef77cc0f78abccced5287d84a1a2011cfb81"]
    else if name = "X-Cacheprog-CompressionAlgorithm" then [""]
    else if name = "X-Cacheprog-UncompressedSize" then ["3"]
    else []

/-- Whether the rollback of a step works. -/
def restoring : Label → Bool
  | .publish _ _ true => false
  | _ => true

theorem restores_of_restoring {l : Label} (check : restoring l = true) : Restores l := by
  rintro t faults rfl
  cases check

/-- The run of a server from the store that `New` returned. -/
def serve {A : Type} (E : Engine A) (made : Option (Store A)) (labels : List Label) : Option (System A) :=
  made.bind (fun store => run (step E) (fun _ l => restoring l) labels (.boot store))

theorem served_of_serve {A : Type} (E : Engine A) (made : Option (Store A)) (labels : List Label) (final : System A → Bool)
    (executed : (serve E made labels).any final = true) :
    ∃ store s, made = some store ∧ Served E store s ∧ final s = true := by
  obtain ⟨s,ran,holds⟩ := (Option.any_eq_true _ _).mp executed
  obtain ⟨store,built,ran⟩ := Option.bind_eq_some_iff.mp ran
  have ends : (run (step E) (fun _ l => restoring l) labels (.boot store)).any final = true := by rw [ran]; exact holds
  obtain ⟨t,reached,holds⟩ := reaches_of_run (fun _ _ check => restores_of_restoring check) ends
  exact ⟨store,t,built,reached,holds⟩

def nxServer : Nxcache.Server := ⟨digest,10,10000⟩

def gradleServer : Gradlecache.Server := ⟨10,10000⟩
/-- Its uploads do not wait for each other. -/
def gradleUpload : List Label := (upload ⟨String.ofList (List.replicate 32 '0'),3,fun _ => []⟩).eraseIdx 2

theorem caches_accounted_upload :
    (∃ store s, turboServer.new blank.volume 0 [] = some store ∧ s.store.used = 4099 ∧
      Accounted turboServer.engine entryName s) ∧
    (∃ store s, nxServer.new blank.volume 0 [] = some store ∧ s.store.used = 4099 ∧ Accounted nxServer.engine entryName s) ∧
    (∃ store s, goServer.new blank.volume 0 [] = some store ∧ s.store.used = 4099 ∧ Accounted goServer.engine entryName s) ∧
    (∃ store s, gradleServer.new blank.volume 0 [] = some store ∧ s.store.used = 3 ∧
      Accounted gradleServer.engine gradleTracked s) := by
  obtain ⟨turbo,nx,go,gradle⟩ := caches_accounted
  refine ⟨?_,?_,?_,?_⟩
  · obtain ⟨store,s,made,served,used⟩ := served_of_serve turboServer.engine (turboServer.new blank.volume 0 [])
      (upload turboPut) (fun s => decide (s.store.used = 4099)) (by decide +kernel)
    exact ⟨store,s,made,of_decide_eq_true used,(turbo turboServer blank [] store s made served).1⟩
  · obtain ⟨store,s,made,served,used⟩ := served_of_serve nxServer.engine (nxServer.new blank.volume 0 [])
      (upload ⟨"key",3,fun _ => []⟩) (fun s => decide (s.store.used = 4099)) (by decide +kernel)
    exact ⟨store,s,made,of_decide_eq_true used,(nx nxServer blank [] store s made served).1⟩
  · obtain ⟨store,s,made,served,used⟩ := served_of_serve goServer.engine (goServer.new blank.volume 0 [])
      (upload goPut) (fun s => decide (s.store.used = 4099)) (by decide +kernel)
    exact ⟨store,s,made,of_decide_eq_true used,(go goServer blank [] store s goServer_free made served).1⟩
  · obtain ⟨store,s,made,served,used⟩ := served_of_serve gradleServer.engine (gradleServer.new blank.volume 0 []) gradleUpload
      (fun s => decide (s.store.used = 3)) (by decide +kernel)
    exact ⟨store,s,made,of_decide_eq_true used,(gradle gradleServer blank [] store s made served).1⟩

end Expbuild.Capacity
