import Expbuild.Headroom
import Expbuild.Lives

/-!
A restart under a changed budget. `New` refuses a directory with an entry beyond
its entry limit, so a server starts again with other limits where the entry limit
has not become smaller; the renderers may make it smaller though the volume and
the budget grow.
-/
namespace Expbuild.Restarts
open Expbuild.Disks Expbuild.Engines Expbuild.Handlers Expbuild.Histories Expbuild.Laws Expbuild.Capacity Expbuild.Atomicity
  Expbuild.Crashes Expbuild.Recovery Expbuild.Lives Expbuild.Renderers Expbuild.Headroom

section
variable {A : Type} {E E' : Engine A} {law : Lawful E} {law' : Lawful E'} {puts : List (Upload A)}

/-- What one server stores another can recover that takes the same envelopes. -/
theorem recoverable_other {v : Volume FileName (Contents A)} (layout : E'.layout.filename = E.layout.filename)
    (keys : E'.validKey = E.validKey) (takes : ∀ {k a contents}, law.Good k a contents → law'.Good k a contents)
    (recoverable : Recoverable law puts v) : Recoverable law' puts v := by
  intro n i bound
  rcases recoverable n i bound with upload | ⟨k,a,f,named,valid,envelope⟩
  · exact .inl upload
  · refine .inr ⟨k,a,f,by rw [layout]; exact named,by rw [keys]; exact valid,?_⟩
    exact ⟨envelope.file,envelope.regular,envelope.synced,takes envelope.good,envelope.known⟩

/-- The second server starts on every directory of the first, as it is at any
    moment and as a crash then may leave it. -/
def StartsAgain (E : Engine A) (new new' : Volume FileName (Contents A) → Inode → List Bool → Option (Store A)) : Prop :=
  ∀ begun s puts v (m : Mounted A), Lived E new begun s puts → v ∈ s.store.volume :: s.store.disk.past →
    m.volume = v ∨ v.Survivor m.volume → ∃ store, new' m.volume m.next [] = some store

theorem restarts_of_takes {new new' : Volume FileName (Contents A) → Inode → List Bool → Option (Store A)}
    (opener : Opener law new) (opener' : Opener law' new') (limits : opener'.limits)
    (layout : E'.layout.filename = E.layout.filename) (keys : E'.validKey = E.validKey)
    (takes : ∀ {k a contents}, law.Good k a contents → law'.Good k a contents) : StartsAgain E new new' := by
  intro begun s puts v m lived moment left
  have recoverable := always_at (alive_lived opener lived).always moment
  have here : Recoverable law puts m.volume := by
    rcases left with same | survives
    · rw [same]
      exact recoverable
    · exact recoverable.survives survives
  exact opener'.recovers limits (recoverable_other layout keys takes here)

end

/-- The largest entry that a configuration leaves room for: of the budget, of what
    the budget leaves of the volume, and of 256 MiB. -/
def entryLimit (k : Library) (c : Config) : Int :=
  min (min (c.maxCacheGiB * 2 ^ 30 - 4096) (256 * 2 ^ 20))
    ((k.asInt64 c.capacity).getD 0 - c.maxCacheGiB * 2 ^ 30 - 4096)

theorem renderCache_entryLimit {k : Library} {c : Config} {out : Rendered} {engine : String} {before after : Config → List String}
    (values : k.Exact) (rendered : renderCache engine before after k c = .ok out) : out.maxEntry = entryLimit k c := by
  obtain ⟨_,valid,rendered⟩ := bind_ok rendered
  obtain ⟨_,bounded,rendered⟩ := bind_ok rendered
  have positive := validate_positive valid
  have bounded : c.maxCacheGiB ≤ (2 ^ 63 - 1) / 2 ^ 30 := of_decide_eq_true (require_ok bounded)
  obtain ⟨capacity,parsed,some_⟩ := validate_capacity valid
  split at rendered
  · cases rendered
  · rename_i volumeBytes whole
    obtain ⟨_,room,rendered⟩ := bind_ok rendered
    cases rendered
    obtain ⟨value,low,high⟩ := values whole
    rw [value] at parsed
    cases parsed
    have volume : 0 < volumeBytes := by exact_mod_cast some_
    have budget : int64 (c.maxCacheGiB * 2 ^ 30) = c.maxCacheGiB * 2 ^ 30 := int64_of_bounds (by omega) (by omega)
    simp only [entryLimit,whole,Option.getD_some,headerSize,budget]
    rw [int64_of_bounds (n := volumeBytes - c.maxCacheGiB * 2 ^ 30) (by omega) (by omega),
      int64_of_bounds (n := volumeBytes - c.maxCacheGiB * 2 ^ 30 - 4096) (by omega) (by omega),
      int64_of_bounds (n := c.maxCacheGiB * 2 ^ 30 - 4096) (by omega) (by omega)]

/-- Where the entry limit does not become smaller, the second configuration starts
    on every directory of the first. -/
theorem restarts_larger (k : Library) (values : k.Exact) (c c' : Config) (out out' : Rendered)
    (grows : entryLimit k c ≤ entryLimit k c') :
    (∀ sha256, turboRender k c = .ok out → turboRender k c' = .ok out' →
      StartsAgain (⟨sha256,out.maxEntry,out.maxTotal⟩ : Turbocache.Server).engine
        (⟨sha256,out.maxEntry,out.maxTotal⟩ : Turbocache.Server).new
        (⟨sha256,out'.maxEntry,out'.maxTotal⟩ : Turbocache.Server).new) ∧
    (∀ sha256, nxRender k c = .ok out → nxRender k c' = .ok out' →
      StartsAgain (⟨sha256,out.maxEntry,out.maxTotal⟩ : Nxcache.Server).engine
        (⟨sha256,out.maxEntry,out.maxTotal⟩ : Nxcache.Server).new
        (⟨sha256,out'.maxEntry,out'.maxTotal⟩ : Nxcache.Server).new) ∧
    (∀ sha256 md5, CollisionFree ⟨sha256,md5,out.maxEntry,out.maxTotal,c.readOnly⟩ → goRender k c = .ok out →
      goRender k c' = .ok out' →
      StartsAgain (⟨sha256,md5,out.maxEntry,out.maxTotal,c.readOnly⟩ : Gocache.Server).engine
        (⟨sha256,md5,out.maxEntry,out.maxTotal,c.readOnly⟩ : Gocache.Server).new
        (⟨sha256,md5,out'.maxEntry,out'.maxTotal,c'.readOnly⟩ : Gocache.Server).new) := by
  have larger : ∀ {engine : String} {before after : Config → List String}, renderCache engine before after k c = .ok out →
      renderCache engine before after k c' = .ok out' →
      out.maxEntry ≤ out'.maxEntry ∧ 0 < out'.maxEntry ∧ out'.maxEntry + headerSize ≤ out'.maxTotal := by
    intro engine before after rendered rendered'
    obtain ⟨positive,fits,_⟩ := renderCache_limits values rendered'
    rw [renderCache_entryLimit values rendered,renderCache_entryLimit values rendered'] at *
    exact ⟨grows,positive,fits⟩
  refine ⟨fun sha256 rendered rendered' => ?_,fun sha256 rendered rendered' => ?_,fun sha256 md5 free rendered rendered' => ?_⟩
  · obtain ⟨more,limits⟩ := larger rendered rendered'
    refine restarts_of_takes (turboOpener _) (turboOpener _) limits rfl rfl (fun {j a contents} good => ?_)
    exact ⟨good.1,le_trans good.2.1 more,good.2.2⟩
  · obtain ⟨more,limits⟩ := larger rendered rendered'
    refine restarts_of_takes (nxOpener _) (nxOpener _) limits rfl rfl (fun {j a contents} good => ?_)
    exact ⟨good.1,le_trans good.2.1 more,good.2.2⟩
  · obtain ⟨more,limits⟩ := larger rendered rendered'
    have free' : CollisionFree ⟨sha256,md5,out'.maxEntry,out'.maxTotal,c'.readOnly⟩ := free
    refine restarts_of_takes (goOpener _ free) (goOpener _ free') limits rfl rfl (fun {j a contents} good => ?_)
    exact ⟨good.1,⟨le_trans good.2.1.1 more,le_trans good.2.1.2 more⟩,good.2.2⟩

/-! ### Two budgets -/

/-- The quantities of the configurations below. -/
def quantities : Library where
  isDNS1123Label := fun name => name = "cache" || name = "project"
  isDNS1123Subdomain := fun name => name = "auth" || name = "standard"
  isValidLabelValue := fun value => value = "id"
  parseQuantity := fun text => (([("1Gi",1073741824),("2Gi",2147483648),("1073745930",1073745930),
    ("2147487746",2147487746)].lookup text).map (fun n : Int => (n : ℚ)))
  asInt64 := fun text => [("1Gi",1073741824),("2Gi",2147483648),("1073745930",1073745930),
    ("2147487746",2147487746)].lookup text

theorem quantities_whole : quantities.Exact := by
  intro text n whole
  simp only [quantities] at whole ⊢
  refine ⟨by rw [whole]; rfl,?_⟩
  obtain ⟨before,after,rows,_⟩ := List.lookup_eq_some_iff.mp whole
  have member : (text,n) ∈ ([("1Gi",1073741824),("2Gi",2147483648),("1073745930",1073745930),
      ("2147487746",2147487746)] : List (String × Int)) := by
    rw [rows]
    simp
  simp only [List.mem_cons,Prod.mk.injEq,List.not_mem_nil,or_false] at member
  rcases member with ⟨_,rfl⟩ | ⟨_,rfl⟩ | ⟨_,rfl⟩ | ⟨_,rfl⟩ <;> decide

/-- One GiB of a volume that leaves ten bytes for an entry beside it. -/
def tight : Config := { config with capacity := "1073745930", maxCacheGiB := 1 }

/-- Two GiB of a larger volume that leaves two bytes. -/
def tighter : Config := { config with capacity := "2147487746", maxCacheGiB := 2 }

/-- What is rendered, if anything is. -/
def limitsOf (render : Library → Config → Except String Rendered) (c : Config) : Rendered :=
  match render quantities c with
  | .ok out => out
  | .error _ => ⟨[],0,0,0⟩

theorem limitsOf_ok {render : Library → Config → Except String Rendered} {c : Config}
    (ok : (render quantities c).toBool = true) : render quantities c = .ok (limitsOf render c) := by
  unfold limitsOf
  cases made : render quantities c with
  | error message => rw [made] at ok; cases ok
  | ok out => rfl

def turboFor (c : Config) : Turbocache.Server := ⟨digest,(limitsOf turboRender c).maxEntry,(limitsOf turboRender c).maxTotal⟩

def nxFor (c : Config) : Nxcache.Server := ⟨digest,(limitsOf nxRender c).maxEntry,(limitsOf nxRender c).maxTotal⟩

def goFor (c : Config) : Gocache.Server :=
  ⟨digest,goServer.md5,(limitsOf goRender c).maxEntry,(limitsOf goRender c).maxTotal,c.readOnly⟩

/-- A server that has stored an entry and starts again with other limits. -/
def StartedAgain {A : Type} (E : Engine A) (new new' : Volume FileName (Contents A) → Inode → List Bool → Option (Store A)) : Prop :=
  ∃ (begun : Store A) (s : System A) (puts : List (Upload A)) (m : Mounted A) (store : Store A), Lived E new begun s puts ∧
    s.store.used ≠ 0 ∧ m.volume = s.store.volume ∧ new' m.volume m.next [] = some store

theorem started_of_follow {A : Type} {E : Engine A} {new new' : Volume FileName (Contents A) → Inode → List Bool → Option (Store A)}
    {law : Lawful E} (opener : Opener law new) (again : StartsAgain E new new') (labels : List Label)
    (executed : ((new blank.volume 0 []).bind (fun store => follow E labels (.boot store))).any
      (fun out => decide (out.1.store.used ≠ 0)) = true) : StartedAgain E new new' := by
  obtain ⟨begun,s,puts,made,ran,stored⟩ := reached_of_follow E (new blank.volume 0 []) labels
    (fun s => decide (s.store.used ≠ 0)) executed
  obtain ⟨lived,_⟩ := lived_run opener (.first made) ran
  let m : Mounted A := ⟨s.store.volume,s.store.next,(alive_lived opener lived).sound.tidy.allocated⟩
  obtain ⟨store,started⟩ := again begun s _ s.store.volume m lived List.mem_cons_self (.inl rfl)
  exact ⟨begun,s,_,m,store,lived,of_decide_eq_true stored,rfl,started⟩

theorem restarts_larger_upload :
    StartedAgain (turboFor tight).engine (turboFor tight).new (turboFor config).new ∧
    StartedAgain (nxFor tight).engine (nxFor tight).new (nxFor config).new ∧
    StartedAgain (goFor tight).engine (goFor tight).new (goFor config).new := by
  refine ⟨?_,?_,?_⟩
  · exact started_of_follow (turboOpener _) ((restarts_larger quantities quantities_whole tight config _ _ (by decide +kernel)).1
      digest (limitsOf_ok (by decide +kernel)) (limitsOf_ok (by decide +kernel))) (upload turboPut) (by decide +kernel)
  · exact started_of_follow (nxOpener _) ((restarts_larger quantities quantities_whole tight config _ _ (by decide +kernel)).2.1
      digest (limitsOf_ok (by decide +kernel)) (limitsOf_ok (by decide +kernel))) (upload ⟨"key",3,fun _ => []⟩) (by decide +kernel)
  · have free : CollisionFree (goFor tight) := goServer_free
    exact started_of_follow (goOpener _ free)
      ((restarts_larger quantities quantities_whole tight config _ _ (by decide +kernel)).2.2
        digest goServer.md5 free (limitsOf_ok (by decide +kernel)) (limitsOf_ok (by decide +kernel)))
      (upload goPut) (by decide +kernel)

/-- The volume and the budget grow, and yet the server does not start again: its
    entry limit has become smaller than an entry it stored. -/
theorem larger_budget_refused : ¬∀ c c' : Config, c.name = c'.name ∧ c.namespace_ = c'.namespace_ ∧ c.instanceID = c'.instanceID ∧
    c.projectID = c'.projectID → (quantities.asInt64 c.capacity).getD 0 ≤ (quantities.asInt64 c'.capacity).getD 0 →
    (turboRender quantities c).toBool = true → (turboRender quantities c').toBool = true →
    StartsAgain (turboFor c).engine (turboFor c).new (turboFor c').new := by
  intro always
  have again := always tight tighter ⟨rfl,rfl,rfl,rfl⟩ (by decide) (by decide +kernel) (by decide +kernel)
  obtain ⟨begun,s,puts,made,ran,refused⟩ := reached_of_follow (turboFor tight).engine ((turboFor tight).new blank.volume 0 [])
    (upload turboPut) (fun s => ((turboFor tighter).new s.store.volume s.store.next []).isNone) (by decide +kernel)
  obtain ⟨lived,_⟩ := lived_run (turboOpener _) (.first made) ran
  let m : Mounted Turbocache.Artifact := ⟨s.store.volume,s.store.next,(alive_lived (turboOpener _) lived).sound.tidy.allocated⟩
  obtain ⟨store,started⟩ := again begun s _ s.store.volume m lived List.mem_cons_self (.inl rfl)
  have started : (turboFor tighter).new s.store.volume s.store.next [] = some store := started
  rw [started] at refused
  cases refused

end Expbuild.Restarts
