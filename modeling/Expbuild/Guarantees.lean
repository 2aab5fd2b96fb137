import Expbuild.Controllers

/-!
Rely and guarantee for controllers. Some facts are about the cluster alone (`shared`),
others about what a pass has seen and done (`known`). `Rules` asks that a licensed request
of a pass keeps both, that it keeps what the passes for other keys know, and that
everybody else does; then they hold throughout every run, and held when any request took
effect (`Rules.held`).

One such fact is general: where only the pass for a key writes an object, the pass knows
its specification (`exact_rules`).
-/
namespace Expbuild.Guarantees
open Expbuild.Tables Expbuild.Objects Expbuild.Programs Expbuild.Runs Expbuild.Clusters Expbuild.Controllers

variable {S : Scheme} {K C E : Type} [DecidableEq K]

omit [DecidableEq K] in
structure Rules (program : K × C → Pass S E Unit) (rely : Cluster S → Cluster S → Prop)
    (licence : K → C → Past S → Request S → Prop) (shared : Cluster S → List (Deed S K C) → Prop)
    (known : K → C → Past S → Cluster S → List (Deed S K C) → Prop) : Prop where
  licensed : ∀ key config, Licensed (licence key config) (fun _ _ => True) [] (program (key,config))
  start : ∀ key config c deeds, shared c deeds → known key config [] c deeds
  own : ∀ {key config past c deeds r c'} {x : r.Answer} {took}, (∀ k, Wf (c k)) → Real past c → shared c deeds → known key config past c deeds →
    licence key config past r → Outcome c r c' x took → shared c' (recorded took ⟨key,config,past,r,c⟩ deeds) ∧
      known key config (⟨r,x⟩ :: past) c' (recorded took ⟨key,config,past,r,c⟩ deeds)
  elsewhere : ∀ {key config past c deeds r c'} {x : r.Answer} {took key' config' past'}, key' ≠ key → (∀ k, Wf (c k)) → Real past c → Real past' c →
    shared c deeds → known key config past c deeds → known key' config' past' c deeds → licence key config past r →
      Outcome c r c' x took → known key' config' past' c' (recorded took ⟨key,config,past,r,c⟩ deeds)
  others : ∀ {c c' deeds}, (∀ k, Wf (c k)) → shared c deeds → (∀ k, Step (c k) (c' k)) → rely c c' →
    shared c' deeds ∧ ∀ key config past, Real past c → known key config past c deeds → known key config past c' deeds

section
variable {program : K × C → Pass S E Unit} {rely : Cluster S → Cluster S → Prop} {licence : K → C → Past S → Request S → Prop}
  {shared : Cluster S → List (Deed S K C) → Prop} {known : K → C → Past S → Cluster S → List (Deed S K C) → Prop}
  {a s s' : System program} {l : Label S K C}

omit [DecidableEq K] in
/-- What held when a request took effect. -/
structure Met (licence : K → C → Past S → Request S → Prop) (shared : Cluster S → List (Deed S K C) → Prop)
    (known : K → C → Past S → Cluster S → List (Deed S K C) → Prop) (d : Deed S K C) (before : List (Deed S K C)) : Prop where
  may : licence d.key d.config d.past d.request
  common : shared d.before before
  knows : known d.key d.config d.past d.before before

structure Held (licence : K → C → Past S → Request S → Prop) (shared : Cluster S → List (Deed S K C) → Prop)
    (known : K → C → Past S → Cluster S → List (Deed S K C) → Prop) (s : System program) : Prop where
  sound : Known program s
  common : shared s.cluster s.deeds
  knows : ∀ key t, s.passes.lookup key = some t → known t.tag.1 t.tag.2 t.history s.cluster s.deeds
  deeds : ∀ before d after, s.deeds = after ++ d :: before → Met licence shared known d before

omit [DecidableEq K] in
/-- What passes know may be used for what the cluster has in common. -/
theorem Rules.with_shared {rely' : Cluster S → Cluster S → Prop} (rules : Rules program rely licence (fun _ _ => True) known)
    (stronger : ∀ {c c'}, rely' c c' → rely c c')
    (own : ∀ {key config past c deeds r c'} {x : r.Answer} {took}, (∀ k, Wf (c k)) → Real past c → shared c deeds →
      known key config past c deeds → licence key config past r → Outcome c r c' x took →
        shared c' (recorded took ⟨key,config,past,r,c⟩ deeds))
    (others : ∀ {c c' deeds}, (∀ k, Wf (c k)) → shared c deeds → (∀ k, Step (c k) (c' k)) → rely' c c' → shared c' deeds) :
    Rules program rely' licence shared known where
  licensed := rules.licensed
  start key config c deeds _ := rules.start key config c deeds trivial
  own wf real common knows may outcome := ⟨own wf real common knows may outcome,(rules.own wf real trivial knows may outcome).2⟩
  elsewhere other wf real real' _ knows knows' may outcome := rules.elsewhere other wf real real' trivial knows knows' may outcome
  others wf common steps keeps := ⟨others wf common steps keeps,(rules.others wf trivial steps (stronger keeps)).2⟩

theorem Rules.step (rules : Rules program rely licence shared known) (held : Held licence shared known s)
    (may : Orderly program rely s l) (moved : step program l s = some s') : Held licence shared known s' := by
  have sound := held.sound.step may moved
  cases l with
  | start key config =>
    simp only [Controllers.step] at moved
    split at moved
    · cases moved
    · cases moved
      refine ⟨sound,held.common,fun key' t found => ?_,held.deeds⟩
      rcases lookup_insert_some found with ⟨rfl,rfl⟩ | ⟨_,before⟩
      · exact rules.start _ _ _ _ held.common
      · exact held.knows key' t before
  | run key fault =>
    obtain ⟨t,t',r,x,moves⟩ := run_cases moved
    have outcome := perform_outcome moves.performed
    have real := held.sound.real moves.found
    have knows := held.knows key t moves.found
    have tag := held.sound.tags key t moves.found
    obtain ⟨next,left,_⟩ := moves.ran
    have licence' : licence t.tag.1 t.tag.2 t.history r := by
      have ran := t.ran
      rw [left] at ran
      exact ran.licensed (rules.licensed _ _)
    obtain ⟨shared',known'⟩ := rules.own held.sound.stores real held.common knows licence' outcome
    refine ⟨sound,?_,fun key' u found => ?_,fun before d after split => ?_⟩
    · rw [moves.deeds]
      exact shared'
    · rw [moves.passes] at found
      rw [moves.deeds]
      rcases lookup_insert_some found with ⟨rfl,rfl⟩ | ⟨other,before⟩
      · rw [moves.tag,moves.history]
        exact known'
      · have tag' := held.sound.tags key' u before
        exact rules.elsewhere (by rw [tag',tag]; exact other) held.sound.stores real (held.sound.real before) held.common knows
          (held.knows key' u before) licence' outcome
    · rw [moves.deeds,recorded] at split
      cases took : effective fault r s.cluster with
      | false =>
        rw [took] at split
        exact held.deeds before d after split
      | true =>
        rw [took,if_pos rfl] at split
        cases after with
        | nil =>
          cases split
          exact ⟨licence',held.common,knows⟩
        | cons d' after =>
          obtain ⟨_,split⟩ := List.cons.inj split
          exact held.deeds before d after split
  | stop key =>
    cases moved
    refine ⟨sound,held.common,fun key' t found => ?_,held.deeds⟩
    rw [lookup_erase] at found
    split at found
    · cases found
    · exact held.knows key' t found
  | others after =>
    cases moved
    obtain ⟨shared',known'⟩ := rules.others held.sound.stores held.common may.1 may.2
    exact ⟨sound,shared',fun key' t found => known' _ _ _ (held.sound.real found) (held.knows key' t found),held.deeds⟩

theorem Rules.held (rules : Rules program rely licence shared known) (start : Start program a) (base : shared a.cluster [])
    (reached : Reaches (Controllers.step program) (Orderly program rely) a s) : Held licence shared known s := by
  refine reached.invariant ?_ (fun held may moved => rules.step held may moved)
  refine ⟨start.known,start.deeds ▸ base,fun key t found => ?_,fun before d after split => ?_⟩
  · rw [start.passes] at found
    cases found
  · rw [start.deeds] at split
    simp at split

end

/-! ### An object that only its own pass writes -/

section
variable {k : S.Kind} {n : S.Name k}

/-- A request that writes the object. -/
inductive Touches (k : S.Kind) (n : S.Name k) : Request S → Prop where
  | create (metadata : S.Meta k) (spec : S.Spec k) : Touches k n (.create k n metadata spec)
  | patch (version : Nat) (metadata : S.Meta k) (spec : S.Spec k) : Touches k n (.patch k n version metadata spec)
  | merge (p : S.Patch k) : Touches k n (.merge k n p)
  | delete (uid : Nat) (version : Option Nat) : Touches k n (.delete k n uid version)

/-- The pass has seen or made the specification, and not written the object since. -/
inductive Knows (k : S.Kind) (n : S.Name k) (spec : S.Spec k) : Past S → Prop where
  | read {past : Past S} {e : Item S k} (same : e.spec = spec) : Knows k n spec (⟨.get k n,.ok e⟩ :: past)
  | created {past : Past S} (metadata : S.Meta k) : Knows k n spec (⟨.create k n metadata spec,.ok ()⟩ :: past)
  | patched {past : Past S} (version : Nat) (metadata : S.Meta k) : Knows k n spec (⟨.patch k n version metadata spec,.ok ()⟩ :: past)
  | later {past : Past S} (r : Request S) (x : r.Answer) (other : ¬Touches k n r) (before : Knows k n spec past) :
      Knows k n spec (⟨r,x⟩ :: past)

theorem at_with_other {c : Cluster S} {k j : S.Kind} {s : Objects S j} (other : k ≠ j) (n : S.Name k) : (c.with_ j s).at_ k n = c.at_ k n := by
  unfold Cluster.at_
  rw [with_other other]

/-- The objects that a put leaves alone. -/
theorem lookup_put {s : Objects S k} {e : Item S k} {m : S.Name k} (other : m ≠ e.key) : (put s e).live.lookup m = s.live.lookup m := by
  unfold put
  split
  · exact AList.lookup_erase_ne other
  · exact AList.lookup_insert_ne other

theorem put_self {s : Objects S k} {e e' : Item S k} (present : (put s e).live.lookup e.key = some e') :
    e' = { e with version := s.nextVersion } := by
  unfold put at present
  split at present
  · simp at present
  · exact (Option.some.inj ((AList.lookup_insert _).symm.trans present)).symm

section
variable {c c' : Cluster S} {e : Item S k}

/-- What is put back with something that holds it is there. -/
theorem put_held {s : Objects S k} (keyed : e.key = n) (held : S.held k e.metadata = true) :
    (put s e).live.lookup n = some { e with version := s.nextVersion } := by
  unfold put stays
  rw [held,Bool.or_true,Bool.not_true,Bool.and_false,← keyed]
  exact AList.lookup_insert _

theorem created_nextUid {m : S.Meta k} {spec : S.Spec k} {v : Unit} (served : Served c (.create k n m spec) c' v) :
    (c k).nextUid < (c' k).nextUid := by
  cases served with
  | created _ _ absent =>
    rw [with_same]
    exact Nat.lt_succ_self _

theorem patched_held {version : Nat} {m : S.Meta k} {spec : S.Spec k} {v : Unit} (wf : ∀ k, Wf (c k))
    (served : Served c (.patch k n version m spec) c' v) (held : S.held k m = true) :
    ∃ e' : Item S k, c'.at_ k n = some e' ∧ e'.metadata = m := by
  cases served with
  | @patched _ _ e _ _ present =>
    have keyed : e.key = n := (wf k).key present
    have there := put_held (s := c k) (e := Store.changed e m spec) keyed held
    exact ⟨_,by simpa only [Cluster.at_,with_same] using there,rfl⟩

theorem patched_metadata {r : Request S} {version : Nat} {m : S.Meta k} {spec : S.Spec k} {v : r.Value}
    (request : r = .patch k n version m spec) (wf : ∀ k, Wf (c k)) (served : Served c r c' v) (now : c'.at_ k n = some e) :
    e.metadata = m := by
  subst request
  cases served with
  | @patched _ _ old _ _ present =>
    have keyed : old.key = n := (wf k).key present
    simp only [Cluster.at_,with_same] at now
    rw [← keyed] at now
    rw [put_self (e := Store.changed old m spec) now]
    rfl

theorem merged_held {p : S.Patch k} {v : Unit} (wf : ∀ k, Wf (c k)) (served : Served c (.merge k n p) c' v)
    (held : ∀ m, S.held k (S.merge k p m) = true) : ∃ (e' : Item S k) (m : S.Meta k), c'.at_ k n = some e' ∧ e'.metadata = S.merge k p m := by
  cases served with
  | @merged _ _ e _ present _ =>
    have keyed : e.key = n := (wf k).key present
    have there := put_held (s := c k) (e := { e with metadata := S.merge k p e.metadata }) keyed (held _)
    exact ⟨_,e.metadata,by simpa only [Cluster.at_,with_same] using there,rfl⟩

end

theorem lookup_remove {s : Objects S k} {e : Item S k} {m : S.Name k} (other : m ≠ e.key) :
    (remove s e).live.lookup m = s.live.lookup m := by
  unfold remove
  split
  · split
    · rfl
    · exact AList.lookup_insert_ne other
  · exact AList.lookup_erase_ne other

/-- An object that a request does not touch stays as it is. -/
theorem served_other {c c' : Cluster S} {r : Request S} {v : r.Value} (wf : ∀ k, Wf (c k)) (served : Served c r c' v)
    (other : ¬Touches k n r) : c'.at_ k n = c.at_ k n := by
  cases served with
  | got _ | listed _ _ | passed _ => rfl
  | @created j m metadata spec absent =>
    by_cases kind : k = j
    · subst kind
      have named : n ≠ m := by
        rintro rfl
        exact other (.create metadata spec)
      simp only [Cluster.at_,with_same]
      exact AList.lookup_insert_ne named
    · exact at_with_other kind n
  | @patched j m e metadata spec present =>
    by_cases kind : k = j
    · subst kind
      have keyed : e.key = m := (wf k).key present
      have named : n ≠ m := by
        rintro rfl
        exact other (.patch e.version metadata spec)
      simp only [Cluster.at_,with_same]
      exact lookup_put (by change n ≠ e.key; rw [keyed]; exact named)
    · exact at_with_other kind n
  | @merged j m e p present admitted =>
    by_cases kind : k = j
    · subst kind
      have keyed : e.key = m := (wf k).key present
      have named : n ≠ m := by
        rintro rfl
        exact other (.merge p)
      simp only [Cluster.at_,with_same]
      exact lookup_put (by change n ≠ e.key; rw [keyed]; exact named)
    · exact at_with_other kind n
  | @deleted j m e version present current =>
    by_cases kind : k = j
    · subst kind
      have keyed : e.key = m := (wf k).key present
      have named : n ≠ m := by
        rintro rfl
        exact other (.delete e.uid version)
      simp only [Cluster.at_,with_same]
      exact lookup_remove (by rw [keyed]; exact named)
    · exact at_with_other kind n

theorem outcome_other {c c' : Cluster S} {r : Request S} {x : r.Answer} {took : Bool} (wf : ∀ k, Wf (c k))
    (outcome : Outcome c r c' x took) (other : ¬Touches k n r) : c'.at_ k n = c.at_ k n := by
  cases outcome with
  | failed _ => rfl
  | answered served => exact served_other wf served other
  | lost served => exact served_other wf served other

/-- What the pass knows of an object is what it finds and what there is. -/
structure Exact (k : S.Kind) (n : S.Name k) (past : Past S) (c : Cluster S) : Prop where
  live : ∀ spec, Knows k n spec past → ∀ e, c.at_ k n = some e → e.spec = spec
  seen : ∀ e before, ⟨.get k n,.ok e⟩ :: before <:+ past → ∀ spec, Knows k n spec before → e.spec = spec

theorem Exact.request {past : Past S} {c c' : Cluster S} {r : Request S} {x : r.Answer} {took : Bool} (wf : ∀ k, Wf (c k))
    (exact_ : Exact k n past c) (outcome : Outcome c r c' x took) : Exact k n (⟨r,x⟩ :: past) c' := by
  constructor
  · intro spec knows e present
    cases knows with
    | read same =>
      have served := outcome.value
      cases served with
      | got there =>
        rw [there] at present
        cases present
        exact same
    | created metadata =>
      have served := outcome.value
      cases served with
      | created _ _ absent =>
        simp only [Cluster.at_,with_same] at present
        have fresh := Option.some.inj ((AList.lookup_insert _).symm.trans present)
        rw [← fresh]
        rfl
    | patched version metadata =>
      have served := outcome.value
      cases served with
      | @patched _ _ old _ _ there =>
        have keyed : old.key = n := (wf k).key there
        simp only [Cluster.at_,with_same] at present
        rw [← keyed] at present
        rw [put_self (e := Store.changed old metadata spec) present]
        rfl
    | later _ _ other before =>
      rw [outcome_other wf outcome other] at present
      exact exact_.live spec before e present
  · intro e before inside spec knows
    rcases List.suffix_cons_iff.mp inside with same | inside
    · obtain ⟨event,rfl⟩ := List.cons.inj same
      cases event
      have served := outcome.value
      cases served with
      | got there => exact exact_.live spec knows e there
    · exact exact_.seen e before inside spec knows

end

section
variable {program : K × C → Pass S E Unit} {rely : Cluster S → Cluster S → Prop} {licence : K → C → Past S → Request S → Prop}
  {k : S.Kind} {name : K → S.Name k}

omit [DecidableEq K] in
/-- Where passes write objects of a kind under the name of their key only, and nobody
    else writes a specification or makes such an object, what a pass knows of its own
    is so. -/
theorem exact_rules (licensed : ∀ key config, Licensed (licence key config) (fun _ _ => True) [] (program (key,config)))
    (own : ∀ {key config past c r n}, Real past c → licence key config past r → Touches k n r → n = name key)
    (injective : Function.Injective name)
    (kept : ∀ {c c' n e'}, rely c c' → c'.at_ k n = some e' → ∃ e, c.at_ k n = some e ∧ e.spec = e'.spec) :
    Rules program rely licence (fun _ _ => True) (fun key _ past c _ => Exact k (name key) past c) where
  licensed := licensed
  start key config c deeds _ := by
    refine ⟨fun spec knows => ?_,fun e before inside => ?_⟩
    · cases knows
    · simp at inside
  own wf _ _ exact_ _ outcome := ⟨trivial,exact_.request wf outcome⟩
  elsewhere := by
    intro key config past c deeds r c' x took key' config' past' other wf real _ _ _ exact_ may outcome
    have untouched : ¬Touches k (name key') r := fun touches => other (injective (own real may touches))
    refine ⟨fun spec knows e present => ?_,exact_.seen⟩
    rw [outcome_other wf outcome untouched] at present
    exact exact_.live spec knows e present
  others := by
    intro c c' deeds _ _ _ keeps
    refine ⟨trivial,fun key config past _ exact_ => ⟨fun spec knows e present => ?_,exact_.seen⟩⟩
    obtain ⟨e',there,same⟩ := kept keeps present
    rw [← same]
    exact exact_.live spec knows e' there

end
end Expbuild.Guarantees
