import Expbuild.Permits

/-!
A pass of the operator keeps to its permits (`reconcile_permitted`). There is one lemma
for each function, which names what is known once the function returns.
-/
namespace Expbuild.Permissions
open Expbuild.Contract Expbuild.Programs Expbuild.Clusters Expbuild.Guarantees Expbuild.Kinds Expbuild.Adapters Expbuild.Exposures
  Expbuild.Reconciler Expbuild.Permits
open Expbuild.Calls (Key)
open Expbuild.Cleanup (controllerOf)

section
variable {t : Toolkit} {codec : Codec} {settings : Settings} {key : Key} {past : Past} {c : Instance} {w : Working}

/-- Whatever the function returns, it keeps to its permits. -/
abbrev Permitted (t : Toolkit) (codec : Codec) (key : Key) (settings : Settings) (past : Past) (p : Io Unit) : Prop :=
  Licensed (permit t codec key settings) (Returns (fun _ _ => True)) past p

/-! ### Requests -/

def answerOf {k : Kind} : Option (Item scheme k) → Except Failure (Item scheme k)
  | some e => .ok e
  | none => .error .notFound

section
variable {licence : Past → Request scheme → Prop}

theorem ask_returns {r : Request scheme} (may : licence past r) : Licensed licence
    (Returns (fun later v => later = ⟨r,.ok v⟩ :: past)) past (ask r) := by
  refine ⟨may,fun x => ?_⟩
  cases x with
  | ok e => rfl
  | error e => trivial

theorem find_returns {k : Kind} {n : k.Name} (may : licence past (Request.get k n)) : Licensed licence
    (Returns (fun later found => later = ⟨Request.get k n,answerOf found⟩ :: past)) past (find k n) := by
  refine ⟨may,fun x => ?_⟩
  cases x with
  | ok e => rfl
  | error e =>
    cases e with
    | notFound => rfl
    | conflict | alreadyExists | refused => trivial

theorem need_returns {condition : Prop} [Decidable condition] (stop : Stop) : Licensed licence
    (Returns (fun later _ => later = past ∧ condition)) past (need condition stop) := by
  unfold need Prog.require
  split
  · rename_i holds
    exact ⟨rfl,holds⟩
  · trivial

theorem approve_returns {α : Type} {x : Except String α} (reason : String) : Licensed licence
    (Returns (fun later a => later = past ∧ x = .ok a)) past (approve reason x) := by
  cases x with
  | ok a => exact ⟨rfl,rfl⟩
  | error message => trivial

/-- Somebody else may have created the object meanwhile. -/
theorem findOrCreate_returns {n : Namespace × String} {m : ConfigMeta} {s : ConfigSpec}
    (reads : ∀ later, past <:+ later → licence later (Request.get Kind.config n))
    (creates : ∀ later, past <:+ later → licence later (Request.create Kind.config n m s)) :
    Licensed licence (Returns (fun later record => Read later .config n record)) past (findOrCreate n m s) := by
  unfold findOrCreate
  refine returns_bind (find_returns (reads _ List.suffix_rfl)) ?_
  rintro later found after rfl
  cases found with
  | some record => exact returns_pure (show Read _ _ _ _ from List.mem_cons_self)
  | none =>
    have made : Licensed licence (Returns (fun _ _ => True)) (⟨Request.get Kind.config n,answerOf none⟩ :: past)
        (tryCatch (create .config n m s) (fun e => if e = .api .alreadyExists then pure () else throw e)) := by
      refine (licensed_tryCatch _ _).mpr ((ask_returns (creates _ after)).mono (fun _ _ _ may => may) ?_)
      intro later result _ _
      cases result with
      | ok _ => trivial
      | error e =>
        change Licensed _ _ _ (if e = .api .alreadyExists then pure () else throw e)
        split
        · exact returns_pure trivial
        · exact returns_throw _
    refine returns_bind made ?_
    intro later _ onwards _
    refine returns_mono (ask_returns (reads _ (after.trans onwards))) ?_
    rintro later record _ rfl
    exact List.mem_cons_self

end

theorem get_permitted (k : Kind) (n : k.Name) : Licensed (permit t codec key settings)
    (Returns (fun later e => later = ⟨Request.get k n,.ok e⟩ :: past)) past (get k n) := ask_returns trivial

theorem list_permitted (k : Kind) (select : k.Selector) : Licensed (permit t codec key settings)
    (Returns (fun later es => later = ⟨Request.list k select,.ok es⟩ :: past)) past (list k select) := ask_returns trivial

theorem find_permitted (k : Kind) (n : k.Name) : Licensed (permit t codec key settings)
    (Returns (fun later found => later = ⟨Request.get k n,answerOf found⟩ :: past)) past (find k n) := find_returns trivial

theorem ask_permitted {r : Request scheme} (may : permit t codec key settings past r) : Licensed (permit t codec key settings)
    (Returns (fun later v => later = ⟨r,.ok v⟩ :: past)) past (ask r) := ask_returns may

theorem need_permitted {condition : Prop} [Decidable condition] (stop : Stop) : Licensed (permit t codec key settings)
    (Returns (fun later _ => later = past ∧ condition)) past (need condition stop) := need_returns stop

theorem approve_permitted {α : Type} {x : Except String α} (reason : String) : Licensed (permit t codec key settings)
    (Returns (fun later a => later = past ∧ x = .ok a)) past (approve reason x) := approve_returns reason

theorem found_answer {k : Kind} {n : k.Name} (found : Option (Item scheme k)) :
    Found (⟨Request.get k n,answerOf found⟩ :: past) k n found := by
  cases found with
  | none => exact List.mem_cons_self
  | some e => exact List.mem_cons_self

/-! ### `report` -/

theorem report_permitted {applied : Option Applied} {reason : String} (works : Works past key w.read) (alive : w.read.deleting = false)
    (ready : ∀ x, applied = some x → ∃ a secret objects sts, Verified t settings past w.read a secret objects sts x)
    (stopped : reason = "Suspended" → Stopped past w.read) : Permitted t codec key settings past (report w applied reason) := by
  unfold report
  refine returns_bind (find_permitted _ _) ?_
  rintro later found after rfl
  cases found with
  | none => trivial
  | some current =>
    dsimp only
    split
    · trivial
    · rename_i same
      obtain ⟨generation,uid⟩ := not_or.mp same
      split
      · trivial
      · refine returns_mono (ask_permitted ⟨w.read,works.mono after,?_⟩) (fun _ _ _ _ => trivial)
        refine .reported alive List.mem_cons_self ⟨not_not.mp generation,not_not.mp uid⟩ (fun x known => ?_) (fun named => ?_)
        · obtain ⟨a,secret,objects,sts,verified⟩ := ready x known
          exact ⟨a,secret,objects,sts,verified.mono after⟩
        · exact (stopped named).mono after

/-- A report on an instance that is neither ready nor suspended. -/
theorem report_waiting {reason : String} (works : Works past key w.read) (alive : w.read.deleting = false) (other : reason ≠ "Suspended") :
    Permitted t codec key settings past (report w none reason) :=
  report_permitted works alive (fun x wrong => by cases wrong) (fun named => absurd named other)

/-! ### Routes and monitors -/

/-- A request that creates nothing. -/
def Quiet : Request scheme → Prop
  | .create _ _ _ _ => False
  | _ => True

theorem unexposed_only {α : Type} {p : Io α} (only : Only Quiet p) (unexposed : Unexposed past) :
    Licensed (fun _ _ => True) (fun later _ => Unexposed later) past p := by
  have keeps := only past
  clear only
  induction p generalizing past with
  | pure a => exact unexposed
  | throw e => exact unexposed
  | request r next ih =>
    refine ⟨trivial,fun x => ih x ?_ (keeps.2 x)⟩
    intro n m s y member
    rcases List.mem_cons.mp member with same | member
    · cases same
      exact keeps.1
    · exact unexposed n m s y member

theorem only_find {k : Kind} {n : k.Name} : Only Quiet (find k n) := by
  intro past
  refine ⟨trivial,fun x => ?_⟩
  cases x with
  | ok e => trivial
  | error e =>
    cases e with
    | notFound => trivial
    | conflict | alreadyExists | refused => trivial

theorem only_delete {k : Kind} {n : k.Name} {e : Item scheme k} {version : Option Nat} : Only Quiet (delete k n e version) := by
  intro past
  refine ⟨trivial,fun x => ?_⟩
  cases x with
  | ok e => trivial
  | error e =>
    cases e with
    | notFound => trivial
    | conflict | alreadyExists | refused => trivial

theorem delete_permitted {k : Kind} {n : k.Name} {e : Item scheme k} {version : Option Nat}
    (may : permit t codec key settings past (Request.delete k n e.uid version)) :
    Permitted t codec key settings past (delete k n e version) := by
  refine ⟨may,fun x => ?_⟩
  cases x with
  | ok e => trivial
  | error e =>
    cases e with
    | notFound => trivial
    | conflict | alreadyExists | refused => trivial

theorem removeChildren_only (message : String) (names : List ChildName) : Only Quiet (removeChildren c message names) := by
  induction names with
  | nil => exact only_pure _
  | cons name rest ih =>
    refine only_bind only_find (fun found => ?_)
    cases found with
    | none => exact ih
    | some e =>
      refine only_bind (only_require _ _) (fun _ => only_bind only_delete (fun _ => ?_))
      exact only_bind ih (fun _ => only_pure _)

/-- Children are only removed if they belong to the instance, and none is left where
    there was nothing to remove. -/
theorem removeChildren_permitted {message : String} {names : List ChildName} (works : Works past key c)
    (tracked : ∀ name ∈ names, name ∈ gatewayChildren ∨ name ∈ monitoringChildren) : Licensed (permit t codec key settings)
    (Returns (fun later pending => pending = false → ∀ name ∈ names, Absent later .child (c.key,name))) past
    (removeChildren c message names) := by
  induction names generalizing past with
  | nil => exact fun _ name member => by cases member
  | cons name rest ih =>
    have others : ∀ name ∈ rest, name ∈ gatewayChildren ∨ name ∈ monitoringChildren :=
      fun name member => tracked name (List.mem_cons_of_mem _ member)
    refine returns_bind (find_permitted _ _) ?_
    rintro later found after rfl
    cases found with
    | none =>
      refine returns_mono (ih (works.mono after) others) (fun later pending after' gone none_ other member => ?_)
      rcases List.mem_cons.mp member with rfl | member
      · exact after'.subset List.mem_cons_self
      · exact gone none_ other member
    | some e =>
      refine returns_bind (need_permitted _) ?_
      rintro later' _ _ ⟨rfl,own,_⟩
      refine returns_bind (delete_permitted ⟨c,works.mono after,.exposed (tracked name List.mem_cons_self) List.mem_cons_self own⟩) ?_
      intro later' _ after' _
      refine returns_bind (ih (works.mono (after.trans after')) others) (fun _ _ _ _ => ?_)
      exact fun wrong => by cases wrong

/-! ### `apply` -/

/-- What is known of objects of other kinds stays known. -/
def Aside (k : Kind) (past later : Past) : Prop :=
  ∀ (j : Kind) (n : j.Name) (s : j.Spec), j ≠ k → Knows j n s past → Knows j n s later

theorem aside_get {k j : Kind} {n : j.Name} {x : Request.Answer (Request.get j n : Request scheme)} :
    Aside k past (⟨Request.get j n,x⟩ :: past) :=
  fun _ _ _ _ knows => .later _ x (fun touches => by cases touches) knows

theorem applyObject_permitted {k : Kind} {n : k.Name} {m : k.Meta} {s : k.Spec} {owned : Bool}
    {update : Item scheme k → Except String (Option k.Spec)}
    (creates : ∀ later, past <:+ later → permit t codec key settings later (Request.create k n m s))
    (patches : ∀ later e s', past <:+ later → Read later k n e →
      (identity k e.metadata).labels.instanceUid = (identity k m).labels.instanceUid → update e = .ok (some s') →
        permit t codec key settings later (Request.patch k n e.version e.metadata s')) :
    Licensed (permit t codec key settings) (Returns (fun later _ => Put later k n m s update ∧ Aside k past later ∧
      ((∀ e next, update e = .ok next → next = some s) → Knows k n s later))) past (applyObject k n m s owned update) := by
  unfold applyObject
  refine returns_bind (find_permitted _ _) ?_
  rintro later found after rfl
  cases found with
  | none =>
    refine returns_mono (ask_permitted (creates _ after)) ?_
    rintro later ⟨⟩ _ rfl
    refine ⟨.created List.mem_cons_self,fun j n' s' other knows => ?_,fun _ => .created _⟩
    refine .later _ _ (fun touches => ?_) (aside_get j n' s' other knows)
    cases touches
    exact other rfl
  | some e =>
    refine returns_bind (need_permitted _) ?_
    rintro later _ _ ⟨rfl,own⟩
    refine returns_bind (need_permitted _) ?_
    rintro later _ _ ⟨rfl,_⟩
    cases updated : update e with
    | error message => trivial
    | ok next =>
      cases next with
      | none =>
        refine ⟨.found List.mem_cons_self own updated (fun s' wrong => by cases wrong),aside_get,fun exactly => ?_⟩
        cases exactly e none updated
      | some s' =>
        dsimp only
        split
        · rename_i same
          refine ⟨.found List.mem_cons_self own updated (fun s'' known => ?_),aside_get,fun exactly => ?_⟩
          · cases known
            exact .inl (@of_decide_eq_true _ (specs k _ _) same)
          · cases exactly e _ updated
            exact .read (@of_decide_eq_true _ (specs k _ _) same).symm
        · refine returns_mono (ask_permitted (patches _ e s' after List.mem_cons_self own updated)) ?_
          rintro later ⟨⟩ _ rfl
          refine ⟨.found (List.mem_cons_of_mem _ List.mem_cons_self) own updated (fun s'' known => ?_),fun j n' s'' other knows => ?_,
            fun exactly => ?_⟩
          · cases known
            exact .inr List.mem_cons_self
          · refine .later _ _ (fun touches => ?_) (aside_get j n' s'' other knows)
            cases touches
            exact other rfl
          · cases exactly e _ updated
            exact .patched _ _

/-- An object that is wanted goes by the name of its instance, and is marked as its own. -/
inductive Named (c : Instance) : Desired → Prop where
  | volume {m : VolumeMeta} (s : VolumeSpec) (marked : m.labels.instanceUid = some c.uid) : Named c (.volume c.key m s)
  | config {m : ConfigMeta} (name : String) (s : ConfigSpec) (marked : m.labels.instanceUid = some c.uid) :
      Named c (.config (c.key.1,name) m s)
  | child {m : ChildMeta} (name : ChildName) (s : ChildSpec) (marked : m.labels.instanceUid = some c.uid) :
      Named c (.child (c.key,name) m s)
  | workload {m : WorkloadMeta} (s : WorkloadSpec) (marked : m.labels.instanceUid = some c.uid) : Named c (.workload c.key m s)

theorem trusted_tidy {binding : ImageBinding} {a : Adapter} (trusted : trustedBinding c binding = .ok a) :
    a.templateRef = refOf c ∧ a.images = binding.images ∧ a.Tidy ∧ binding.instanceUid = c.uid := by
  obtain ⟨_,checked,bound⟩ := Renderers.bind_ok trusted
  obtain ⟨_,uid,ref⟩ := of_decide_eq_true (Renderers.require_ok checked)
  obtain ⟨same,images,tidy⟩ := bind_images bound
  exact ⟨same.trans ref,images,tidy,uid⟩

theorem provided_whole {a : Adapter} {secret : Secret} {objects : List Desired} (provided : Provided t past c a secret objects) :
    Whole t c a.images objects := by
  obtain ⟨binding,_,trusted⟩ := provided.bound
  exact render_whole (trusted_tidy trusted).2.2.1 provided.rendered

theorem wanted_named {d : Desired} (wanted : Wanted t settings past c d) : Named c d := by
  have child : ∀ {among : ChildName → Bool} {objects : List Desired}, Belong c among objects → d ∈ objects.map (control c) → Named c d := by
    intro among objects belong member
    obtain ⟨d',inside,rfl⟩ := List.mem_map.mp member
    obtain ⟨name,spec,rfl,_⟩ := belong d' inside
    exact .child name spec rfl
  cases wanted with
  | cache provided member =>
    obtain ⟨d',inside,rfl⟩ := List.mem_map.mp member
    cases (provided_whole provided).all d' inside with
    | volume => exact .volume _ rfl
    | config name spec => exact .config name _ rfl
    | child spec own => exact .child _ _ rfl
    | workload runs marked => exact .workload _ rfl
  | gateway set alive asked held rendered member bound => exact child (gateway_belong rendered) member
  | monitoring alive asked held rendered member bound => exact child (monitoring_belong rendered) member

/-- No workload is among the objects. -/
def Workless (ds : List Desired) : Prop := ∀ d ∈ ds, ∀ n m s, d ≠ .workload n m s

/-- What is known of a workload stays known. -/
def KeepsWorkload (past later : Past) : Prop := ∀ n s, Knows Kind.workload n s past → Knows Kind.workload n s later

theorem updateWorkload_exact {d : WorkloadSpec} {sts : Workload} {next : Option WorkloadSpec} (updated : updateWorkload d sts = .ok next) :
    next = some d ∧ ∃ images, podImages d.template.spec = some images ∧ podImages sts.spec.template.spec = some images := by
  unfold updateWorkload at updated
  cases images : podImages d.template.spec with
  | none => simp [images] at updated
  | some set =>
    rw [images] at updated
    obtain ⟨_,same,updated⟩ := Renderers.bind_ok updated
    cases updated
    exact ⟨rfl,set,rfl,of_decide_eq_true (Renderers.require_ok same)⟩

theorem apply_permitted {d : Desired} (works : Works past key c) (wanted : Wanted t settings past c d) : Licensed (permit t codec key settings)
    (Returns (fun later _ => InPlace later d ∧ (Workless [d] → KeepsWorkload past later) ∧
      ∀ n m s, d = .workload n m s → Knows Kind.workload n s later)) past (apply d) := by
  unfold apply
  cases wanted_named wanted with
  | volume s marked =>
    refine returns_mono (applyObject_permitted (fun later after => ⟨c,works.mono after,.volume (wanted.mono after)⟩)
      (fun later e s' after read own updated => ⟨c,works.mono after,.grown (wanted.mono after) read (own.trans marked) updated⟩)) ?_
    exact fun _ _ _ ⟨put,aside,_⟩ => ⟨put,fun _ n s => aside .workload n s (by decide),fun n m s wrong => by cases wrong⟩
  | config name s marked =>
    refine returns_mono (applyObject_permitted (fun later after => ⟨c,works.mono after,.config (wanted.mono after)⟩)
      (fun later e s' after read own updated => ?_)) ?_
    · obtain ⟨_,_,updated⟩ := Renderers.bind_ok updated
      cases updated
    · exact fun _ _ _ ⟨put,aside,_⟩ => ⟨put,fun _ n s => aside .workload n s (by decide),fun n m s wrong => by cases wrong⟩
  | child name s marked =>
    refine returns_mono (applyObject_permitted (fun later after => ⟨c,works.mono after,.child (wanted.mono after)⟩)
      (fun later e s' after read own updated => ?_)) ?_
    · cases updated
      exact ⟨c,works.mono after,.applied (wanted.mono after) read (own.trans marked)⟩
    · exact fun _ _ _ ⟨put,aside,_⟩ => ⟨put,fun _ n s => aside .workload n s (by decide),fun n m s wrong => by cases wrong⟩
  | workload s marked =>
    refine returns_mono (applyObject_permitted (fun later after => ⟨c,works.mono after,.workload (wanted.mono after)⟩)
      (fun later e s' after read own updated => ⟨c,works.mono after,.applied (wanted.mono after) read (own.trans marked) updated⟩)) ?_
    intro later _ _ ⟨put,_,knows⟩
    refine ⟨put,fun none_ => absurd rfl (none_ _ List.mem_cons_self _ _ _),fun n m s' same => ?_⟩
    cases same
    exact knows (fun e next updated => (updateWorkload_exact updated).1)

theorem applyAll_permitted {ds : List Desired} (works : Works past key c) (wanted : ∀ d ∈ ds, Wanted t settings past c d) :
    Licensed (permit t codec key settings) (Returns (fun later _ => (∀ d ∈ ds, InPlace later d) ∧ (Workless ds → KeepsWorkload past later) ∧
      ∀ before n m s, ds = before ++ [.workload n m s] → Knows Kind.workload n s later)) past (applyAll ds) := by
  induction ds generalizing past with
  | nil =>
    refine returns_pure ⟨fun d member => ?_,fun _ n s knows => knows,fun before n m s wrong => ?_⟩
    · cases member
    · simp at wrong
  | cons d rest ih =>
    refine returns_bind (apply_permitted works (wanted d List.mem_cons_self)) ?_
    intro later _ after ⟨inPlace,aside,last⟩
    refine returns_mono (ih (works.mono after) (fun d' member => (wanted d' (List.mem_cons_of_mem _ member)).mono after)) ?_
    intro final _ after' ⟨others,aside',last'⟩
    refine ⟨fun d' member => ?_,fun none_ n s knows => ?_,fun before n m s split => ?_⟩
    · rcases List.mem_cons.mp member with rfl | member
      · exact inPlace.mono after'
      · exact others d' member
    · have first : Workless [d] := fun d' member => none_ d' (List.mem_cons.mpr (.inl (List.mem_singleton.mp member)))
      exact aside' (fun d' member => none_ d' (List.mem_cons_of_mem _ member)) n s (aside first n s knows)
    · cases before with
      | nil =>
        obtain ⟨same,none_⟩ := List.cons.inj split
        subst none_
        exact aside' (fun d' member => by cases member) n s (last n m s same)
      | cons d' before =>
        obtain ⟨_,split⟩ := List.cons.inj split
        exact last' before n m s split

/-! ### Images -/

theorem verify_permitted {sts : Option Workload} {images : Images} : Licensed (permit t codec key settings)
    (Returns (fun later _ => ∃ pods, later = ⟨Request.list Kind.pod (c.key.1,none),.ok pods⟩ :: past ∧
      ∀ pod ∈ pods, objection c sts images pod = none)) past (verifyWorkloadPods c sts images) := by
  unfold verifyWorkloadPods
  refine returns_bind (list_permitted _ _) ?_
  rintro later pods _ rfl
  split
  · exact returns_throw _
  · rename_i silent
    exact ⟨pods,rfl,List.findSome?_eq_none_iff.mp silent⟩

theorem retained_returns {licence : Past → Request scheme → Prop} (reads : ∀ later (k : Kind) n, licence later (Request.get k n)) :
    Licensed licence (Returns (fun later a => ∃ claim pvc record receipt, Recovered codec later c a claim pvc record receipt)) past
      (retainedImageAdapter codec c) := by
  unfold retainedImageAdapter
  refine returns_bind (find_returns (reads _ _ _)) ?_
  rintro later found _ rfl
  cases found with
  | none => exact returns_throw _
  | some pvc =>
    cases asked : c.spec.storage.reclaim with
    | none => exact returns_throw _
    | some claim =>
      dsimp only
      refine returns_bind (need_returns _) ?_
      rintro later _ _ ⟨rfl,own⟩
      cases name : pvc.metadata.retainedImagesName with
      | none => exact returns_throw _
      | some name' =>
        cases uid : pvc.metadata.retainedImagesUid with
        | none => exact returns_throw _
        | some uid' =>
          refine returns_bind (find_returns (reads _ _ _)) ?_
          rintro later found _ rfl
          cases found with
          | none => exact returns_throw _
          | some record =>
            refine returns_bind (need_returns _) ?_
            rintro later _ _ ⟨rfl,genuine⟩
            refine returns_bind (need_returns _) ?_
            rintro later _ _ ⟨rfl,_⟩
            split
            · exact returns_throw _
            · rename_i receipt decoded
              refine returns_bind (need_returns _) ?_
              rintro later _ _ ⟨rfl,matching⟩
              refine returns_mono (approve_returns _) ?_
              rintro later a _ ⟨rfl,bound⟩
              obtain ⟨same,immutable,_,owners,label,_,_,_,purpose',length,_⟩ := genuine
              refine ⟨claim,pvc,record,receipt,asked,⟨own.1,own.2.1⟩,⟨name',name,by rw [uid,same],_,List.suffix_rfl,List.mem_cons_self⟩,
                ⟨immutable,owners,label,purpose'⟩,⟨length,decoded⟩,⟨matching.2.2.2.1,matching.2.2.2.2.1,matching.2.2.2.2.2.1⟩,bound⟩

theorem default_permitted {sts : Option Workload} (fresh : c.spec.storage.reclaim = none) : Licensed (permit t codec key settings)
    (Returns (fun later a => Origin codec settings later c sts a)) past (defaultAdapter settings.approved c sts) := by
  unfold defaultAdapter
  refine returns_bind (approve_permitted _) ?_
  rintro later a _ ⟨rfl,resolved⟩
  cases sts with
  | some sts => exact .approved fresh resolved (fun wrong => by cases wrong)
  | none =>
    refine returns_bind (need_permitted _) ?_
    rintro later _ _ ⟨rfl,pinned⟩
    refine returns_bind (find_permitted _ _) ?_
    rintro later found _ rfl
    cases found with
    | none => exact .approved fresh resolved (fun _ => ⟨pinned,List.mem_cons_self⟩)
    | some pvc => exact returns_throw _

theorem proposed_permitted {sts : Option Workload} : Licensed (permit t codec key settings)
    (Returns (fun later a => Origin codec settings later c sts a)) past (proposedAdapter codec settings c sts) := by
  unfold proposedAdapter
  split
  · exact returns_mono (retained_returns (fun _ _ _ => trivial)) (fun _ _ _ ⟨_,_,_,_,recovered⟩ => .retained recovered)
  · rename_i fresh
    exact default_permitted (by simpa using fresh)

theorem bindImages_permitted {sts : Option Workload} {a : Adapter} (works : Works past key c) (alive : c.deleting = false)
    (unbound : c.metadata.status.imageBinding = none) (origin : Origin codec settings past c sts a)
    (found : Found past .workload c.key sts) (owned : ∀ s ∈ sts, ownedWorkload c s = true) :
    Permitted t codec key settings past (bindImages t c sts a) := by
  unfold bindImages
  refine returns_bind (need_permitted _) ?_
  rintro later _ _ ⟨rfl,matching⟩
  refine returns_bind verify_permitted ?_
  rintro later _ after ⟨pods,rfl,silent⟩
  refine returns_bind (approve_permitted _) ?_
  rintro later objects _ ⟨rfl,rendered⟩
  have vetted : Vetted (⟨Request.list Kind.pod (c.key.1,none),.ok pods⟩ :: _) c sts a.images :=
    ⟨found.mono after,fun s member => ⟨owned s member,matching s member⟩,pods,List.mem_cons_self,silent⟩
  refine returns_bind (ask_permitted ⟨c,works.mono after,.bound alive unbound (origin.mono after) vetted rendered⟩) ?_
  intro later _ _ _
  refine returns_bind (get_permitted _ _) ?_
  intro later persisted _ _
  exact returns_mono (need_permitted _) (fun _ _ _ _ => trivial)

/-- An instance is bound, or its images are those that it was bound to. -/
theorem resolve_permitted (works : Works past key c) (alive : c.deleting = false) : Licensed (permit t codec key settings)
    (Returns (fun later result => result.2 = false → Bound c result.1 ∧ ∃ sts, Vetted later c sts result.1.images)) past
    (resolveImageBinding t codec settings c) := by
  unfold resolveImageBinding
  refine returns_bind (find_permitted _ _) ?_
  rintro later sts after rfl
  refine returns_bind (need_permitted _) ?_
  rintro later _ _ ⟨rfl,owned⟩
  cases bound : c.metadata.status.imageBinding with
  | some binding =>
    refine returns_bind (approve_permitted _) ?_
    rintro later a _ ⟨rfl,trusted⟩
    refine returns_bind (need_permitted _) ?_
    rintro later _ _ ⟨rfl,matching⟩
    refine returns_bind verify_permitted ?_
    rintro later _ after' ⟨pods,rfl,silent⟩
    exact returns_pure (fun _ => ⟨⟨binding,bound,trusted⟩,sts,(found_answer sts).mono after',
      fun s member => ⟨owned s member,matching s member⟩,pods,List.mem_cons_self,silent⟩)
  | none =>
    refine returns_bind proposed_permitted ?_
    intro later a after' origin
    refine returns_bind (bindImages_permitted (works.mono (after.trans after')) alive bound origin ((found_answer sts).mono after') owned) ?_
    intro later _ _ _
    exact returns_pure (fun wrong => by cases wrong)

/-! No rejection is called a suspension. -/

def Plain (e : Error) : Prop := ∀ reason message, e = .own (.rejected reason message) → reason ≠ "Suspended"

theorem throws_ask {r : Request scheme} : Throws Plain (ask r) := by
  intro past
  refine ⟨trivial,fun x => ?_⟩
  cases x with
  | ok v => exact fun e wrong => by cases wrong
  | error failure =>
    intro e same reason message wrong
    cases same
    cases wrong

theorem throws_find {k : Kind} {n : k.Name} : Throws Plain (find k n) := by
  intro past
  refine ⟨trivial,fun x => ?_⟩
  cases x with
  | ok v => exact fun e wrong => by cases wrong
  | error failure =>
    cases failure with
    | notFound => exact fun e wrong => by cases wrong
    | conflict | alreadyExists | refused =>
      intro e same reason message wrong
      cases same
      cases wrong

theorem throws_need {condition : Prop} [Decidable condition] {stop : Stop} (plain : Plain (.own stop)) : Throws Plain (need condition stop) := by
  unfold need Prog.require
  split
  · exact throws_pure _
  · exact throws_throw plain

theorem plain_rejected {reason message : String} (other : reason ≠ "Suspended") : Plain (.own (.rejected reason message)) := by
  intro reason' message' same
  cases same
  exact other

theorem throws_reject {α : Type} {reason message : String} (other : reason ≠ "Suspended") : Throws Plain (reject reason message : Io α) :=
  throws_throw (plain_rejected other)

theorem throws_approve {α : Type} {reason : String} {x : Except String α} (other : reason ≠ "Suspended") : Throws Plain (approve reason x) := by
  cases x with
  | ok a => exact throws_pure a
  | error message => exact throws_reject other

theorem verify_throws {sts : Option Workload} {images : Images} : Throws Plain (verifyWorkloadPods c sts images) := by
  refine throws_bind throws_ask (fun pods => ?_)
  split
  · rename_i stop objected
    refine throws_throw ?_
    obtain ⟨pod,_,objected⟩ := List.exists_of_findSome?_eq_some objected
    unfold objection at objected
    split at objected
    · cases objected
    · split at objected
      · cases objected
        exact plain_rejected (by decide)
      · split at objected
        · cases objected
          refine plain_rejected ?_
          split
          · decide
          · decide
        · cases objected
  · exact throws_pure _

theorem retained_throws : Throws Plain (retainedImageAdapter codec c) := by
  have other : "RetainedImagesRejected" ≠ "Suspended" := by decide
  refine throws_bind throws_find (fun found => ?_)
  cases found with
  | none => exact throws_reject other
  | some pvc =>
    cases c.spec.storage.reclaim with
    | none => exact throws_reject other
    | some claim =>
      refine throws_bind (throws_need (plain_rejected other)) (fun _ => ?_)
      cases pvc.metadata.retainedImagesName with
      | none => exact throws_reject other
      | some name =>
        cases pvc.metadata.retainedImagesUid with
        | none => exact throws_reject other
        | some uid =>
          refine throws_bind throws_find (fun found => ?_)
          cases found with
          | none => exact throws_reject other
          | some record =>
            refine throws_bind (throws_need (plain_rejected other)) (fun _ => ?_)
            refine throws_bind (throws_need (plain_rejected other)) (fun _ => ?_)
            split
            · exact throws_reject other
            · exact throws_bind (throws_need (plain_rejected other)) (fun _ => throws_approve other)

theorem default_throws {sts : Option Workload} : Throws Plain (defaultAdapter settings.approved c sts) := by
  refine throws_bind (throws_approve (by decide)) (fun a => ?_)
  cases sts with
  | some sts => exact throws_pure _
  | none =>
    refine throws_bind (throws_need (plain_rejected (by decide))) (fun _ => throws_bind throws_find (fun found => ?_))
    cases found with
    | none => exact throws_pure _
    | some pvc => exact throws_reject (by decide)

theorem resolve_throws : Throws Plain (resolveImageBinding t codec settings c) := by
  refine throws_bind throws_find (fun sts => throws_bind (throws_need (plain_rejected (by decide))) (fun _ => ?_))
  cases c.metadata.status.imageBinding with
  | some binding =>
    refine throws_bind (throws_approve (by decide)) (fun a => throws_bind (throws_need (plain_rejected (by decide))) (fun _ => ?_))
    exact throws_bind verify_throws (fun _ => throws_pure _)
  | none =>
    have proposed : Throws Plain (proposedAdapter codec settings c sts) := by
      unfold proposedAdapter
      split
      · exact retained_throws
      · exact default_throws
    refine throws_bind proposed (fun a => throws_bind ?_ (fun _ => throws_pure _))
    refine throws_bind (throws_need (plain_rejected (by decide))) (fun _ => throws_bind verify_throws (fun _ => ?_))
    refine throws_bind (throws_approve (by decide)) (fun _ => throws_bind throws_ask (fun _ => throws_bind throws_ask (fun _ => ?_)))
    exact throws_need (plain_rejected (by decide))

/-! ### Suspension -/

theorem reportStopped_permitted {reason : String} (works : Works past key w.read) (alive : w.read.deleting = false)
    (asked : suspended w.read = true) (workload : Absent past .workload w.read.key ∨ ∃ sts, Read past .workload w.read.key sts ∧
      ownedWorkload w.read sts = true ∧ (scaled sts = true ∨
        (⟨Request.patch Kind.workload w.read.key sts.version sts.metadata { sts.spec with replicas := some 0 },.ok ()⟩ : Happened) ∈ past)) :
    Permitted t codec key settings past (reportStopped w reason) := by
  unfold reportStopped
  refine returns_bind (list_permitted _ _) ?_
  rintro later pods after rfl
  split
  · exact report_waiting (works.mono after) alive (by decide)
  · rename_i none_
    have empty : pods = [] := not_not.mp none_
    subst empty
    refine report_permitted (works.mono after) alive (fun x wrong => by cases wrong) (fun _ => ⟨asked,?_,List.mem_cons_self⟩)
    rcases workload with absent | ⟨sts,read,owned,down⟩
    · exact .inl (after.subset absent)
    · exact .inr ⟨sts,after.subset read,owned,down.imp_right (fun done => after.subset done)⟩

theorem suspend_permitted {reason : String} (works : Works past key w.read) (alive : w.read.deleting = false)
    (asked : suspended w.read = true) : Permitted t codec key settings past (suspendBoundWorkload w reason) := by
  unfold suspendBoundWorkload
  refine returns_bind (find_permitted _ _) ?_
  rintro later found after rfl
  cases found with
  | none => exact reportStopped_permitted (works.mono after) alive asked (.inl List.mem_cons_self)
  | some sts =>
    dsimp only
    split
    · exact report_waiting (works.mono after) alive (by decide)
    · rename_i owned
      have owned : ownedWorkload w.read sts = true := by simpa using owned
      split
      · rename_i down
        exact reportStopped_permitted (works.mono after) alive asked (.inr ⟨sts,List.mem_cons_self,owned,.inl down⟩)
      · refine returns_bind (ask_permitted ⟨w.read,works.mono after,.stopped (.inr asked) List.mem_cons_self owned⟩) ?_
        rintro later ⟨⟩ after' rfl
        exact reportStopped_permitted (works.mono (after.trans after')) alive asked
          (.inr ⟨sts,List.mem_cons_of_mem _ List.mem_cons_self,owned,.inr List.mem_cons_self⟩)

/-! ### `reclaimVolume` -/

theorem reclaim_permitted {claim : Reclaim} (works : Works past key c) (alive : c.deleting = false)
    (asked : c.spec.storage.reclaim = some claim) : Permitted t codec key settings past (reclaimVolume t c claim) := by
  unfold reclaimVolume
  refine returns_bind (need_permitted _) ?_
  rintro later _ _ ⟨rfl,other⟩
  refine returns_bind (get_permitted _ _) ?_
  rintro later pvc after rfl
  refine returns_bind (need_permitted _) ?_
  rintro later _ _ ⟨rfl,reclaimable⟩
  refine returns_bind (need_permitted _) ?_
  rintro later _ _ ⟨rfl,class_⟩
  refine returns_bind (need_permitted _) ?_
  rintro later _ _ ⟨rfl,modes⟩
  refine returns_bind (need_permitted _) ?_
  rintro later _ _ ⟨rfl,fits⟩
  refine returns_bind (need_permitted _) ?_
  rintro later _ _ ⟨rfl,owner⟩
  refine returns_bind (need_permitted _) ?_
  rintro later _ _ ⟨rfl,marker⟩
  split
  · trivial
  · rename_i foreign
    refine returns_bind (list_permitted _ _) ?_
    rintro later pods after' rfl
    refine returns_bind (need_permitted _) ?_
    rintro later _ _ ⟨rfl,unmounted⟩
    exact returns_mono (ask_permitted ⟨c,works.mono (after.trans after'),.reclaimed alive asked other
      (List.mem_cons_of_mem _ List.mem_cons_self) reclaimable class_ modes fits (owner.resolve_left foreign) marker List.mem_cons_self
      unmounted⟩) (fun _ _ _ _ => trivial)

/-! ### Looking at what runs -/

theorem failedWith_permitted {α : Type} {x : Except String α} : Licensed (permit t codec key settings)
    (Returns (fun later a => later = past ∧ x = .ok a)) past (failedWith x) := by
  cases x with
  | ok a => exact ⟨rfl,rfl⟩
  | error message => trivial

theorem routesReady_permitted {g : GatewayConfig} {ds : List Desired} : Licensed (permit t codec key settings)
    (Returns (fun later ready => ready = true → ∀ n m parent host service port, Desired.child n m (.route parent host service port) ∈ ds →
      ∃ route, Read later .child n route ∧ routeReady g c (.route parent host service port) route = true)) past (routesReady g c ds) := by
  induction ds generalizing past with
  | nil => exact returns_pure (fun _ n m parent host service port member => by cases member)
  | cons d rest ih =>
    -- an object that is no route is skipped
    have skip : (∀ n m parent host service port, d ≠ .child n m (.route parent host service port)) →
        Licensed (permit t codec key settings) (Returns (fun later ready => ready = true → ∀ n m parent host service port,
          Desired.child n m (.route parent host service port) ∈ d :: rest →
            ∃ route, Read later .child n route ∧ routeReady g c (.route parent host service port) route = true)) past
          (routesReady g c rest) := by
      intro other
      refine returns_mono ih (fun later ready _ all ok n m parent host service port member => ?_)
      exact all ok n m parent host service port ((List.mem_cons.mp member).resolve_left (fun same => other n m parent host service port same.symm))
    cases d with
    | volume n m s => exact skip (fun _ _ _ _ _ _ wrong => by cases wrong)
    | config n m s => exact skip (fun _ _ _ _ _ _ wrong => by cases wrong)
    | workload n m s => exact skip (fun _ _ _ _ _ _ wrong => by cases wrong)
    | child n m s =>
      cases s with
      | service selector ports => exact skip (fun _ _ _ _ _ _ wrong => by cases wrong)
      | policy selector ns label ports => exact skip (fun _ _ _ _ _ _ wrong => by cases wrong)
      | monitor spec => exact skip (fun _ _ _ _ _ _ wrong => by cases wrong)
      | route parent host service port =>
        refine returns_bind (find_permitted _ _) ?_
        rintro later found after rfl
        cases found with
        | none => exact returns_pure (fun wrong => by cases wrong)
        | some route =>
          dsimp only
          split
          · rename_i accepted
            refine returns_mono ih (fun later ready after' all ok n' m' parent' host' service' port' member => ?_)
            rcases List.mem_cons.mp member with same | member
            · cases same
              exact ⟨route,after'.subset List.mem_cons_self,accepted⟩
            · exact all ok n' m' parent' host' service' port' member
          · exact returns_pure (fun wrong => by cases wrong)

theorem gatewayReady_permitted {g : GatewayConfig} : Licensed (permit t codec key settings)
    (Returns (fun later ready => ready = true → Reachable t later c g)) past (gatewayReady t g c) := by
  unfold gatewayReady
  refine returns_bind (find_permitted _ _) ?_
  rintro later found after rfl
  cases found with
  | none => exact returns_pure (fun wrong => by cases wrong)
  | some gateway =>
    dsimp only
    split
    · exact returns_pure (fun wrong => by cases wrong)
    · rename_i ready
      refine returns_bind failedWith_permitted ?_
      rintro later objects _ ⟨rfl,rendered⟩
      refine returns_mono routesReady_permitted (fun later ok after' all yes => ?_)
      exact ⟨⟨gateway,after'.subset List.mem_cons_self,by simpa using ready⟩,objects,rendered,all yes⟩

/-- An answer of the API server is a value for the cleanup, if it is one. -/
theorem mapped_ok {α β : Type} {x : Except Failure α} {f : Failure → Cleanup.Error} {g : α → β} {b : β}
    (same : (x.mapError f).map g = .ok b) : ∃ a, x = .ok a ∧ g a = b := by
  cases x with
  | ok a =>
    cases same
    exact ⟨a,rfl,rfl⟩
  | error e => cases same

theorem cleanup_permitted {sts : Workload} (works : Works past key c) (read : Read past .workload c.key sts) :
    Licensed (permit t codec key settings) (Returns (fun _ _ => True)) past (cleanupConfigs c sts) := by
  have keeps := Cleanup.cleanupConfigs_licensed (seenInstance c) (seenWorkload sts)
  refine (licensed_translate keeps (.start past) ?_).mono (fun _ _ _ may => may) (fun later result _ _ => ?_)
  · intro seen past' r mirrors may
    have after := mirrors.suffix
    cases r with
    | listConfigs ns uid => trivial
    | listPods ns => trivial
    | getInstance k => trivial
    | getWorkload k => trivial
    | deleteConfig k uid version =>
      obtain ⟨config,justified,rfl,rfl,rfl⟩ := may
      obtain ⟨configs,listed,member⟩ := justified.listed
      obtain ⟨pods,seenPods,unmounted⟩ := justified.pods
      obtain ⟨_,latest,before,same,_,uid,version⟩ := justified.checked
      obtain ⟨x,answered,happened⟩ := mirrors.event listed
      obtain ⟨items,rfl,rfl⟩ := mapped_ok answered
      obtain ⟨item,inside,rfl⟩ := List.mem_map.mp member
      obtain ⟨y,answered',happened'⟩ := mirrors.event seenPods
      obtain ⟨items',rfl,rfl⟩ := mapped_ok answered'
      obtain ⟨z,answered'',seenLatest⟩ := mirrors.event (same ▸ List.mem_cons_self)
      obtain ⟨item',rfl,rfl⟩ := mapped_ok answered''
      obtain ⟨owner,controller,owned,_⟩ := justified.controller
      have unused : Unused past' c sts item := ⟨after.subset read,⟨items,happened,inside⟩,justified.template,
        ⟨items',happened',fun pod member => unmounted (seenPod pod) (List.mem_map_of_mem member)⟩,
        ⟨justified.immutable,owner,controller,owned⟩,item',seenLatest,uid,version⟩
      exact ⟨c,works.mono after,.config unused⟩
  · cases result with
    | ok a => trivial
    | error e => trivial

/-! ### The pass -/

theorem observe_permitted {a : Adapter} {secret : Secret} {objects : List Desired} (works : Works past key w.read)
    (provided : Provided t past w.read a secret objects) (applied : ∀ d ∈ prepared w.read secret objects, InPlace past d)
    (knows : ∀ n m s, Desired.workload n m s ∈ prepared w.read secret objects → Knows Kind.workload n s past)
    (reachable : exposed w.read = true → ∃ g, settings.gateway = some g) :
    Permitted t codec key settings past (observe t settings w a secret) := by
  have alive := provided.alive
  unfold observe
  refine returns_bind (get_permitted _ _) ?_
  rintro later sts after rfl
  refine returns_bind (get_permitted _ _) ?_
  rintro later pvc after' rfl
  have works := works.mono (after.trans after')
  split
  · exact report_waiting works alive (by decide)
  · rename_i phase
    split
    · exact report_waiting works alive (by decide)
    · rename_i rollout
      split
      · exact report_waiting works alive (by decide)
      · refine returns_attempt (ask_permitted trivial) ?_ (fun later _ after'' => report_waiting (works.mono after'') alive (by decide))
        rintro later ⟨⟩ after'' rfl
        refine returns_bind (cleanup_permitted (works.mono after'') (after''.subset (after'.subset List.mem_cons_self))) ?_
        intro later _ cleaned _
        -- what is verified, whatever the endpoints are
        have verified : ∀ final x, later <:+ final → x.configHash = sts.spec.template.configHash →
            x.credentialRevision = secret.version → (exposed w.read = true → ∃ g, settings.gateway = some g ∧
              Reachable t final w.read g ∧ x.endpoints = g.endpoints w.read) →
            Verified t settings final w.read a secret objects sts x := by
          intro final x ends hash revision reached
          have all := ((after'.trans after'').trans cleaned).trans ends
          exact ⟨provided.mono (after.trans all),fun d member => (applied d member).mono (after.trans all),⟨past,all,knows⟩,
            by simpa using rollout,⟨pvc,((after''.trans cleaned).trans ends).subset List.mem_cons_self,not_not.mp phase⟩,
            (cleaned.trans ends).subset List.mem_cons_self,reached,hash,revision⟩
        have works := works.mono (after''.trans cleaned)
        split
        · rename_i g exposed' set
          refine returns_bind gatewayReady_permitted ?_
          intro final ready ends reached
          cases ready with
          | false => exact report_waiting (works.mono ends) alive (by decide)
          | true =>
            refine report_permitted (works.mono ends) alive (fun x same => ?_) (fun wrong => absurd wrong (by decide))
            cases same
            exact ⟨a,secret,objects,sts,verified final _ ends rfl rfl (fun _ => ⟨g,set,reached rfl,rfl⟩)⟩
        · rename_i inside
          refine report_permitted works alive (fun x same => ?_) (fun wrong => absurd wrong (by decide))
          cases same
          refine ⟨a,secret,objects,sts,verified later _ List.suffix_rfl rfl rfl (fun asked => ?_)⟩
          obtain ⟨g,set⟩ := reachable asked
          exact absurd set (inside g asked)

theorem workless_belong {among : ChildName → Bool} {objects : List Desired} (belong : Belong c among objects) :
    Workless (objects.map (control c)) := by
  intro d member n m s wrong
  obtain ⟨d',inside,rfl⟩ := List.mem_map.mp member
  obtain ⟨name,spec,rfl,_⟩ := belong d' inside
  cases wrong

theorem applyGateway_permitted {g : GatewayConfig} (works : Works past key c) (set : settings.gateway = some g)
    (alive : c.deleting = false) (asked : exposed c = true ∧ running c = true)
    (held : c.metadata.finalizers.cleanup = true ∧ c.metadata.finalizers.gateway = true) (bound : ∃ a, Bound c a) :
    Licensed (permit t codec key settings) (Returns (fun later _ => KeepsWorkload past later)) past (applyGateway t g c) := by
  unfold applyGateway
  refine returns_bind failedWith_permitted ?_
  rintro later objects _ ⟨rfl,rendered⟩
  refine returns_mono (applyAll_permitted works (fun d member => .gateway set alive asked held rendered member bound)) ?_
  exact fun _ _ _ ⟨_,aside,_⟩ => aside (workless_belong (gateway_belong rendered))

theorem applyMonitoring_permitted {m : MonitoringConfig} (works : Works past key w.read) (alive : w.read.deleting = false)
    (asked : monitored settings w.read = some m)
    (held : w.read.metadata.finalizers.cleanup = true ∧ w.read.metadata.finalizers.monitoring = true)
    (bound : ∃ a, Bound w.read a) : Licensed (permit t codec key settings)
    (Returns (fun _ w' => w'.read = w.read)) past (applyMonitoring t m w) := by
  have applies : Permitted t codec key settings past (do
      let objects ← failedWith (m.render t.library w.read)
      applyAll (objects.map (control w.read))) := by
    refine returns_bind failedWith_permitted ?_
    rintro later objects _ ⟨rfl,rendered⟩
    exact returns_mono (applyAll_permitted works (fun d member => .monitoring alive asked held rendered member bound))
      (fun _ _ _ _ => trivial)
  exact returns_attempt applies (fun _ _ _ _ => returns_pure rfl) (fun _ _ _ => returns_pure rfl)

/-- What a pass has found in order before it provisions anything. -/
structure Tracked (settings : Settings) (c : Instance) : Prop where
  alive : c.deleting = false
  cleanup : c.metadata.finalizers.cleanup = true
  gateway : exposed c = true → running c = true → c.metadata.finalizers.gateway = true
  configured : exposed c = true → suspended c = false → ∃ g, settings.gateway = some g
  monitoring : (monitored settings c).isSome = true → c.metadata.finalizers.monitoring = true

theorem exposeAndObserve_permitted {a : Adapter} {secret : Secret} {objects : List Desired} (works : Works past key w.read)
    (tracked : Tracked settings w.read) (provided : Provided t past w.read a secret objects)
    (applied : ∀ d ∈ prepared w.read secret objects, InPlace past d)
    (knows : ∀ n m s, Desired.workload n m s ∈ prepared w.read secret objects → Knows Kind.workload n s past) :
    Permitted t codec key settings past (exposeAndObserve t settings w a secret) := by
  have configured : exposed w.read = true → ∃ g, settings.gateway = some g := fun asked => tracked.configured asked provided.active
  unfold exposeAndObserve
  split
  · rename_i g both set
    obtain ⟨exposed',running'⟩ := Bool.and_eq_true_iff.mp both
    refine returns_attempt (applyGateway_permitted works set tracked.alive ⟨exposed',running'⟩
      ⟨tracked.cleanup,tracked.gateway exposed' running'⟩ ⟨a,provided.bound⟩) ?_
      (fun later _ after => report_waiting (works.mono after) tracked.alive (by decide))
    intro later _ after aside
    exact observe_permitted (works.mono after) (provided.mono after) (fun d member => (applied d member).mono after)
      (fun n m s member => aside n s (knows n m s member)) configured
  · exact observe_permitted works provided applied knows configured

theorem monitor_permitted (works : Works past key w.read) (tracked : Tracked settings w.read) (bound : ∃ a, Bound w.read a) :
    Licensed (permit t codec key settings) (Returns (fun _ w' => w'.read = w.read)) past (monitor t settings w) := by
  unfold monitor
  split
  · rename_i m active
    exact applyMonitoring_permitted works tracked.alive active ⟨tracked.cleanup,tracked.monitoring (by rw [active]; rfl)⟩ bound
  · exact returns_pure rfl

theorem deploy_permitted {a : Adapter} {secret : Secret} {objects : List Desired} (works : Works past key w.read)
    (tracked : Tracked settings w.read) (provided : Provided t past w.read a secret objects) :
    Permitted t codec key settings past (deploy t settings w a objects secret) := by
  unfold deploy
  refine returns_bind (monitor_permitted works tracked ⟨a,provided.bound⟩) ?_
  intro later w' after same
  rw [← same] at works tracked provided
  have wanted : ∀ d ∈ prepared w'.read secret objects, Wanted t settings later w'.read d := fun d member => .cache (provided.mono after) member
  refine returns_attempt (applyAll_permitted (works.mono after) wanted) ?_ ?_
  · intro final _ after' ⟨applied,_,last⟩
    refine exposeAndObserve_permitted (works.mono (after.trans after')) tracked (provided.mono (after.trans after')) applied ?_
    intro n m s member
    obtain ⟨before,m',s',split,others⟩ := (provided_whole provided).workload
    have mapped : prepared w'.read secret objects = before.map (fun d => control w'.read (label w'.read secret d)) ++
        [control w'.read (label w'.read secret (.workload w'.read.key m' s'))] := by
      rw [prepared,split,List.map_append]
      rfl
    rw [mapped] at member
    rcases List.mem_append.mp member with member | member
    · obtain ⟨d,inside,wrong⟩ := List.mem_map.mp member
      cases d with
      | workload n' m' s' => exact absurd rfl (others _ inside n' m' s')
      | volume n' m' s' => cases wrong
      | config n' m' s' => cases wrong
      | child n' m' s' => cases wrong
    · cases List.mem_singleton.mp member
      exact last _ _ _ _ mapped
  · intro final e after'
    cases e with
    | own stop => exact report_waiting (works.mono (after.trans after')) tracked.alive (by decide)
    | api failure =>
      cases failure with
      | conflict => exact returns_throw _
      | notFound | alreadyExists | refused => exact report_waiting (works.mono (after.trans after')) tracked.alive (by decide)

theorem reclaimAndDeploy_permitted {a : Adapter} {secret : Secret} {objects : List Desired} (works : Works past key w.read)
    (tracked : Tracked settings w.read) (provided : Provided t past w.read a secret objects) :
    Permitted t codec key settings past (reclaimAndDeploy t settings w a objects secret) := by
  unfold reclaimAndDeploy
  cases asked : w.read.spec.storage.reclaim with
  | none => exact deploy_permitted works tracked provided
  | some claim =>
    refine returns_attempt (reclaim_permitted works tracked.alive asked) ?_ ?_
    · intro later _ after _
      exact deploy_permitted (works.mono after) tracked (provided.mono after)
    · intro later e after
      split
      · exact report_waiting (works.mono after) tracked.alive (by decide)
      · exact report_waiting (works.mono after) tracked.alive (by decide)
      · rename_i wrong
        cases wrong

theorem provision_permitted {a : Adapter} (works : Works past key w.read) (tracked : Tracked settings w.read)
    (active : suspended w.read = false) (bound : Bound w.read a) (vetted : ∃ sts, Vetted past w.read sts a.images) :
    Permitted t codec key settings past (provision t settings w a) := by
  unfold provision
  dsimp only
  cases rendered : a.render t w.read w.read.spec.eviction.enginePolicy with
  | error message => exact report_waiting works tracked.alive (by decide)
  | ok objects =>
    refine returns_bind (find_permitted _ _) ?_
    rintro later found after rfl
    cases found with
    | none => exact report_waiting (works.mono after) tracked.alive (by decide)
    | some secret =>
      dsimp only
      split
      · exact report_waiting (works.mono after) tracked.alive (by decide)
      · rename_i trusted
        obtain ⟨instance_,rest⟩ := not_or.mp trusted
        obtain ⟨project,content⟩ := not_or.mp rest
        obtain ⟨sts,vetted⟩ := vetted
        exact reclaimAndDeploy_permitted (works.mono after) tracked ⟨tracked.alive,active,bound,⟨sts,vetted.mono after⟩,rendered,
          List.mem_cons_self,not_not.mp instance_,not_not.mp project,content⟩

theorem reconcileBound_permitted (works : Works past key w.read) (tracked : Tracked settings w.read) :
    Permitted t codec key settings past (reconcileBound t codec settings w) := by
  have alive := tracked.alive
  unfold reconcileBound
  refine (licensed_attempt _ _).mpr (((resolve_permitted works alive).and (resolve_throws past)).mono (fun _ _ _ may => may.1) ?_)
  intro later result after ⟨returns,throws⟩
  have works := works.mono after
  cases result with
  | ok pair =>
    obtain ⟨a,pending⟩ := pair
    cases pending with
    | true => exact returns_pure trivial
    | false =>
      obtain ⟨bound,vetted⟩ := returns rfl
      dsimp only
      split
      · rename_i asked
        exact suspend_permitted works alive asked
      · rename_i active
        exact provision_permitted works tracked (Bool.not_eq_true _ ▸ active) bound vetted
  | error e =>
    cases e with
    | api failure => exact returns_throw _
    | own stop =>
      cases stop with
      | requeue | reclaimBindingPending | failed => exact returns_throw _
      | rejected reason message =>
        have plain := throws _ rfl reason message rfl
        have same : (if reason = "ImageBindingPersistenceRequired" then (⟨w.read,w.read.metadata.status.conditions⟩ : Working) else w).read =
            w.read := by
          split
          · rfl
          · rfl
        dsimp only
        generalize (if reason = "ImageBindingPersistenceRequired" then (⟨w.read,w.read.metadata.status.conditions⟩ : Working) else w) = w'
          at same ⊢
        rw [← same] at works alive
        split
        · rename_i asked
          exact suspend_permitted works alive asked
        · exact report_waiting works alive plain

/-! ### Finalizers -/

/-- Nothing was created while children were removed. -/
theorem removeChildren_quiet {message : String} {names : List ChildName} (works : Works past key c) (unexposed : Unexposed past)
    (tracked : ∀ name ∈ names, name ∈ gatewayChildren ∨ name ∈ monitoringChildren) : Licensed (permit t codec key settings)
    (fun later result => Unexposed later ∧ (result = .ok false → ∀ name ∈ names, Absent later .child (c.key,name))) past
    (removeChildren c message names) := by
  refine ((removeChildren_permitted works tracked).and (unexposed_only (removeChildren_only message names) unexposed)).mono
    (fun _ _ _ may => may.1) ?_
  intro later result _ ⟨gone,unexposed⟩
  refine ⟨unexposed,fun same => ?_⟩
  cases same
  exact gone rfl

theorem setFinalizers_permitted {p : Finalizers} (works : Works past key c) (alive : c.deleting = false)
    (marks : Marks settings past c p) (unexposed : Unexposed past) : Permitted t codec key settings past (setFinalizers c p) :=
  returns_mono (ask_permitted ⟨c,works,alive,rfl,marks,unexposed⟩) (fun _ _ _ _ => trivial)

theorem reconcileExposure_permitted (same : w.read = c) (works : Works past key c) (alive : c.deleting = false)
    (cleanup : c.metadata.finalizers.cleanup = true) (unexposed : Unexposed past)
    (monitoring : (monitored settings c).isSome = true → c.metadata.finalizers.monitoring = true) :
    Permitted t codec key settings past (reconcileExposure t codec settings w) := by
  subst same
  unfold reconcileExposure
  dsimp only
  split
  · exact report_waiting works alive (by decide)
  · rename_i configured
    split
    · exact setFinalizers_permitted works alive (.expose cleanup) unexposed
    · rename_i held
      split
      · rename_i ended
        have ended : exposed w.read = false ∨ suspended w.read = true := by
          simpa using (Bool.and_eq_true_iff.mp ended).2
        refine licensed_then (removeChildren_quiet works unexposed (fun name member => .inl member)) ?_ (fun _ _ _ _ => trivial)
        intro later pending after ⟨unexposed,gone⟩
        cases pending with
        | true => exact report_waiting (works.mono after) alive (by decide)
        | false => exact setFinalizers_permitted (works.mono after) alive (.withdraw cleanup ended (gone rfl)) unexposed
      · refine reconcileBound_permitted works ⟨alive,cleanup,fun exposed' running' => ?_,fun exposed' active => ?_,monitoring⟩
        · simpa [exposed',running'] using held
        · simp only [exposed',active,Bool.true_and,Bool.not_false,Option.isNone_iff_eq_none] at configured
          exact Option.ne_none_iff_exists'.mp configured

theorem reconcileMonitoring_permitted (works : Works past key c) (alive : c.deleting = false)
    (cleanup : c.metadata.finalizers.cleanup = true) (unexposed : Unexposed past) :
    Permitted t codec key settings past (reconcileMonitoring t codec settings c) := by
  unfold reconcileMonitoring
  dsimp only
  split
  · split
    · exact setFinalizers_permitted works alive (.monitor cleanup) unexposed
    · rename_i held
      refine reconcileExposure_permitted ?_ works alive cleanup unexposed (fun _ => by simpa using held)
      split
      · rfl
      · rfl
  · rename_i inactive
    split
    · exact reconcileExposure_permitted rfl works alive cleanup unexposed (fun active => absurd active inactive)
    · refine (licensed_attempt _ _).mpr ((removeChildren_quiet works unexposed (fun name member => .inr member)).mono
        (fun _ _ _ may => may) ?_)
      intro later result after ⟨unexposed,gone⟩
      have continues : Permitted t codec key settings later
          (reconcileExposure t codec settings (monitoringCondition ⟨c,c.metadata.status.conditions⟩ "Unknown" "CleanupPending")) :=
        reconcileExposure_permitted rfl (works.mono after) alive cleanup unexposed (fun active => absurd active inactive)
      cases result with
      | error e => exact continues
      | ok pending =>
        cases pending with
        | true => exact continues
        | false => exact setFinalizers_permitted (works.mono after) alive (.unmonitor cleanup (Option.not_isSome_iff_eq_none.mp inactive) (gone rfl)) unexposed

/-! ### `finalize` -/

theorem withdraw_permitted {held : Bool} {message : String} {names : List ChildName} (works : Works past key c)
    (tracked : ∀ name ∈ names, name ∈ gatewayChildren ∨ name ∈ monitoringChildren) : Licensed (permit t codec key settings)
    (Returns (fun later _ => held = true → ∀ name ∈ names, Absent later .child (c.key,name))) past
    (withdraw held (removeChildren c message names)) := by
  unfold withdraw
  split
  · refine returns_bind (removeChildren_permitted works tracked) ?_
    intro later pending _ gone
    refine returns_mono (need_permitted _) ?_
    rintro later _ _ ⟨rfl,done⟩ _
    exact gone done
  · rename_i free
    exact returns_pure (fun held => absurd held free)

theorem removeService_permitted {name : ChildName} (works : Works past key c) (deleting : c.deleting = true) :
    Permitted t codec key settings past (removeService c name) := by
  unfold removeService
  refine returns_bind (find_permitted _ _) ?_
  rintro later found after rfl
  cases found with
  | none => exact returns_pure trivial
  | some svc =>
    refine returns_bind (need_permitted _) ?_
    rintro later _ _ ⟨rfl,own⟩
    exact delete_permitted ⟨c,works.mono after,.service deleting List.mem_cons_self own⟩

theorem stopWorkload_permitted (works : Works past key c) (deleting : c.deleting = true) : Licensed (permit t codec key settings)
    (Returns (fun later _ => Absent later .workload c.key ∨ ∃ sts, Read later .workload c.key sts ∧ ownedWorkload c sts = true ∧
      scaled sts = true)) past (stopWorkload c) := by
  unfold stopWorkload
  refine returns_bind (find_permitted _ _) ?_
  rintro later found after rfl
  cases found with
  | none => exact returns_pure (.inl List.mem_cons_self)
  | some sts =>
    refine returns_bind (need_permitted _) ?_
    rintro later _ _ ⟨rfl,owned⟩
    split
    · rename_i down
      exact returns_pure (.inr ⟨sts,List.mem_cons_self,owned,down⟩)
    · refine returns_bind (ask_permitted ⟨c,works.mono after,.stopped (.inl deleting) List.mem_cons_self owned⟩) ?_
      intro _ _ _ _
      exact returns_throw _

theorem retainImages_permitted {pvc : Volume} {sts : Option Workload} (works : Works past key c) (deleting : c.deleting = true)
    (retain : c.spec.storage.deletionPolicy = .retain) (read : Read past .volume c.key pvc)
    (own : pvc.metadata.labels.instanceUid = some c.uid) : Permitted t codec key settings past (retainImages codec c pvc sts) := by
  unfold retainImages
  cases bound : c.metadata.status.imageBinding with
  | none => exact returns_pure trivial
  | some binding =>
    dsimp only
    cases trusted : trustedBinding c binding with
    | error message => exact returns_pure trivial
    | ok a =>
      dsimp only
      split
      · exact returns_pure trivial
      · refine returns_bind (findOrCreate_returns (fun _ _ => trivial)
          (fun later after => ⟨c,works.mono after,.record deleting (after.subset read) own bound trusted⟩)) ?_
        intro later record after seen
        split
        · exact returns_pure trivial
        · rename_i unchanged
          split
          · exact returns_pure trivial
          · refine returns_mono (ask_permitted ⟨c,works.mono after,.recorded deleting retain (after.subset read) own bound trusted seen ?_⟩)
              (fun _ _ _ _ => trivial)
            simpa using unchanged

theorem releaseVolume_permitted {sts : Option Workload} (works : Works past key c) (deleting : c.deleting = true)
    (pods : Listed past .pod (c.key.1,some c.uid) []) : Licensed (permit t codec key settings)
    (Returns (fun later _ => Absent later .volume c.key ∨ c.spec.storage.deletionPolicy = .retain)) past (releaseVolume codec c sts) := by
  unfold releaseVolume
  refine returns_bind (find_permitted _ _) ?_
  rintro later found after rfl
  cases found with
  | none => exact returns_pure (.inl List.mem_cons_self)
  | some pvc =>
    refine returns_bind (need_permitted _) ?_
    rintro later _ _ ⟨rfl,own⟩
    cases policy : c.spec.storage.deletionPolicy with
    | delete =>
      refine returns_bind (delete_permitted ⟨c,works.mono after,.volume deleting policy List.mem_cons_self own (after.subset pods)⟩) ?_
      intro _ _ _ _
      exact returns_throw _
    | retain =>
      exact returns_mono (retainImages_permitted (works.mono after) deleting policy List.mem_cons_self own) (fun _ _ _ _ => .inr rfl)

theorem finalize_permitted (works : Works past key c) (deleting : c.deleting = true) :
    Permitted t codec key settings past (finalize codec c) := by
  unfold finalize
  split
  · rename_i held
    refine returns_bind (withdraw_permitted works (fun name member => .inl member)) ?_
    intro later _ after gateway
    refine returns_bind (withdraw_permitted (works.mono after) (fun name member => .inr member)) ?_
    intro later' _ after' monitoring
    have seen := after.trans after'
    refine returns_bind (removeService_permitted (works.mono seen) deleting) ?_
    intro later'' _ after'' _
    refine returns_bind (removeService_permitted (works.mono (seen.trans after'')) deleting) ?_
    intro last _ after''' _
    have since := after''.trans after'''
    refine returns_bind (stopWorkload_permitted (works.mono (seen.trans since)) deleting) ?_
    intro stopped sts ends workload
    refine returns_bind (list_permitted _ _) ?_
    rintro listed pods ends' rfl
    refine returns_bind (need_permitted _) ?_
    rintro _ _ _ ⟨rfl,empty⟩
    subst empty
    have all := (seen.trans since).trans (ends.trans ends')
    refine returns_bind (releaseVolume_permitted (works.mono all) deleting List.mem_cons_self) ?_
    intro final _ ends'' volume
    refine returns_mono (ask_permitted ⟨c,works.mono (all.trans ends''),.released ⟨deleting,held,?_,?_,?_,?_,volume⟩⟩)
      (fun _ _ _ _ => trivial)
    · exact fun tracked name member => (after'.trans (since.trans (ends.trans (ends'.trans ends'')))).subset (gateway tracked name member)
    · exact fun tracked name member => (since.trans (ends.trans (ends'.trans ends''))).subset (monitoring tracked name member)
    · rcases workload with absent | ⟨sts,read,owned,down⟩
      · exact .inl ((ends'.trans ends'').subset absent)
      · exact .inr ⟨sts,(ends'.trans ends'').subset read,owned,down⟩
    · exact ends''.subset List.mem_cons_self
  · exact returns_pure trivial

/-! ### `Reconcile` -/

/-- Every request of a pass comes with its evidence, whatever the answers are. -/
theorem reconcile_permitted (t : Toolkit) (codec : Codec) (settings : Settings) (key : Key) :
    Licensed (permit t codec key settings) (fun _ _ => True) [] (reconcile t codec settings key) := by
  have keeps : Permitted t codec key settings [] (reconcile t codec settings key) := by
    unfold reconcile
    refine returns_bind (find_permitted _ _) ?_
    rintro later found _ rfl
    cases found with
    | none => exact returns_pure trivial
    | some c =>
      refine returns_bind (find_permitted _ _) ?_
      rintro later project after rfl
      cases project with
      | none => exact returns_pure trivial
      | some ns =>
        dsimp only
        split
        · exact returns_pure trivial
        · rename_i own
          obtain ⟨managed,project⟩ := not_or.mp own
          have works : Works [⟨Request.get Kind.project key.1,answerOf (some ns)⟩,⟨Request.get Kind.cacheInstance key,answerOf (some c)⟩]
              key c := ⟨after,ns,List.mem_cons_self,by simpa using managed,not_not.mp project⟩
          have unexposed : Unexposed [⟨Request.get Kind.project key.1,answerOf (some ns)⟩,
              ⟨Request.get Kind.cacheInstance key,answerOf (some c)⟩] := by
            intro n m s x member
            rcases List.mem_cons.mp member with wrong | member
            · cases wrong
            · cases List.mem_singleton.mp member
          split
          · rename_i deleting
            exact finalize_permitted works deleting
          · rename_i alive
            have alive : c.deleting = false := by simpa using alive
            split
            · rename_i new
              exact setFinalizers_permitted works alive (.first (by simpa using new)) unexposed
            · rename_i held
              exact reconcileMonitoring_permitted works alive (by simpa using held) unexposed
  exact keeps.mono (fun _ _ _ may => may) (fun _ _ _ _ => trivial)

end
end Expbuild.Permissions
