import Expbuild.Objects
import Expbuild.Programs
import Expbuild.Runs
import Expbuild.ApiServer

/-!
`cleanupConfigs`: after a rollout the operator deletes the configurations that nothing
refers to any more, while the instance, its workload and everything else may change
between any two of its requests. What it deletes is as it was listed, its instance's
own, and named by no template and no Pod that it looked at (`cleanup_spares`).
-/
namespace Expbuild.Cleanup
open Expbuild.Contract Expbuild.Schema Expbuild.Tables Expbuild.Objects Expbuild.Programs Expbuild.Runs
open Expbuild.Calls (Key)
open Expbuild.ApiServer (Object Meta)

/-! ### References -/

/-- A volume of a Pod: the name of its ConfigMap, and those of its projected sources. -/
structure Volume where
  configMap : Option String := none
  projected : Option (List (Option String)) := none
  deriving DecidableEq,Repr
/-- The environment of a container: of every variable its source, if it has one, with
    the name of the ConfigMap of a `configMapKeyRef`; of every source of `envFrom` the
    name of a `configMapRef`. -/
structure Container where
  env : List (Option (Option String)) := []
  envFrom : List (Option String) := []
  deriving DecidableEq,Repr
structure PodSpec where
  volumes : List Volume := []
  containers : List Container := []
  initContainers : List Container := []
  ephemeralContainers : List Container := []
  deriving DecidableEq,Repr

/-- `keep[name] = true`, where there is a name. -/
def note (keep : List String) : Option String → List String
  | some name => name :: keep
  | none => keep

def volumeReferences (keep : List String) (volume : Volume) : List String :=
  let keep := note keep volume.configMap
  match volume.projected with
  | some sources => sources.foldl note keep
  | none => keep

def environment (keep : List String) (container : Container) : List String :=
  let keep := container.env.foldl (fun keep entry => note keep (entry.bind id)) keep
  container.envFrom.foldl note keep

/-- The names that a Pod refers to, added to `keep`. -/
def configReferences (spec : PodSpec) (keep : List String) : List String :=
  let keep := spec.volumes.foldl volumeReferences keep
  let keep := spec.containers.foldl environment keep
  let keep := spec.initContainers.foldl environment keep
  spec.ephemeralContainers.foldl environment keep

/-- A container needs a ConfigMap of this name. -/
inductive Needs (container : Container) (name : String) : Prop where
  | entry (member : some (some name) ∈ container.env)
  | source (member : some name ∈ container.envFrom)

/-- A Pod refers to a ConfigMap of this name. -/
inductive Refers (spec : PodSpec) (name : String) : Prop where
  | volume {v : Volume} (member : v ∈ spec.volumes) (names : v.configMap = some name)
  | projected {v : Volume} {sources : List (Option String)} (member : v ∈ spec.volumes) (has : v.projected = some sources)
      (names : some name ∈ sources)
  | container {c : Container} (member : c ∈ spec.containers) (needs : Needs c name)
  | initContainer {c : Container} (member : c ∈ spec.initContainers) (needs : Needs c name)
  | ephemeralContainer {c : Container} (member : c ∈ spec.ephemeralContainers) (needs : Needs c name)

section
variable {α : Type} {name : String} {keep : List String}

/-- What a loop adds, it adds for one of the elements. -/
theorem mem_foldl {add : List String → α → List String} {adds : α → Prop} {xs : List α}
    (one : ∀ keep x, name ∈ add keep x ↔ name ∈ keep ∨ adds x) : name ∈ xs.foldl add keep ↔ name ∈ keep ∨ ∃ x ∈ xs, adds x := by
  induction xs generalizing keep with
  | nil => simp
  | cons x xs ih =>
    rw [List.foldl_cons,ih,one]
    simp only [List.mem_cons,exists_eq_or_imp]
    rw [or_assoc]

theorem mem_note {source : Option String} : name ∈ note keep source ↔ name ∈ keep ∨ source = some name := by
  cases source with
  | none => simp [note]
  | some other =>
    simp only [note,List.mem_cons,Option.some.injEq]
    rw [or_comm,eq_comm]

theorem mem_notes {sources : List (Option String)} : name ∈ sources.foldl note keep ↔ name ∈ keep ∨ some name ∈ sources := by
  have notes : name ∈ sources.foldl note keep ↔ name ∈ keep ∨ ∃ source ∈ sources, source = some name := mem_foldl (fun _ _ => mem_note)
  rw [notes]
  simp

theorem mem_volumeReferences {v : Volume} : name ∈ volumeReferences keep v ↔
    name ∈ keep ∨ (v.configMap = some name ∨ ∃ sources, v.projected = some sources ∧ some name ∈ sources) := by
  unfold volumeReferences
  cases v.projected with
  | none => simp [mem_note]
  | some sources => simp [mem_notes,mem_note,or_assoc]

theorem mem_environment {c : Container} : name ∈ environment keep c ↔ name ∈ keep ∨ Needs c name := by
  have entries : name ∈ c.env.foldl (fun keep entry => note keep (entry.bind id)) keep ↔
      name ∈ keep ∨ ∃ entry ∈ c.env, entry.bind id = some name := mem_foldl (fun _ _ => mem_note)
  show name ∈ c.envFrom.foldl note _ ↔ _
  rw [mem_notes,entries]
  constructor
  · rintro ((kept | ⟨entry,member,names⟩) | member)
    · exact .inl kept
    · cases entry with
      | none => cases names
      | some reference =>
        obtain rfl : reference = some name := names
        exact .inr (.entry member)
    · exact .inr (.source member)
  · rintro (kept | needs)
    · exact .inl (.inl kept)
    · cases needs with
      | entry member => exact .inl (.inr ⟨_,member,rfl⟩)
      | source member => exact .inr member

theorem mem_environments {containers : List Container} : name ∈ containers.foldl environment keep ↔
    name ∈ keep ∨ ∃ c ∈ containers, Needs c name := mem_foldl (fun _ _ => mem_environment)

/-- Exactly the names that a Pod refers to are kept. -/
theorem mem_configReferences {spec : PodSpec} : name ∈ configReferences spec keep ↔ name ∈ keep ∨ Refers spec name := by
  have volumes : name ∈ spec.volumes.foldl volumeReferences keep ↔ name ∈ keep ∨ ∃ v ∈ spec.volumes,
      v.configMap = some name ∨ ∃ sources, v.projected = some sources ∧ some name ∈ sources :=
    mem_foldl (fun _ _ => mem_volumeReferences)
  show name ∈ List.foldl environment _ spec.ephemeralContainers ↔ _
  rw [mem_environments,mem_environments,mem_environments,volumes]
  constructor
  · rintro ((((kept | ⟨v,member,names | ⟨sources,has,names⟩⟩) | ⟨c,member,needs⟩) | ⟨c,member,needs⟩) | ⟨c,member,needs⟩)
    · exact .inl kept
    · exact .inr (.volume member names)
    · exact .inr (.projected member has names)
    · exact .inr (.container member needs)
    · exact .inr (.initContainer member needs)
    · exact .inr (.ephemeralContainer member needs)
  · rintro (kept | refers)
    · exact .inl (.inl (.inl (.inl kept)))
    · cases refers with
      | volume member names => exact .inl (.inl (.inl (.inr ⟨_,member,.inl names⟩)))
      | projected member has names => exact .inl (.inl (.inl (.inr ⟨_,member,.inr ⟨_,has,names⟩⟩)))
      | container member needs => exact .inl (.inl (.inr ⟨_,member,needs⟩))
      | initContainer member needs => exact .inl (.inr ⟨_,member,needs⟩)
      | ephemeralContainer member needs => exact .inr ⟨_,member,needs⟩

end

/-! ### What the operator sees -/

structure OwnerReference where
  apiVersion : String
  kind : String
  name : ResourceName
  uid : KubeUid
  controller : Option Bool := none
  deriving DecidableEq,Repr
/-- `metav1.GetControllerOf` -/
def controllerOf (owners : List OwnerReference) : Option OwnerReference := owners.find? (fun owner => owner.controller = some true)

structure ConfigMeta where
  /-- The label with the identity of the instance. -/
  instanceUid : Option KubeUid := none
  owners : List OwnerReference := []
  deriving DecidableEq,Repr
structure ConfigBody where
  immutable : Option Bool := none
  data : List (String × String) := []
  deriving DecidableEq,Repr
structure StatefulSet where
  template : PodSpec
  replicas : Option Nat := none
  deriving DecidableEq,Repr
structure Pod where
  ns : Namespace
  spec : PodSpec
  deleting : Bool := false
  deriving DecidableEq,Repr

abbrev ConfigMap := Entry (Namespace × String) ConfigMeta ConfigBody
abbrev Workload := Entry Key Unit StatefulSet

structure Cluster where
  instances : Store Key Meta Spec := {}
  workloads : Store Key Unit StatefulSet := {}
  configs : Store (Namespace × String) ConfigMeta ConfigBody := {}
  pods : List Pod := []

inductive Error where
  | api (code : Option Nat)
  | changed (message : String)
  deriving DecidableEq,Repr

inductive Call where
  | listConfigs (ns : Namespace) (instanceUid : KubeUid)
  | listPods (ns : Namespace)
  | getInstance (k : Key)
  | getWorkload (k : Key)
  /-- A deletion under the preconditions of an identity and a version. -/
  | deleteConfig (k : Namespace × String) (uid version : Nat)
abbrev Call.Value : Call → Type
  | .listConfigs _ _ => List ConfigMap
  | .listPods _ => List Pod
  | .getInstance _ => Object
  | .getWorkload _ => Workload
  | .deleteConfig _ _ _ => Unit
abbrev Call.Answer (c : Call) : Type := Except Error c.Value

abbrev Io := Prog Call Call.Answer Error
def ask (c : Call) : Io c.Value := Prog.ask c

/-! ### The cleanup -/

def groupVersion : String := "cache.expbuild.io/v1alpha1"

/-- A configuration that the cleanup leaves alone. -/
def skips (instance_ : Object) (keep : List String) (config : ConfigMap) : Bool :=
  keep.contains config.key.2 || config.spec.immutable ≠ some true ||
    match controllerOf config.metadata.owners with
    | none => true
    | some owner => owner.uid ≠ instance_.uid || owner.kind ≠ "CacheInstance" || owner.name ≠ instance_.key.2 ||
        owner.apiVersion ≠ groupVersion

/-- Deletes the configurations that are not skipped, each after another look at the
    instance and the workload. -/
def removeConfigs (instance_ : Object) (workload : Workload) (keep : List String) : List ConfigMap → Io Unit
  | [] => return ()
  | config :: rest =>
    if skips instance_ keep config then removeConfigs instance_ workload keep rest
    else do
      let current ← ask (.getInstance instance_.key)
      Prog.require (current.uid = instance_.uid ∧ current.generation = instance_.generation ∧ current.deleting = false)
        (.changed "configuration changed during cleanup")
      let latest ← ask (.getWorkload workload.key)
      Prog.require (latest.uid = workload.uid ∧ latest.version = workload.version) (.changed "workload changed during cleanup")
      -- `client.IgnoreNotFound`
      tryCatch (ask (.deleteConfig config.key config.uid config.version))
        (fun e => if e = .api (some 404) then pure () else throw e)
      removeConfigs instance_ workload keep rest

def cleanupConfigs (instance_ : Object) (workload : Workload) : Io Unit := do
  let keep := configReferences workload.spec.template []
  let configs ← ask (.listConfigs instance_.key.1 instance_.uid)
  if configs = [] ∨ (configs.length = 1 ∧ configs.all (fun config => keep.contains config.key.2)) then return ()
  else do
    let pods ← ask (.listPods instance_.key.1)
    removeConfigs instance_ workload (pods.foldl (fun keep pod => configReferences pod.spec keep) keep) configs

/-! ### The cluster -/

def notFound : Error := .api (some 404)
def conflict : Error := .api (some 409)

def get {K M S : Type} [DecidableEq K] (s : Store K M S) (k : K) : Except Error (Entry K M S) :=
  match s.live.lookup k with
  | some e => .ok e
  | none => .error notFound

def listConfigs (c : Cluster) (ns : Namespace) (instanceUid : KubeUid) : List ConfigMap :=
  (c.configs.live.entries.map (fun row => row.2)).filter
    (fun e => e.key.1 = ns && e.metadata.instanceUid = some instanceUid)
def listPods (c : Cluster) (ns : Namespace) : List Pod := c.pods.filter (fun pod => pod.ns = ns)

def deleteConfig (c : Cluster) (k : Namespace × String) (uid version : Nat) : Except Error Cluster := do
  let e ← get c.configs k
  if e.uid = uid ∧ e.version = version then return { c with configs := c.configs.delete e } else throw conflict

def serve (c : Cluster) : (call : Call) → Except Error (Cluster × call.Value)
  | .listConfigs ns instanceUid => .ok (c,listConfigs c ns instanceUid)
  | .listPods ns => .ok (c,listPods c ns)
  | .getInstance k => (get c.instances k).map (fun e => (c,e))
  | .getWorkload k => (get c.workloads k).map (fun e => (c,e))
  | .deleteConfig k uid version => (deleteConfig c k uid version).map (fun c => (c,()))

/-- How a request goes: as it should, refused without an effect, or with its answer
    lost after it took effect. -/
inductive Fault where
  | delivered
  | refused (e : Error)
  | lost (e : Error)
  deriving DecidableEq,Repr

def perform (fault : Fault) (call : Call) (c : Cluster) : Cluster × call.Answer :=
  match fault,serve c call with
  | .delivered,.ok (after,v) => (after,.ok v)
  | .delivered,.error e => (c,.error e)
  | .refused e,_ => (c,.error e)
  | .lost e,.ok (after,_) => (after,.error e)
  | .lost e,.error _ => (c,.error e)

def program (arguments : Object × Workload) : Io Unit := cleanupConfigs arguments.1 arguments.2

/-- The cluster with any number of cleanups. -/
structure System where
  cluster : Cluster := {}
  /-- The clusters there were before, for the record. -/
  past : List Cluster := []
  threads : List (Thread program) := []

inductive Label where
  /-- A cleanup starts with an instance and a workload that were read before. -/
  | start (instance_ : Object) (workload : Workload)
  | run (thread : Nat) (fault : Fault)
  /-- Anybody changes anything else. -/
  | others (after : Cluster)

def step : Label → System → Option System
  | .start instance_ workload,s => some { s with threads := s.threads ++ [Thread.spawn (instance_,workload)] }
  | .run i fault,s => do
    let t ← s.threads[i]?
    let (cluster,t') ← t.advance (fun call c => some (perform fault call c)) s.cluster
    return ⟨cluster,s.cluster :: s.past,s.threads.set i t'⟩
  | .others after,s => some { s with cluster := after, past := s.cluster :: s.past }

/-- What a cleanup starts with are versions that there were, and everybody keeps to the
    rules of the stores. -/
def Orderly (s : System) : Label → Prop
  | .start instance_ workload => instance_ ∈ s.cluster.instances.past ∧ workload ∈ s.cluster.workloads.past
  | .run _ _ => True
  | .others after => Step s.cluster.instances after.instances ∧ Step s.cluster.workloads after.workloads ∧
      Step s.cluster.configs after.configs

/-! ### What a cleanup may delete -/

abbrev Past := History Call.Answer

/-- The past under which a configuration is deleted. -/
structure Justified (instance_ : Object) (workload : Workload) (past : Past) (config : ConfigMap) : Prop where
  immutable : config.spec.immutable = some true
  controller : ∃ owner, controllerOf config.metadata.owners = some owner ∧ owner.uid = instance_.uid ∧ owner.kind = "CacheInstance" ∧
    owner.name = instance_.key.2 ∧ owner.apiVersion = groupVersion
  template : ¬Refers workload.spec.template config.key.2
  listed : ∃ configs, (⟨.listConfigs instance_.key.1 instance_.uid,.ok configs⟩ : Event Call.Answer) ∈ past ∧ config ∈ configs
  pods : ∃ pods, (⟨.listPods instance_.key.1,.ok pods⟩ : Event Call.Answer) ∈ past ∧ ∀ pod ∈ pods, ¬Refers pod.spec config.key.2
  checked : ∃ current latest before, past = ⟨.getWorkload workload.key,.ok latest⟩ :: ⟨.getInstance instance_.key,.ok current⟩ :: before ∧
    (current.uid = instance_.uid ∧ current.generation = instance_.generation ∧ current.deleting = false) ∧
    (latest.uid = workload.uid ∧ latest.version = workload.version)

def licence (instance_ : Object) (workload : Workload) (past : Past) : Call → Prop
  | .deleteConfig k uid version => ∃ config, Justified instance_ workload past config ∧ k = config.key ∧ uid = config.uid ∧
      version = config.version
  | _ => True

section
variable {instance_ : Object} {workload : Workload} {past : Past}

theorem skips_false {keep : List String} {config : ConfigMap} (taken : skips instance_ keep config = false) :
    config.key.2 ∉ keep ∧ config.spec.immutable = some true ∧ ∃ owner, controllerOf config.metadata.owners = some owner ∧
      owner.uid = instance_.uid ∧ owner.kind = "CacheInstance" ∧ owner.name = instance_.key.2 ∧ owner.apiVersion = groupVersion := by
  unfold skips at taken
  cases owned : controllerOf config.metadata.owners with
  | none => simp [owned] at taken
  | some owner =>
    simp only [owned,Bool.or_eq_false_iff,decide_eq_false_iff_not,ne_eq,not_not,List.contains_eq_mem] at taken
    obtain ⟨⟨unkept,immutable⟩,⟨⟨uid,kind⟩,name⟩,version⟩ := taken
    exact ⟨unkept,immutable,owner,rfl,uid,kind,name,version⟩

theorem removeConfigs_licensed {keep : List String} {configs : List ConfigMap} {pods : List Pod} (rest : List ConfigMap)
    (inside : ∀ config ∈ rest, config ∈ configs)
    (listed : (⟨.listConfigs instance_.key.1 instance_.uid,.ok configs⟩ : Event Call.Answer) ∈ past)
    (seen : (⟨.listPods instance_.key.1,.ok pods⟩ : Event Call.Answer) ∈ past)
    (template : ∀ name, Refers workload.spec.template name → name ∈ keep)
    (running : ∀ pod ∈ pods, ∀ name, Refers pod.spec name → name ∈ keep) :
    Licensed (licence instance_ workload) (fun _ _ => True) past (removeConfigs instance_ workload keep rest) := by
  induction rest generalizing past with
  | nil => trivial
  | cons config rest ih =>
    have others : ∀ config ∈ rest, config ∈ configs := fun c member => inside c (List.mem_cons_of_mem _ member)
    unfold removeConfigs
    split
    · exact ih others listed seen
    · rename_i taken
      obtain ⟨unkept,immutable,owner⟩ := skips_false (Bool.not_eq_true _ ▸ taken)
      refine (licensed_ask _ _).mpr ⟨trivial,fun current => ?_,fun _ => trivial⟩
      refine (Prog.licensed_require _ _ _).mpr ⟨fun same => ?_,fun _ => trivial⟩
      refine (licensed_ask _ _).mpr ⟨trivial,fun latest => ?_,fun _ => trivial⟩
      refine (Prog.licensed_require _ _ _).mpr ⟨fun unchanged => ?_,fun _ => trivial⟩
      have later : ∀ (newer : Past) {e : Event Call.Answer}, e ∈ past →
          e ∈ newer ++ (⟨.getWorkload workload.key,.ok latest⟩ :: ⟨.getInstance instance_.key,.ok current⟩ :: past) :=
        fun _ _ member => List.mem_append_right _ (List.mem_cons_of_mem _ (List.mem_cons_of_mem _ member))
      have goesOn : ∀ x, Licensed (licence instance_ workload) (fun _ _ => True)
          (⟨.deleteConfig config.key config.uid config.version,x⟩ :: ⟨.getWorkload workload.key,.ok latest⟩ ::
            ⟨.getInstance instance_.key,.ok current⟩ :: past) (removeConfigs instance_ workload keep rest) := fun x =>
        ih others (later [_] listed) (later [_] seen)
      refine (licensed_bind _ _).mpr ((licensed_tryCatch _ _).mpr (licensed_ask_only.mpr ⟨?_,fun x => ?_⟩))
      · refine ⟨config,⟨immutable,owner,fun refers => unkept (template _ refers),?_,?_,?_⟩,rfl,rfl,rfl⟩
        · exact ⟨configs,later [] listed,inside config List.mem_cons_self⟩
        · exact ⟨pods,later [] seen,fun pod member refers => unkept (running pod member _ refers)⟩
        · exact ⟨current,latest,past,rfl,same,unchanged⟩
      · cases x with
        | ok v => exact goesOn _
        | error e =>
          show Licensed _ _ _ (if e = .api (some 404) then pure () else throw e)
          split
          · exact goesOn _
          · trivial

theorem cleanupConfigs_licensed (instance_ : Object) (workload : Workload) :
    Licensed (licence instance_ workload) (fun _ _ => True) [] (cleanupConfigs instance_ workload) := by
  refine (licensed_ask _ _).mpr ⟨trivial,fun configs => ?_,fun _ => trivial⟩
  split
  · trivial
  · refine (licensed_ask _ _).mpr ⟨trivial,fun pods => ?_,fun _ => trivial⟩
    have kept : ∀ name, name ∈ pods.foldl (fun keep pod => configReferences pod.spec keep) (configReferences workload.spec.template []) ↔
        name ∈ configReferences workload.spec.template [] ∨ ∃ pod ∈ pods, Refers pod.spec name :=
      fun name => mem_foldl (fun _ _ => mem_configReferences)
    refine removeConfigs_licensed configs (fun _ member => member)
      (List.mem_cons_of_mem _ List.mem_cons_self) List.mem_cons_self (fun name refers => ?_)
      (fun pod member name refers => ?_)
    · exact (kept name).mpr (.inl (mem_configReferences.mpr (.inr refers)))
    · exact (kept name).mpr (.inr ⟨pod,member,refers⟩)

end

/-! ### Runs -/

/-- The configuration that a cleanup deletes: its instance's own, as this cleanup listed
    it, and named neither by a Pod that it listed nor by the template at the check before. -/
structure Obsolete (s : System) (t : Thread program) (e : ConfigMap) : Prop where
  immutable : e.spec.immutable = some true
  controller : ∃ owner, controllerOf e.metadata.owners = some owner ∧ owner.uid = t.tag.1.uid ∧ owner.kind = "CacheInstance" ∧
    owner.name = t.tag.1.key.2 ∧ owner.apiVersion = groupVersion
  owned : e.metadata.owners ≠ []
  listed : ∃ c ∈ s.past, (⟨.listConfigs t.tag.1.key.1 t.tag.1.uid,.ok (listConfigs c t.tag.1.key.1 t.tag.1.uid)⟩ : Event Call.Answer) ∈
    t.history ∧ e ∈ listConfigs c t.tag.1.key.1 t.tag.1.uid
  pods : ∃ c ∈ s.past, (⟨.listPods t.tag.1.key.1,.ok (listPods c t.tag.1.key.1)⟩ : Event Call.Answer) ∈ t.history ∧
    ∀ pod ∈ c.pods, pod.ns = t.tag.1.key.1 → ¬Refers pod.spec e.key.2
  checked : ∃ c ∈ s.past, ∃ latest before, t.history = ⟨.getWorkload t.tag.2.key,.ok latest⟩ :: before ∧
    c.workloads.live.lookup t.tag.2.key = some latest ∧ ¬Refers latest.spec.template e.key.2

/-- What is known of the clusters there were and of the threads. -/
structure Known (s : System) : Prop where
  instances : Wf s.cluster.instances
  workloads : Wf s.cluster.workloads
  configs : Wf s.cluster.configs
  earlier : ∀ c ∈ s.past, Wf c.workloads ∧ Wf c.configs ∧ (∀ e ∈ c.workloads.past, e ∈ s.cluster.workloads.past) ∧
    ∀ e ∈ c.configs.past, e ∈ s.cluster.configs.past
  started : ∀ t ∈ s.threads, t.tag.2 ∈ s.cluster.workloads.past
  answered : ∀ t ∈ s.threads, ∀ call v, (⟨call,.ok v⟩ : Event Call.Answer) ∈ t.history →
    ∃ c ∈ s.past, ∃ after, serve c call = .ok (after,v)

theorem get_ok {K M S : Type} [DecidableEq K] {s : Store K M S} {k : K} {e : Entry K M S} : get s k = .ok e ↔ s.live.lookup k = some e := by
  unfold get
  cases s.live.lookup k with
  | none => simp
  | some e' => simp

/-- A request only ever deletes a configuration. -/
theorem serve_cases {c after : Cluster} {call : Call} {v : call.Value} (served : serve c call = .ok (after,v)) :
    after = c ∨ ∃ k uid version e, call = .deleteConfig k uid version ∧ c.configs.live.lookup k = some e ∧ e.uid = uid ∧
      e.version = version ∧ after = { c with configs := c.configs.delete e } := by
  cases call with
  | listConfigs ns uid | listPods ns =>
    cases served
    exact .inl rfl
  | getInstance k | getWorkload k =>
    simp only [serve] at served
    cases found : get _ k with
    | error e => rw [found] at served; cases served
    | ok e =>
      rw [found] at served
      cases served
      exact .inl rfl
  | deleteConfig k uid version =>
    simp only [serve,deleteConfig] at served
    cases found : get c.configs k with
    | error e => rw [found] at served; cases served
    | ok e =>
      rw [found] at served
      change Except.map _ (if e.uid = uid ∧ e.version = version then _ else _) = _ at served
      split at served
      · rename_i same
        cases served
        exact .inr ⟨k,uid,version,e,rfl,get_ok.mp found,same.1,same.2,rfl⟩
      · cases served

/-- What a request did, and what its answer says. -/
theorem perform_cases {fault : Fault} {call : Call} {c after : Cluster} {x : call.Answer} (performed : perform fault call c = (after,x)) :
    (after = c ∨ ∃ v, serve c call = .ok (after,v)) ∧ ∀ v, x = .ok v → ∃ after', serve c call = .ok (after',v) := by
  unfold perform at performed
  cases fault with
  | delivered =>
    cases served : serve c call with
    | ok r =>
      rw [served] at performed
      cases performed
      exact ⟨.inr ⟨r.2,rfl⟩,fun v same => ⟨r.1,by cases same; rfl⟩⟩
    | error e =>
      rw [served] at performed
      cases performed
      exact ⟨.inl rfl,fun v wrong => (by cases wrong)⟩
  | refused e =>
    cases performed
    exact ⟨.inl rfl,fun v wrong => (by cases wrong)⟩
  | lost e =>
    cases served : serve c call with
    | ok r =>
      rw [served] at performed
      cases performed
      exact ⟨.inr ⟨r.2,rfl⟩,fun v wrong => (by cases wrong)⟩
    | error e =>
      rw [served] at performed
      cases performed
      exact ⟨.inl rfl,fun v wrong => (by cases wrong)⟩

/-- How the stores of a cluster change. -/
structure Changes (c after : Cluster) : Prop where
  instances : Step c.instances after.instances
  workloads : Step c.workloads after.workloads
  configs : Step c.configs after.configs

section
variable {s s' : System} {l : Label}

theorem perform_changes {fault : Fault} {call : Call} {c after : Cluster} {x : call.Answer} (wf : Wf c.configs)
    (performed : perform fault call c = (after,x)) : Changes c after := by
  rcases (perform_cases performed).1 with rfl | ⟨v,served⟩
  · exact ⟨.idle,.idle,.idle⟩
  · rcases serve_cases served with rfl | ⟨k,_,_,e,_,present,_,_,rfl⟩
    · exact ⟨.idle,.idle,.idle⟩
    · exact ⟨.idle,.idle,wf.step_delete present⟩

/-- What is known outlives a change of the cluster. -/
theorem Known.changed (known : Known s) {after : Cluster} {threads : List (Thread program)} (changes : Changes s.cluster after)
    (started : ∀ t ∈ threads, t.tag.2 ∈ s.cluster.workloads.past)
    (answered : ∀ t ∈ threads, ∀ call v, (⟨call,.ok v⟩ : Event Call.Answer) ∈ t.history →
      ∃ c ∈ s.cluster :: s.past, ∃ after, serve c call = .ok (after,v)) : Known ⟨after,s.cluster :: s.past,threads⟩ where
  instances := known.instances.step changes.instances
  workloads := known.workloads.step changes.workloads
  configs := known.configs.step changes.configs
  earlier := by
    intro c member
    rcases List.mem_cons.mp member with rfl | member
    · exact ⟨known.workloads,known.configs,fun e seen => changes.workloads.past_subset seen,fun e seen => changes.configs.past_subset seen⟩
    · obtain ⟨workloads,configs,inside,inside'⟩ := known.earlier c member
      exact ⟨workloads,configs,fun e seen => changes.workloads.past_subset (inside e seen),
        fun e seen => changes.configs.past_subset (inside' e seen)⟩
  started := fun t member => changes.workloads.past_subset (started t member)
  answered := answered

/-- A thread makes a request. -/
theorem run_cases {i : Nat} {fault : Fault} (moved : step (.run i fault) s = some s') :
    ∃ t call next x t', s.threads[i]? = some t ∧ t.rest = .request call next ∧ perform fault call s.cluster = (s'.cluster,x) ∧
      t'.tag = t.tag ∧ t'.history = ⟨call,x⟩ :: t.history ∧ s'.past = s.cluster :: s.past ∧ s'.threads = s.threads.set i t' := by
  simp only [step,Option.bind_eq_bind,Option.bind_eq_some_iff,Option.pure_def,Option.some.injEq] at moved
  obtain ⟨t,found,⟨cluster,t'⟩,advanced,rfl⟩ := moved
  obtain ⟨call,next,x,left,performed,tag,history,_⟩ := Thread.advance_some advanced
  exact ⟨t,call,next,x,t',found,left,Option.some.inj performed,tag,history,rfl,rfl⟩

theorem Known.step (known : Known s) (orderly : Orderly s l) (moved : step l s = some s') : Known s' := by
  have older : ∀ t ∈ s.threads, ∀ call v, (⟨call,.ok v⟩ : Event Call.Answer) ∈ t.history →
      ∃ c ∈ s.cluster :: s.past, ∃ after, serve c call = .ok (after,v) := by
    intro t member call v happened
    obtain ⟨c,earlier,served⟩ := known.answered t member call v happened
    exact ⟨c,List.mem_cons_of_mem _ earlier,served⟩
  cases l with
  | start instance_ workload =>
    cases moved
    refine ⟨known.instances,known.workloads,known.configs,known.earlier,fun t member => ?_,fun t member => ?_⟩
    · rcases List.mem_append.mp member with member | member
      · exact known.started t member
      · obtain rfl := List.mem_singleton.mp member
        exact orderly.2
    · rcases List.mem_append.mp member with member | member
      · exact known.answered t member
      · obtain rfl := List.mem_singleton.mp member
        intro call v wrong
        cases wrong
  | run i fault =>
    obtain ⟨t,call,next,x,t',found,left,performed,tag,history,past,threads⟩ := run_cases moved
    have thread := List.mem_of_getElem? found
    have changes := perform_changes known.configs performed
    obtain ⟨cluster,past',threads'⟩ := s'
    cases past
    cases threads
    refine known.changed changes (fun u member => ?_) (fun u member call' v happened => ?_)
    · rcases List.mem_or_eq_of_mem_set member with member | rfl
      · exact known.started u member
      · rw [tag]
        exact known.started t thread
    · rcases List.mem_or_eq_of_mem_set member with member | rfl
      · exact older u member call' v happened
      · rw [history] at happened
        rcases List.mem_cons.mp happened with same | happened
        · cases same
          exact ⟨s.cluster,List.mem_cons_self,(perform_cases performed).2 v rfl⟩
        · exact older t thread call' v happened
  | others after =>
    cases moved
    exact known.changed ⟨orderly.1,orderly.2.1,orderly.2.2⟩ known.started older

/-- An empty cluster. -/
structure Start (s : System) : Prop where
  cluster : s.cluster = {}
  past : s.past = []
  threads : s.threads = []

theorem Known.start (start : Start s) : Known s := by
  obtain ⟨cluster,past,threads⟩ := s
  obtain ⟨rfl,rfl,rfl⟩ := start
  exact ⟨.empty,.empty,.empty,fun _ wrong => (by cases wrong),fun _ wrong => (by cases wrong),fun _ wrong => (by cases wrong)⟩

theorem listConfigs_live {c : Cluster} {ns : Namespace} {uid : KubeUid} {e : ConfigMap} (wf : Wf c.configs)
    (listed : e ∈ listConfigs c ns uid) : e ∈ c.configs.past := by
  obtain ⟨inside,_⟩ := List.mem_filter.mp listed
  obtain ⟨⟨k,e'⟩,member,rfl⟩ := List.mem_map.mp inside
  exact wf.past (AList.mem_lookup_iff.mpr member)

/-- What a justified deletion deletes. -/
theorem Justified.obsolete {t : Thread program} {config e : ConfigMap} (known : Known s) (member : t ∈ s.threads)
    (justified : Justified t.tag.1 t.tag.2 t.history config) (present : s.cluster.configs.live.lookup config.key = some e)
    (version : e.version = config.version) : Obsolete s t e := by
  obtain ⟨immutable,⟨owner,controls,same⟩,template,⟨configs,listing,inside⟩,⟨pods,looked,unreferred⟩,current,latest,before,history,_,
    unchanged⟩ := justified
  obtain ⟨c,earlier,_,served⟩ := known.answered t member _ _ listing
  cases served
  obtain ⟨_,wf,_,kept⟩ := known.earlier c earlier
  -- the version that was listed is still there
  obtain rfl : e = config := known.configs.live_of_version (kept config (listConfigs_live wf inside)) present version
  refine ⟨immutable,⟨owner,controls,same⟩,?_,⟨c,earlier,listing,inside⟩,?_,?_⟩
  · intro none_
    rw [none_] at controls
    cases controls
  · obtain ⟨c',earlier',_,served'⟩ := known.answered t member _ _ looked
    cases served'
    exact ⟨c',earlier',looked,fun pod running here => unreferred pod (List.mem_filter.mpr ⟨running,decide_eq_true here⟩)⟩
  · have happened : (⟨.getWorkload t.tag.2.key,.ok latest⟩ : Event Call.Answer) ∈ t.history := by
      rw [history]
      exact List.mem_cons_self
    obtain ⟨c',earlier',after,served'⟩ := known.answered t member _ _ happened
    have live : c'.workloads.live.lookup t.tag.2.key = some latest := by
      simp only [serve] at served'
      cases found : get c'.workloads t.tag.2.key with
      | error e => rw [found] at served'; cases served'
      | ok e =>
        rw [found] at served'
        cases served'
        exact get_ok.mp found
    obtain ⟨wf',_,kept',_⟩ := known.earlier c' earlier'
    -- its version is the one that the cleanup was started with
    have current_ : latest = t.tag.2 :=
      known.workloads.version_unique (kept' latest (wf'.past live)) (known.started t member) unchanged.2
    refine ⟨c',earlier',latest,_,history,live,?_⟩
    rw [current_]
    exact template

end

/-- Whatever happens meanwhile, a cleanup changes nothing but a configuration that is
    obsolete, which it deletes. -/
theorem cleanup_spares {a s s' : System} {i : Nat} {fault : Fault} (start : Start a) (reached : Reaches step Orderly a s)
    (moved : step (.run i fault) s = some s') : s'.cluster = s.cluster ∨ ∃ t e, s.threads[i]? = some t ∧
      s.cluster.configs.live.lookup e.key = some e ∧ Obsolete s t e ∧
      s'.cluster = { s.cluster with configs := s.cluster.configs.delete e } := by
  have known : Known s := reached.invariant (.start start) (fun known orderly moved => known.step orderly moved)
  obtain ⟨t,call,next,x,t',found,left,performed,_⟩ := run_cases moved
  rcases (perform_cases performed).1 with same | ⟨v,served⟩
  · exact .inl same
  rcases serve_cases served with same | ⟨k,uid,version,e,rfl,present,_,versioned,after⟩
  · exact .inl same
  have ran := t.ran
  rw [left] at ran
  obtain ⟨config,justified,rfl,_,rfl⟩ := ran.licensed (cleanupConfigs_licensed t.tag.1 t.tag.2)
  have obsolete := justified.obsolete known (List.mem_of_getElem? found) present versioned
  rw [← known.configs.key present] at present
  exact .inr ⟨t,e,found,present,obsolete,after⟩

/-- An instance whose workload has another configuration by now. -/
def rolledSpec : Spec :=
  { instanceId := 100, projectId := 1, pinned := true, templateName := .bazelRemote, templateVersion := (templateDefinition .bazelRemote).version
    desiredState := .running, storage := ⟨"fast","10Gi",.delete,none⟩, access := ⟨.clusterInternal,.initial 100,none⟩
    eviction := ⟨5,(templateDefinition .bazelRemote).enginePolicy⟩, requests := ⟨some "500m",some "512Mi"⟩
    limits := ⟨some "500m",some "512Mi"⟩ }
def rolledMeta : Meta := ⟨groupVersion,"CacheInstance",{},{},{}⟩
def rolledKey : Key := (⟨1⟩,⟨100⟩)
def rolledWorkload : StatefulSet := { template := { volumes := [{ configMap := some "config-new" }] } }
def oldConfig : ConfigMeta := { instanceUid := some 0, owners := [⟨groupVersion,"CacheInstance",⟨100⟩,0,some true⟩] }
def rolled : Cluster where
  instances := ({} : Store Key Meta Spec).create rolledKey rolledMeta rolledSpec
  workloads := ({} : Store Key Unit StatefulSet).create rolledKey () rolledWorkload
  configs := ({} : Store (Namespace × String) ConfigMeta ConfigBody).create (⟨1⟩,"config-old") oldConfig { immutable := some true }
  pods := [{ ns := ⟨1⟩, spec := rolledWorkload.template }]
/-- The cleanup starts. -/
def cleaning : System :=
  { cluster := rolled, past := [{}]
    threads := [Thread.spawn (({} : Store Key Meta Spec).fresh rolledKey rolledMeta rolledSpec,
      ({} : Store Key Unit StatefulSet).fresh rolledKey () rolledWorkload)] }

theorem cleaning_reached : Reaches step Orderly {} cleaning := by
  have rolls : Orderly {} (.others rolled) := ⟨.created _ _ _ rfl,.created _ _ _ rfl,.created _ _ _ rfl⟩
  exact .tail (l := .start _ _) (.tail .refl rolls rfl) ⟨List.mem_cons_self,List.mem_cons_self⟩ rfl

/-- Whether a step only goes on. -/
def goesOn : Label → Bool
  | .run _ _ => true
  | _ => false

theorem goesOn_orderly (s : System) (l : Label) (check : goesOn l = true) : Orderly s l := by
  cases l with
  | run i fault => trivial
  | start instance_ workload | others after => cases check

theorem cleanup_spares_rolled : ∃ s t e, Obsolete s t e ∧ e.key = (⟨1⟩,"config-old") := by
  obtain ⟨s,reached,holds⟩ := reaches_of_run goesOn_orderly
    (show (run step (fun _ l => goesOn l) (List.replicate 4 (.run 0 .delivered)) cleaning).any (fun s =>
      (step (.run 0 .delivered) s).any (fun s' => s'.cluster.configs.live.lookup (⟨1⟩,"config-old") = none &&
        s.cluster.configs.live.entries.map (fun row => row.1) = [(⟨1⟩,"config-old")])) = true by decide +kernel)
  obtain ⟨s',moved,effect⟩ := (Option.any_eq_true _ _).mp holds
  simp only [Bool.and_eq_true,decide_eq_true_eq] at effect
  have whole : Reaches step Orderly {} s := .trans cleaning_reached reached
  rcases cleanup_spares ⟨rfl,rfl,rfl⟩ whole moved with same | ⟨t,e,_,present,obsolete,_⟩
  · have there : (⟨1⟩,"config-old") ∈ s.cluster.configs.live.entries.map (fun row => row.1) := by
      rw [effect.2]
      exact List.mem_cons_self
    rw [same,AList.lookup_eq_none] at effect
    exact absurd there effect.1
  · have member := List.mem_map_of_mem (f := fun row => row.1) (AList.mem_lookup_iff.mp present)
    rw [effect.2,List.mem_singleton] at member
    exact ⟨s,t,e,obsolete,member⟩

end Expbuild.Cleanup
