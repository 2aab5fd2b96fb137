import Expbuild.Adapters
import Expbuild.Commands
import Expbuild.Headroom
import Expbuild.Naming
import Expbuild.Routes

/-!
From an accepted input to a running engine: the objects that the API asks for
(`desiredObject`, and what an update and a reclaim make of it), the operator's `Render` and
the start of the programs that it renders. The four validators agree but for `AsInt64`, which
Turborepo, Nx and Go use on the capacity: it converts an amount of GiB of at most five
digits (`accepted_runs`).
-/
namespace Expbuild.Startup
open Expbuild.Contract Expbuild.Kinds Expbuild.Adapters Expbuild.Clusters Expbuild.Naming
open Expbuild.Renderers (Config Library require validateImage validateResource renderCache headerSize int64 bind_passed require_true)
open Expbuild.Routes (updateDesired reclaimDesired)
open Expbuild.Capacity (blank)

/-! ### What is relied on -/

/-- The names and quantities of Kubernetes. `ParseQuantity` keeps an amount with the suffix Gi
    as an `int64` where it has at most five digits, and only then is there the fast conversion of
    `AsInt64`. -/
structure Documented (k : Library) : Prop where
  label : k.isDNS1123Label = dns1123Label
  subdomain : k.isDNS1123Subdomain = dns1123Subdomain
  labelValue : k.isValidLabelValue = labelValue
  gibibytes : ∀ n : Nat, n < 2 ^ 33 → k.parseQuantity (toString n ++ "Gi") = some (n * 2 ^ 30 : ℚ)
  mebibytes : ∀ n : Nat, n < 2 ^ 43 → k.parseQuantity (toString n ++ "Mi") = some (n * 2 ^ 20 : ℚ)
  millis : ∀ n : Nat, n < 2 ^ 63 → k.parseQuantity (toString n ++ "m") = some (n / 1000 : ℚ)
  fast : ∀ n : Nat, 0 < n → n < 2 ^ 33 → k.asInt64 (toString n ++ "Gi") = if n < 100000 then some (n * 2 ^ 30 : Int) else none

/-- The UUIDs of projects, instances and operations. -/
structure Names where
  project : ProjectId → Uuid
  instance_ : InstanceId → Uuid
  operation : OperationId → Uuid

/-- The texts of the identifiers and the names that are made of them. -/
structure Names.Used (names : Names) (t : Toolkit) : Prop where
  projectId : ∀ p, t.projectId p = (names.project p).text
  instanceId : ∀ i, t.instanceId i = (names.instance_ i).text
  ns : ∀ n, t.ns n = "expbuild-" ++ (names.project n.project).text
  name : ∀ n, t.name n = "c-" ++ (names.instance_ n.instanceId).text
  initial : ∀ i, t.secret (.initial i) = "c-" ++ (names.instance_ i).text ++ "-auth"
  issued : ∀ o, t.secret (.issued o) = "auth-" ++ (names.operation o).text

/-- One pinned image for each container of a template. -/
structure Pinned (ref : TemplateRef) (images : Images) : Prop where
  keys : images.keys = if hasStatistics ref then {"cache","statistics"} else {"cache"}
  valid : ∀ {name image}, images.lookup name = some image → validateImage image = .ok ()

/-! ### What the API asks for -/

/-- The objects of a creation, of an update of an object in a version of the catalogue, and of
    a reclaim in such a version. -/
inductive Asked (input : InstanceInput) : Manifest → Prop where
  | created (projectId : ProjectId) (ns : Namespace) (id : InstanceId) (storageClass : String) (operationId : OperationId)
      (requestHash : RequestHash) : Asked input (desiredObject input projectId ns id storageClass operationId requestHash)
  | updated (caller : Calls.Caller) (id : InstanceId) (operationId : OperationId) (expected : Revision) (ns : Namespace)
      (current : CacheObject) (same : current.spec.templateName = input.template)
      (known : instanceCapabilities input.template (some current.spec.templateVersion) = true) :
      Asked input (updateDesired caller id input operationId expected ns current)
  | reclaimed (caller : Calls.Caller) (id : InstanceId) (volumeUid : VolumeUid) (operationId : OperationId) (storageClass : String)
      (ns : Namespace) (version : TemplateVersion) (previous : KubeUid)
      (known : instanceCapabilities input.template (some version) = true) :
      Asked input (reclaimDesired caller id volumeUid input operationId storageClass ns version previous)

def refOf (c : Instance) : TemplateRef := ⟨c.spec.templateName,c.spec.templateVersion⟩

/-! ### What is to run -/

/-- The program of a container takes its arguments. The engines of Bazel and WebDAV are not
    programs of this repository. -/
def Starts : Template → Container → Prop
  | .bazelRemote,_ => True
  | .webdavApache,container => container.name = "statistics" → (Commands.webdavStats container.args).isSome = true
  | .gradleHttp,container => container.name = "cache" → (Commands.gradle container.args blank.volume 0 []).isSome = true
  | .turborepoHttp,container => container.name = "cache" →
    ∀ sha256, (Commands.turborepo sha256 container.args blank.volume 0 []).isSome = true
  | .nxHttp,container => container.name = "cache" → ∀ sha256, (Commands.nx sha256 container.args blank.volume 0 []).isSome = true
  | .goCacheprog,container => container.name = "cache" →
    ∀ sha256 md5, (Commands.go sha256 md5 container.args blank.volume 0 []).isSome = true

/-- The operator renders an object with its template, images and policy, and the programs of
    its workload start. -/
def Runs (t : Toolkit) (c : Instance) (images : Images) : Prop :=
  policyOf (refOf c) = .ok c.spec.eviction.enginePolicy ∧
  ∃ a ds, bind_ (refOf c) images = .ok a ∧ a.render t c c.spec.eviction.enginePolicy = .ok ds ∧
    (∃ n metadata spec, .workload n metadata spec ∈ ds) ∧
    ∀ n metadata spec, .workload n metadata spec ∈ ds → ∀ container ∈ spec.template.spec.containers,
      Starts c.spec.templateName container

/-- Turborepo, Nx and Go convert the capacity to bytes. -/
def Convertible (input : InstanceInput) : Prop :=
  input.template = .turborepoHttp ∨ input.template = .nxHttp ∨ input.template = .goCacheprog → input.storageGiB < 100000

instance (input : InstanceInput) : Decidable (Convertible input) := by
  unfold Convertible
  infer_instance

/-! ### The specification -/

/-- What the objects have in common. -/
structure Describes (input : InstanceInput) (spec : Spec) : Prop where
  template : spec.templateName = input.template
  known : instanceCapabilities input.template (some spec.templateVersion) = true
  capacity : spec.storage.capacity = toString input.storageGiB ++ "Gi"
  requests : spec.requests = ⟨some (toString input.cpuMillis ++ "m"),some (toString input.memoryMiB ++ "Mi")⟩
  limits : spec.limits = spec.requests
  eviction : spec.eviction = ⟨input.cacheGiB,(templateDefinition input.template).enginePolicy⟩

theorem asked_describes {input : InstanceInput} {m : Manifest} (asked : Asked input m) : Describes input m.spec := by
  have latest : (templateDefinition input.template).name = input.template ∧
      instanceCapabilities input.template (some (templateDefinition input.template).version) = true := by
    cases input.template <;> exact ⟨rfl,rfl⟩
  cases asked with
  | created => exact ⟨latest.1,latest.2,rfl,rfl,rfl,rfl⟩
  | updated _ _ _ _ _ current same known => exact ⟨same,known,rfl,rfl,rfl,rfl⟩
  | reclaimed _ _ _ _ _ _ version _ known => exact ⟨latest.1,known,rfl,rfl,rfl,rfl⟩

section
variable {t : Toolkit} {names : Names} {input : InstanceInput} {c : Instance} {image : String} {spec : Spec}

theorem policy_described (described : Describes input c.spec) : policyOf (refOf c) = .ok c.spec.eviction.enginePolicy := by
  have known := described.known
  rw [described.eviction]
  simp only [refOf,described.template]
  cases template : input.template <;> cases version : c.spec.templateVersion <;> rw [template,version] at known <;>
    first | rfl | exact absurd known (by decide)

/-- The configuration of an object, with its image. -/
def imaged (t : Toolkit) (c : Instance) (image : String) : Config := { configOf t c with image := image }

/-! ### The names -/

theorem uuid_after (u : Uuid) {before : String} {l : List Char} (split : before.toList = l ++ ['-'])
    (form : framed alphanumeric dash l = true) : framed alphanumeric dash (before ++ u.text).toList = true := by
  rw [String.toList_append,split]
  exact framed_join form (by decide) u.framed_text

theorem name_valid (used : names.Used t) (n : ResourceName) :
    (t.name n).utf8ByteSize ≤ 40 ∧ dns1123Label (t.name n) = true := by
  have form : framed alphanumeric dash (t.name n).toList = true := by
    rw [used.name]
    exact uuid_after (l := ['c']) _ rfl (by decide)
  have long : (t.name n).toList.length = 38 := by
    rw [used.name,String.toList_append,List.length_append,Uuid.length]
    rfl
  exact ⟨by rw [framed_size form]; omega,framed_label form (by omega)⟩

theorem ns_valid (used : names.Used t) (n : Namespace) : dns1123Label (t.ns n) = true := by
  have form : framed alphanumeric dash (t.ns n).toList = true := by
    rw [used.ns]
    exact uuid_after (l := "expbuild".toList) _ rfl (by decide)
  have long : (t.ns n).toList.length = 45 := by
    rw [used.ns,String.toList_append,List.length_append,Uuid.length]
    rfl
  exact framed_label form (by omega)

theorem secret_valid (used : names.Used t) (n : SecretName) : dns1123Subdomain (t.secret n) = true := by
  cases n with
  | initial i =>
    have form : framed alphanumeric dash (t.secret (.initial i)).toList = true := by
      rw [used.initial,String.toList_append]
      have before : framed alphanumeric dash ("c-" ++ (names.instance_ i).text).toList = true := uuid_after (l := ['c']) _ rfl (by decide)
      have joined := framed_join (n := ['-']) (m := "auth".toList) before (by decide) (by decide)
      rwa [List.append_assoc] at joined
    have long : (t.secret (.initial i)).toList.length = 43 := by
      rw [used.initial,String.toList_append,String.toList_append,List.length_append,List.length_append,Uuid.length]
      rfl
    exact framed_subdomain form (by omega)
  | issued o =>
    have form : framed alphanumeric dash (t.secret (.issued o)).toList = true := by
      rw [used.issued]
      exact uuid_after (l := "auth".toList) _ rfl (by decide)
    have long : (t.secret (.issued o)).toList.length = 41 := by
      rw [used.issued,String.toList_append,List.length_append,Uuid.length]
      rfl
    exact framed_subdomain form (by omega)

theorem uuid_valid (u : Uuid) : u.text ≠ "" ∧ labelValue u.text = true := by
  have long := u.length
  refine ⟨?_,framed_labelValue u.framed_text (by omega)⟩
  intro empty
  rw [empty] at long
  exact absurd long (by decide)

/-! ### The checks -/

theorem quantities_described (documented : Documented t.library) (described : Describes input spec) :
    quantities t.library spec.requests = [("cpu",(input.cpuMillis / 1000 : ℚ)),("memory",(input.memoryMiB * 2 ^ 20 : ℚ))] ∧
    quantities t.library spec.limits = [("cpu",(input.cpuMillis / 1000 : ℚ)),("memory",(input.memoryMiB * 2 ^ 20 : ℚ))] := by
  have cpu := documented.millis input.cpuMillis (by have := input.cpuBounds; omega)
  have memory := documented.mebibytes input.memoryMiB (by have := input.memoryBounds; omega)
  rw [described.limits,described.requests]
  simp only [quantities,Option.bind_some,cpu,memory]
  exact ⟨rfl,rfl⟩

theorem resource_valid {r : Renderers.Resources} {name : String} {q : ℚ} (positive : 0 < q) (request : r.requests.lookup name = some q)
    (limit : r.limits.lookup name = some q) : validateResource r name = .ok () := by
  unfold validateResource
  rw [bind_passed (require_true (by simpa [request] using positive))]
  exact require_true (by simpa [request,limit] using positive)

theorem common_valid (used : names.Used t) (documented : Documented t.library) (described : Describes input c.spec)
    (storage : dns1123Subdomain c.spec.storage.className = true) (pinned : validateImage image = .ok ()) :
    (imaged t c image).validateCommon t.library = .ok () := by
  obtain ⟨cpuBound,memoryBound,sizeBound⟩ := And.intro input.cpuBounds (And.intro input.memoryBounds input.storageBounds)
  obtain ⟨requests,limits⟩ := quantities_described documented described
  have cpu : (0 : ℚ) < input.cpuMillis / 1000 := div_pos (by exact_mod_cast (by omega : 0 < input.cpuMillis)) (by norm_num)
  have memory : (0 : ℚ) < input.memoryMiB * 2 ^ 20 := mul_pos (by exact_mod_cast (by omega : 0 < input.memoryMiB)) (by norm_num)
  have size : (0 : ℚ) < input.storageGiB * 2 ^ 30 := mul_pos (by exact_mod_cast (by omega : 0 < input.storageGiB)) (by norm_num)
  have capacity := documented.gibibytes input.storageGiB (by omega)
  rw [← described.capacity] at capacity
  have selected : c.spec.storage.className ≠ "" := by
    intro empty
    rw [empty] at storage
    exact absurd storage (by decide)
  have quantity : (t.library.parseQuantity (imaged t c image).capacity).any (fun capacity => decide (0 < capacity)) = true :=
    (Option.any_eq_true _ _).mpr ⟨_,capacity,decide_eq_true size⟩
  have state : (imaged t c image).desiredState = "Running" ∨ (imaged t c image).desiredState = "Suspended" := by
    cases desired : c.spec.desiredState with
    | running => exact .inl (by simp [imaged,configOf,desired])
    | suspended => exact .inr (by simp [imaged,configOf,desired])
  have requested : (imaged t c image).resources.requests = _ := requests
  have limited : (imaged t c image).resources.limits = _ := limits
  have processor : validateResource (imaged t c image).resources "cpu" = .ok () :=
    resource_valid cpu (by rw [requested]; rfl) (by rw [limited]; rfl)
  have store : validateResource (imaged t c image).resources "memory" = .ok () :=
    resource_valid memory (by rw [requested]; rfl) (by rw [limited]; rfl)
  obtain ⟨short,label⟩ := name_valid used c.key.2
  have name : (decide ((imaged t c image).name.utf8ByteSize ≤ 40) && dns1123Label (imaged t c image).name) = true :=
    (Bool.and_eq_true _ _).mpr ⟨decide_eq_true short,label⟩
  have ns : dns1123Label (imaged t c image).namespace_ = true := ns_valid used c.key.1
  have instance_ : (decide ((imaged t c image).instanceID ≠ "") && labelValue (imaged t c image).instanceID) = true := by
    obtain ⟨some_,valid⟩ := uuid_valid (names.instance_ c.spec.instanceId)
    rw [show (imaged t c image).instanceID = _ from used.instanceId c.spec.instanceId]
    exact (Bool.and_eq_true _ _).mpr ⟨decide_eq_true some_,valid⟩
  have project : (decide ((imaged t c image).projectID ≠ "") && labelValue (imaged t c image).projectID) = true := by
    obtain ⟨some_,valid⟩ := uuid_valid (names.project c.spec.projectId)
    rw [show (imaged t c image).projectID = _ from used.projectId c.spec.projectId]
    exact (Bool.and_eq_true _ _).mpr ⟨decide_eq_true some_,valid⟩
  have image_ : validateImage (imaged t c image).image = .ok () := pinned
  have secret : dns1123Subdomain (imaged t c image).credentialsSecret = true := secret_valid used c.spec.access.credentialsSecretRef
  have class_ : (decide ((imaged t c image).storageClass ≠ "") && dns1123Subdomain (imaged t c image).storageClass) = true :=
    (Bool.and_eq_true _ _).mpr ⟨decide_eq_true selected,storage⟩
  have either : (decide ((imaged t c image).desiredState = "Running") ||
      decide ((imaged t c image).desiredState = "Suspended")) = true := by
    rwa [Bool.or_eq_true,decide_eq_true_eq,decide_eq_true_eq]
  unfold Config.validateCommon
  rw [documented.label,documented.labelValue,documented.subdomain,bind_passed (require_true name),bind_passed (require_true ns),
    bind_passed (require_true instance_),bind_passed (require_true project),bind_passed image_,bind_passed (require_true secret),
    bind_passed (require_true class_),bind_passed (require_true either),bind_passed (require_true quantity),bind_passed processor,
    bind_passed store]
  exact require_true (by rw [requested,limited]; rfl)

theorem imaged_budget (described : Describes input c.spec) : (imaged t c image).maxCacheGiB = (input.cacheGiB : Int) := by
  change (c.spec.eviction.maxCacheGiB : Int) = _
  rw [described.eviction]

theorem budget_bounds (budgeted : input.template ≠ .webdavApache) :
    1 ≤ input.cacheGiB ∧ input.cacheGiB < input.storageGiB ∧ input.storageGiB ≤ 1048576 := by
  have bounds := input.cacheBounds
  have sizes := input.storageBounds
  rw [if_neg budgeted] at bounds
  omega

theorem budget_fits (described : Describes input c.spec) (budgeted : input.template ≠ .webdavApache) :
    decide ((imaged t c image).maxCacheGiB ≤ (2 ^ 63 - 1) / 2 ^ 30) = true := by
  have bounds := budget_bounds budgeted
  rw [imaged_budget described,decide_eq_true_eq]
  omega

theorem validate_passes (used : names.Used t) (documented : Documented t.library) (described : Describes input c.spec)
    (storage : dns1123Subdomain c.spec.storage.className = true) (pinned : validateImage image = .ok ())
    (budgeted : input.template ≠ .webdavApache) : (imaged t c image).validate t.library = .ok () := by
  obtain ⟨least,less,most⟩ := budget_bounds budgeted
  have cache : (imaged t c image).maxCacheGiB = (input.cacheGiB : Int) := imaged_budget described
  have positive : decide (0 < (imaged t c image).maxCacheGiB) = true := by
    rw [cache,decide_eq_true_eq]
    omega
  have capacity := documented.gibibytes input.storageGiB (by omega)
  rw [← described.capacity] at capacity
  have budget : t.library.parseQuantity s!"{(imaged t c image).maxCacheGiB}Gi" = some (input.cacheGiB * 2 ^ 30 : ℚ) := by
    rw [cache]
    exact documented.gibibytes input.cacheGiB (by omega)
  have smaller : (input.cacheGiB * 2 ^ 30 : ℚ) < (t.library.parseQuantity (imaged t c image).capacity).getD 0 := by
    change _ < (t.library.parseQuantity c.spec.storage.capacity).getD 0
    rw [capacity,Option.getD_some]
    have less : (input.cacheGiB : ℚ) < input.storageGiB := by exact_mod_cast less
    exact mul_lt_mul_of_pos_right less (by norm_num)
  unfold Config.validate
  rw [bind_passed (common_valid used documented described storage pinned),bind_passed (require_true positive)]
  exact require_true ((Option.any_eq_true _ _).mpr ⟨_,budget,decide_eq_true smaller⟩)

/-- What Turborepo, Nx and Go are rendered with: the limits fit, and the only thing that may
    fail is the conversion of the capacity. -/
theorem renderCache_described (engine : String) (before after : Config → List String) (documented : Documented t.library)
    (described : Describes input c.spec) (valid : (imaged t c image).validate t.library = .ok ())
    (budgeted : input.template ≠ .webdavApache) :
    if input.storageGiB < 100000 then
      ∃ out, renderCache engine before after t.library (imaged t c image) = .ok out ∧
        out.args = before (imaged t c image) ++ Commands.limits (input.cacheGiB * 2 ^ 30) (2 ^ 28) ++ after (imaged t c image)
    else renderCache engine before after t.library (imaged t c image) = .error (engine ++ " PVC capacity must fit whole bytes") := by
  obtain ⟨least,less,most⟩ := budget_bounds budgeted
  have cache : (imaged t c image).maxCacheGiB = (input.cacheGiB : Int) := imaged_budget described
  have whole := documented.fast input.storageGiB (by omega) (by omega)
  rw [← described.capacity] at whole
  have bounded : decide ((imaged t c image).maxCacheGiB ≤ (2 ^ 63 - 1) / 2 ^ 30) = true := budget_fits described budgeted
  by_cases fast : input.storageGiB < 100000
  · rw [if_pos fast] at whole ⊢
    have budget : int64 ((input.cacheGiB : Int) * 2 ^ 30) = ((input.cacheGiB * 2 ^ 30 : Nat) : Int) := by
      rw [Renderers.int64_of_bounds (by omega) (by omega)]
      push_cast
      rfl
    have entry : int64 (((input.cacheGiB * 2 ^ 30 : Nat) : Int) - headerSize) = input.cacheGiB * 2 ^ 30 - 4096 := by
      rw [Renderers.int64_of_bounds (by simp only [headerSize]; omega) (by simp only [headerSize]; omega)]
      push_cast
      rfl
    have staging : int64 (int64 ((input.storageGiB : Int) * 2 ^ 30 - ((input.cacheGiB * 2 ^ 30 : Nat) : Int)) - headerSize) =
        (input.storageGiB - input.cacheGiB) * 2 ^ 30 - 4096 := by
      have left : int64 ((input.storageGiB : Int) * 2 ^ 30 - ((input.cacheGiB * 2 ^ 30 : Nat) : Int)) = _ :=
        Renderers.int64_of_bounds (by omega) (by omega)
      rw [left,
        Renderers.int64_of_bounds (by simp only [headerSize]; omega) (by simp only [headerSize]; omega)]
      simp only [headerSize]
      push_cast
      ring
    have room : decide (0 < ((input.storageGiB : Int) - input.cacheGiB) * 2 ^ 30 - 4096) = true := by
      rw [decide_eq_true_eq]
      omega
    have limit : min (min ((input.cacheGiB : Int) * 2 ^ 30 - 4096) (256 * 2 ^ 20))
        (((input.storageGiB : Int) - input.cacheGiB) * 2 ^ 30 - 4096) = ((2 ^ 28 : Nat) : Int) := by
      omega
    have volume : t.library.asInt64 (imaged t c image).capacity = some ((input.storageGiB : Int) * 2 ^ 30) := whole
    unfold renderCache
    rw [bind_passed valid,bind_passed (require_true bounded)]
    simp only [volume,cache,budget,entry,staging,limit,bind_passed (require_true room)]
    exact ⟨_,rfl,rfl⟩
  · rw [if_neg fast] at whole ⊢
    have none_ : t.library.asInt64 (imaged t c image).capacity = none := whole
    unfold renderCache
    rw [bind_passed valid,bind_passed (require_true bounded)]
    simp only [none_]

/-! ### The programs -/

/-- The containers of what is rendered start. -/
def Started (template : Template) (ds : List Desired) : Prop :=
  (∃ n metadata spec, .workload n metadata spec ∈ ds) ∧
  ∀ n metadata spec, .workload n metadata spec ∈ ds → ∀ container ∈ spec.template.spec.containers, Starts template container

theorem objects_started {template : Template} {config : Config} {engine : Engine} {beside : List Container} {ports : List ServicePort}
    {keys : List String}
    (cache : ∀ container : Container, container.name = "cache" → container.args = engine.args → Starts template container)
    (others : ∀ container ∈ beside, Starts template container) : Started template (objects t c config engine beside ports keys) := by
  refine ⟨⟨_,_,_,List.mem_append_right _ (List.mem_cons_of_mem _ (List.mem_cons_of_mem _ List.mem_cons_self))⟩,
    fun n metadata spec member container runs => ?_⟩
  have workload : ∃ cached : Container, cached.name = "cache" ∧ cached.args = engine.args ∧
      spec.template.spec.containers = cached :: beside := by
    simp only [objects,List.mem_append,List.mem_cons,List.not_mem_nil,or_false,reduceCtorEq,false_or] at member
    rcases member with file | ⟨_,_,rfl⟩
    · cases text : engine.file with
      | none => simp [text] at file
      | some f => simp [text] at file
    · exact ⟨_,rfl,rfl,rfl⟩
  obtain ⟨cached,name,args,containers⟩ := workload
  rw [containers] at runs
  rcases List.mem_cons.mp runs with rfl | other
  · exact cache _ name args
  · exact others container other

/-- Texts of the characters of a UUID with something before are keys of Turborepo and Nx. -/
theorem key_valid (u : Uuid) {before : String} (plain : ∀ c ∈ before.toList, alphanumeric c = true ∨ c = '_')
    (short : before.utf8ByteSize ≤ 8) : Turbocache.validKey (before ++ u.text) = true := by
  have long : u.text.utf8ByteSize = 36 := (framed_size u.framed_text).trans u.length
  have size : (before ++ u.text).utf8ByteSize = before.utf8ByteSize + 36 := by rw [String.utf8ByteSize_append,long]
  have other : ∀ s : String, s.utf8ByteSize ≤ 2 → before ++ u.text ≠ s := by
    rintro s small rfl
    omega
  have letters : ∀ c ∈ (before ++ u.text).toList, alphanumeric c = true ∨ c = '-' ∨ c = '_' := by
    intro c member
    rw [String.toList_append,List.mem_append] at member
    rcases member with first | second
    · exact (plain c first).imp_right .inr
    · exact (framed_members u.framed_text second).imp_right .inl
  simp only [Turbocache.validKey,Bool.and_eq_true,decide_eq_true_eq,List.all_eq_true,Bool.or_eq_true]
  refine ⟨⟨⟨⟨by omega,by omega⟩,other "." (by decide)⟩,other ".." (by decide)⟩,fun c member => ?_⟩
  have letter := letters c member
  simp only [alphanumeric,Bool.or_eq_true] at letter
  tauto

/-- Every instance identifier is a scope of the Go cache. -/
theorem scope_valid (u : Uuid) : (u.text = "" || u.text.utf8ByteSize > 63 || u.text.toList.any (fun c => c = '/' || c = '\\')) = false := by
  have long : u.text.utf8ByteSize = 36 := (framed_size u.framed_text).trans u.length
  have some_ := (uuid_valid u).1
  have free : u.text.toList.any (fun c => c = '/' || c = '\\') = false := by
    rw [List.any_eq_false]
    intro c member
    rcases framed_members u.framed_text member with letter | rfl
    · have slash : c ≠ '/' := by
        rintro rfl
        exact absurd letter (by decide)
      have backslash : c ≠ '\\' := by
        rintro rfl
        exact absurd letter (by decide)
      simp [slash,backslash]
    · decide
  simp only [some_,long,free]
  decide

theorem turborepo_starts {maxTotal maxEntry : Nat} (u : Uuid) (positive : 0 < maxEntry) (fits : maxEntry + 4096 ≤ maxTotal)
    (bounded : maxTotal < 2 ^ 63) (sha256 : List UInt8 → String) :
    (Commands.turborepo sha256 (("--team=" ++ ("team_" ++ u.text)) :: Commands.limits maxTotal maxEntry)
      blank.volume 0 []).isSome = true := by
  have valid : ("team_".toList.isPrefixOf ("team_" ++ u.text).toList && Turbocache.validKey ("team_" ++ u.text)) = true := by
    have plain : ∀ c ∈ "team_".toList, alphanumeric c = true ∨ c = '_' := by
      intro c member
      simp only [show "team_".toList = ['t','e','a','m','_'] from rfl,List.mem_cons,List.not_mem_nil,or_false] at member
      rcases member with rfl | rfl | rfl | rfl | rfl <;> decide
    rw [key_valid u plain (by decide),Bool.and_true,List.isPrefixOf_iff_prefix,String.toList_append]
    exact List.prefix_append _ _
  have started := Headroom.turbo_starts (c := ⟨sha256,maxEntry,maxTotal⟩)
    ⟨Int.natCast_pos.mpr positive,by simp only [Turbocache.headerSize]; omega⟩
  rw [Commands.turborepo,Commands.turborepo_parsed _ positive (by omega) bounded]
  change (Commands.turboNew sha256 ("team_" ++ u.text) maxEntry maxTotal blank.volume 0 []).isSome = true
  rw [Commands.turboNew,if_pos valid,started]
  rfl

theorem nx_starts {maxTotal maxEntry : Nat} (u : Uuid) (positive : 0 < maxEntry) (fits : maxEntry + 4096 ≤ maxTotal)
    (bounded : maxTotal < 2 ^ 63) (sha256 : List UInt8 → String) :
    (Commands.nx sha256 (("--namespace=" ++ u.text) :: Commands.limits maxTotal maxEntry) blank.volume 0 []).isSome = true := by
  have valid : Nxcache.validKey u.text = true := by
    have plain : ∀ c ∈ "".toList, alphanumeric c = true ∨ c = '_' := by simp
    have key := key_valid u plain (by decide)
    rwa [String.empty_append] at key
  have started := Headroom.nx_starts (c := ⟨sha256,maxEntry,maxTotal⟩)
    ⟨Int.natCast_pos.mpr positive,by simp only [Nxcache.headerSize]; omega⟩
  rw [Commands.nx,Commands.nx_parsed _ positive (by omega) bounded]
  change (Commands.nxNew sha256 u.text maxEntry maxTotal blank.volume 0 []).isSome = true
  rw [Commands.nxNew,if_pos valid,started]
  rfl

theorem go_starts {maxTotal maxEntry : Nat} (u : Uuid) (readOnly : Bool) (positive : 0 < maxEntry) (fits : maxEntry + 4096 ≤ maxTotal)
    (bounded : maxTotal < 2 ^ 63) (sha256 md5 : List UInt8 → String) :
    (Commands.go sha256 md5 (("--namespace=" ++ u.text) :: (Commands.limits maxTotal maxEntry ++ ["--read-only=" ++ toString readOnly]))
      blank.volume 0 []).isSome = true := by
  have started := Headroom.go_starts (c := ⟨sha256,md5,maxEntry,maxTotal,readOnly⟩)
    ⟨Int.natCast_pos.mpr positive,by simp only [Gocache.headerSize]; omega⟩
  rw [Commands.go,Commands.go_parsed _ _ positive (by omega) bounded]
  change (Commands.goNew sha256 md5 u.text maxEntry maxTotal readOnly blank.volume 0 []).isSome = true
  rw [Commands.goNew,scope_valid u]
  simp only [Bool.false_eq_true,if_false]
  rw [started]
  rfl

theorem gradle_starts {maxTotal maxEntry : Nat} (positive : 0 < maxEntry) (fits : maxEntry ≤ maxTotal) (bounded : maxTotal < 2 ^ 63) :
    (Commands.gradle (Commands.limits maxTotal maxEntry) blank.volume 0 []).isSome = true := by
  rw [Commands.gradle,Commands.gradle_parsed positive fits bounded]
  change ((⟨maxEntry,maxTotal⟩ : Gradlecache.Server).new blank.volume 0 []).isSome = true
  have scanned : Gradlecache.Server.scan (Engines.items (blank : Engines.Mounted Gradlecache.Archive).volume) (.fresh blank.volume 0 []) =
      some (.fresh blank.volume 0 []) := rfl
  have within : decide ((Engines.Store.fresh (blank : Engines.Mounted Gradlecache.Archive).volume 0 []).used ≤ (maxTotal : Int)) = true := by
    rw [decide_eq_true_eq]
    exact Int.natCast_nonneg maxTotal
  have idle : (⟨maxEntry,maxTotal⟩ : Gradlecache.Server).evictLocked none (.fresh blank.volume 0 []) = (.fresh blank.volume 0 [],.ok) := by
    unfold Gradlecache.Server.evictLocked
    simp only [within,if_true]
  unfold Gradlecache.Server.new
  rw [if_neg (by simp; omega)]
  simp only [scanned]
  rw [idle]
  rfl

/-! ### The renderers -/

theorem bind_pinned {ref : TemplateRef} {images : Images} (known : ∃ capabilities, describe ref = .ok capabilities)
    (pinned : Pinned ref images) : ∃ a, bind_ ref images = .ok a ∧ a.templateRef = ref ∧ validateImage a.image = .ok () ∧
      (hasStatistics ref = true → validateImage a.statsImage = .ok ()) := by
  obtain ⟨capabilities,described⟩ := known
  have present : ∀ name ∈ images.keys, validateImage ((images.lookup name).getD "") = .ok () := by
    intro name member
    obtain ⟨image,found⟩ := Finmap.mem_iff.mp (Finmap.mem_keys.mp member)
    rw [found]
    exact pinned.valid found
  have cached : validateImage ((images.lookup "cache").getD "") = .ok () :=
    present "cache" (by rw [pinned.keys]; split <;> simp)
  cases stats : hasStatistics ref with
  | false =>
    refine ⟨⟨ref,(images.lookup "cache").getD "",""⟩,?_,rfl,cached,fun has => by cases has⟩
    unfold bind_
    rw [bind_passed described]
    simp only [stats,Bool.false_eq_true,if_false,pinned.keys]
    have one : decide (({"cache"} : Finset String).card = 1) = true := rfl
    rw [bind_passed (require_true one),cached]
    rfl
  | true =>
    have reported : validateImage ((images.lookup "statistics").getD "") = .ok () :=
      present "statistics" (by rw [pinned.keys,stats]; simp)
    refine ⟨⟨ref,(images.lookup "cache").getD "",(images.lookup "statistics").getD ""⟩,?_,rfl,cached,fun _ => reported⟩
    unfold bind_
    rw [bind_passed described]
    simp only [stats,if_true,pinned.keys]
    have two : decide (({"cache","statistics"} : Finset String).card = 2) = true := rfl
    rw [bind_passed (prefixed_passed reported),bind_passed (require_true two),cached]
    rfl

theorem described_known (described : Describes input c.spec) : ∃ capabilities, describe (refOf c) = .ok capabilities := by
  obtain ⟨capabilities,known,_⟩ := Renderers.bind_ok (policy_described described)
  exact ⟨capabilities,known⟩

/-- The renderers of Turborepo, Nx and Go on the configuration of an object. -/
theorem cacheRender_started {engine : String} {before after : Config → List String} {template : Template}
    (documented : Documented t.library) (described : Describes input c.spec)
    (valid : (imaged t c image).validate t.library = .ok ()) (budgeted : input.template ≠ .webdavApache)
    (starts : ∀ container : Container, container.name = "cache" →
      container.args = before (imaged t c image) ++ Commands.limits (input.cacheGiB * 2 ^ 30) (2 ^ 28) ++ after (imaged t c image) →
      Starts template container) :
    (∃ ds, cacheRender (renderCache engine before after) t c (imaged t c image) = .ok ds ∧ Started template ds) ↔
      input.storageGiB < 100000 := by
  have rendered := renderCache_described engine before after documented described valid budgeted
  by_cases fast : input.storageGiB < 100000
  · rw [if_pos fast] at rendered
    obtain ⟨out,passed,args⟩ := rendered
    refine iff_of_true ⟨_,bind_passed passed,objects_started (fun container name same => ?_) (by simp)⟩ fast
    exact starts container name (by rw [same,args])
  · rw [if_neg fast] at rendered
    refine iff_of_false ?_ fast
    rintro ⟨ds,passed,_⟩
    obtain ⟨out,done,_⟩ := Renderers.bind_ok passed
    rw [rendered] at done
    cases done

theorem bazelRender_started (valid : (imaged t c image).validate t.library = .ok ()) :
    ∃ ds, bazelRender t c (imaged t c image) = .ok ds ∧ Started .bazelRemote ds :=
  ⟨_,bind_passed valid,objects_started (fun _ _ _ => trivial) (by simp)⟩

theorem gradleRender_started (described : Describes input c.spec) (valid : (imaged t c image).validate t.library = .ok ())
    (budgeted : input.template ≠ .webdavApache) : ∃ ds, gradleRender t c (imaged t c image) = .ok ds ∧ Started .gradleHttp ds := by
  obtain ⟨least,less,most⟩ := budget_bounds budgeted
  have bounded : decide ((imaged t c image).maxCacheGiB ≤ (2 ^ 63 - 1) / 2 ^ 30) = true := budget_fits described budgeted
  have total : (imaged t c image).maxCacheGiB * 2 ^ 30 = ((input.cacheGiB * 2 ^ 30 : Nat) : Int) := by
    rw [imaged_budget described]
    push_cast
    rfl
  have entry : min (((input.cacheGiB * 2 ^ 30 : Nat) : Int)) (2 ^ 30) = ((2 ^ 30 : Nat) : Int) := by
    omega
  unfold gradleRender
  rw [bind_passed valid,bind_passed (require_true bounded)]
  simp only [total,entry]
  refine ⟨_,rfl,objects_started (fun container name same => ?_) (by simp)⟩
  have args : container.args = Commands.limits (input.cacheGiB * 2 ^ 30) (2 ^ 30) := same
  intro _
  rw [args]
  exact gradle_starts (by norm_num) (by omega) (by omega)

theorem webdavEngine_passes (described : Describes input c.spec) (valid : (imaged t c image).validateCommon t.library = .ok ())
    (unbudgeted : input.template = .webdavApache) : ∃ engine, webdavEngine t (imaged t c image) = .ok engine := by
  have bounds := input.cacheBounds
  rw [if_pos unbudgeted] at bounds
  have cache : decide ((imaged t c image).maxCacheGiB = 0) = true := by
    change decide ((c.spec.eviction.maxCacheGiB : Int) = 0) = true
    rw [described.eviction,bounds]
    rfl
  unfold webdavEngine
  rw [bind_passed valid,bind_passed (require_true cache)]
  exact ⟨_,rfl⟩

theorem webdavRender_started (described : Describes input c.spec) (valid : (imaged t c image).validateCommon t.library = .ok ())
    (unbudgeted : input.template = .webdavApache) : ∃ ds, webdavRender t c (imaged t c image) = .ok ds ∧ Started .webdavApache ds := by
  obtain ⟨engine,made⟩ := webdavEngine_passes described valid unbudgeted
  refine ⟨_,bind_passed made,objects_started (fun container name _ statistics => ?_) (by simp)⟩
  rw [name] at statistics
  exact absurd statistics (by decide)

/-- The statistics leave something of each resource. -/
theorem without_passes {r : Renderers.Resources} {name : String} {q : ℚ} (enough : statsPart name < q)
    (request : r.requests.lookup name = some q) (limit : r.limits.lookup name = some q) : ∃ rest, without name r = .ok rest := by
  have left : (decide (0 < (r.requests.lookup name).getD 0 - statsPart name) &&
      decide ((r.requests.lookup name).getD 0 - statsPart name ≤ (r.limits.lookup name).getD 0 - statsPart name)) = true := by
    rw [request,limit,Option.getD_some,Bool.and_eq_true,decide_eq_true_eq,decide_eq_true_eq]
    exact ⟨sub_pos.mpr enough,le_rfl⟩
  exact ⟨_,bind_passed (require_true left)⟩

theorem webdavStatsRender_started {statsImage : String} (documented : Documented t.library) (described : Describes input c.spec)
    (valid : (imaged t c image).validateCommon t.library = .ok ()) (unbudgeted : input.template = .webdavApache)
    (pinned : validateImage statsImage = .ok ()) :
    ∃ ds, webdavStatsRender t c (imaged t c image) statsImage = .ok ds ∧ Started .webdavApache ds := by
  obtain ⟨engine,made⟩ := webdavEngine_passes described valid unbudgeted
  obtain ⟨cpuBound,memoryBound,sizeBound⟩ := And.intro input.cpuBounds (And.intro input.memoryBounds input.storageBounds)
  obtain ⟨requests,limits⟩ := quantities_described documented described
  have parsed := documented.gibibytes input.storageGiB (by omega)
  rw [← described.capacity] at parsed
  have capacity : ⌈(t.library.parseQuantity (imaged t c image).capacity).getD 0⌉ = ((input.storageGiB * 2 ^ 30 : Nat) : Int) := by
    change ⌈(t.library.parseQuantity c.spec.storage.capacity).getD 0⌉ = _
    rw [parsed,Option.getD_some,Int.ceil_eq_iff]
    push_cast
    constructor <;> linarith
  have bounded : (decide (0 < ((input.storageGiB * 2 ^ 30 : Nat) : Int)) &&
      decide (((input.storageGiB * 2 ^ 30 : Nat) : Int) ≤ 2 ^ 50)) = true := by
    rw [Bool.and_eq_true,decide_eq_true_eq,decide_eq_true_eq]
    omega
  have cpuEnough : statsPart "cpu" < (input.cpuMillis / 1000 : ℚ) := by
    have least : (100 : ℚ) ≤ input.cpuMillis := by exact_mod_cast cpuBound.1
    rw [statsPart,if_pos rfl]
    linarith
  have memoryEnough : statsPart "memory" < (input.memoryMiB * 2 ^ 20 : ℚ) := by
    have least : (128 : ℚ) ≤ input.memoryMiB := by exact_mod_cast memoryBound.1
    rw [statsPart,if_neg (by decide)]
    linarith
  obtain ⟨cpu,cpuLeft⟩ := without_passes (r := (imaged t c image).resources) cpuEnough
    (by rw [show (imaged t c image).resources.requests = _ from requests]; rfl)
    (by rw [show (imaged t c image).resources.limits = _ from limits]; rfl)
  obtain ⟨memory,memoryLeft⟩ := without_passes (r := (imaged t c image).resources) memoryEnough
    (by rw [show (imaged t c image).resources.requests = _ from requests]; rfl)
    (by rw [show (imaged t c image).resources.limits = _ from limits]; rfl)
  unfold webdavStatsRender
  rw [bind_passed (prefixed_passed pinned),bind_passed made]
  simp only [capacity]
  rw [bind_passed (require_true bounded),bind_passed cpuLeft,bind_passed memoryLeft]
  refine ⟨_,rfl,objects_started (fun container name _ statistics => ?_) (fun container member => ?_)⟩
  · rw [name] at statistics
    exact absurd statistics (by decide)
  · rw [List.mem_singleton.mp member]
    intro _
    have started : Commands.webdavStats ["-capacity-bytes=" ++ toString (input.storageGiB * 2 ^ 30)] = _ :=
      Commands.webdavStats_starts (by omega) (by omega)
    exact Option.isSome_of_eq_some started

/-- The operator renders an object, and the engine starts, exactly where the capacity can be
    converted. -/
theorem described_runs (used : names.Used t) (documented : Documented t.library) {images : Images} (described : Describes input c.spec)
    (storage : dns1123Subdomain c.spec.storage.className = true) (pinned : Pinned (refOf c) images) :
    Runs t c images ↔ Convertible input := by
  have policy := policy_described described
  obtain ⟨a,bound,ref,image,stats⟩ := bind_pinned (described_known described) pinned
  have own : policyOf a.templateRef = .ok c.spec.eviction.enginePolicy := by rw [ref,policy]
  have asked : decide (c.spec.eviction.enginePolicy = c.spec.eviction.enginePolicy) = true := decide_eq_true rfl
  have common := common_valid used documented described storage image
  have reduced : Runs t c images ↔ ∃ ds, a.render t c c.spec.eviction.enginePolicy = .ok ds ∧ Started c.spec.templateName ds := by
    constructor
    · rintro ⟨_,a',ds,bound',rendered,started⟩
      rw [bound] at bound'
      cases bound'
      exact ⟨ds,rendered,started⟩
    · rintro ⟨ds,rendered,started⟩
      exact ⟨policy,a,ds,bound,rendered,started⟩
  rw [reduced]
  unfold Adapter.render
  rw [bind_passed own,bind_passed (require_true asked),ref]
  have template := described.template
  have identity : (imaged t c a.image).instanceID = (names.instance_ c.spec.instanceId).text := used.instanceId c.spec.instanceId
  simp only [refOf,template]
  cases chosen : input.template with
  | bazelRemote =>
    have valid := validate_passes used documented described storage image (by simp [chosen])
    exact iff_of_true (bazelRender_started valid) (by simp [Convertible,chosen])
  | webdavApache =>
    refine iff_of_true ?_ (by simp [Convertible,chosen])
    cases version : c.spec.templateVersion with
    | v010 => exact webdavRender_started described common chosen
    | v020 =>
      have has : hasStatistics (refOf c) = true := by simp [hasStatistics,refOf,template,chosen,version]
      exact webdavStatsRender_started documented described common chosen (stats has)
  | gradleHttp =>
    have budgeted : input.template ≠ .webdavApache := by simp [chosen]
    have valid := validate_passes used documented described storage image budgeted
    exact iff_of_true (gradleRender_started described valid budgeted) (by simp [Convertible,chosen])
  | turborepoHttp =>
    have budgeted : input.template ≠ .webdavApache := by simp [chosen]
    have valid := validate_passes used documented described storage image budgeted
    have convertible : Convertible input ↔ input.storageGiB < 100000 := by simp [Convertible,chosen]
    obtain ⟨least,less,most⟩ := budget_bounds budgeted
    rw [convertible]
    refine cacheRender_started documented described valid budgeted (fun container name args => ?_)
    intro _ sha256
    rw [args,identity,List.append_nil]
    exact turborepo_starts _ (by norm_num) (by omega) (by omega) sha256
  | nxHttp =>
    have budgeted : input.template ≠ .webdavApache := by simp [chosen]
    have valid := validate_passes used documented described storage image budgeted
    have convertible : Convertible input ↔ input.storageGiB < 100000 := by simp [Convertible,chosen]
    obtain ⟨least,less,most⟩ := budget_bounds budgeted
    rw [convertible]
    refine cacheRender_started documented described valid budgeted (fun container name args => ?_)
    intro _ sha256
    rw [args,identity,List.append_nil]
    exact nx_starts _ (by norm_num) (by omega) (by omega) sha256
  | goCacheprog =>
    have budgeted : input.template ≠ .webdavApache := by simp [chosen]
    have valid := validate_passes used documented described storage image budgeted
    have convertible : Convertible input ↔ input.storageGiB < 100000 := by simp [Convertible,chosen]
    obtain ⟨least,less,most⟩ := budget_bounds budgeted
    rw [convertible]
    refine cacheRender_started documented described valid budgeted (fun container name args => ?_)
    intro _ sha256 md5
    rw [args,identity]
    exact go_starts _ _ (by norm_num) (by omega) (by omega) sha256 md5

end

/-- Every object that the API asks for is rendered by the operator and its engine starts, but
    for Turborepo, Nx and Go on volumes of 100000 GiB and more. -/
theorem accepted_runs (t : Toolkit) (names : Names) (used : names.Used t) (documented : Documented t.library) (input : InstanceInput)
    (m : Manifest) (asked : Asked input m) (storage : dns1123Subdomain m.spec.storage.className = true) (c : Instance)
    (seen : c.key = (m.ns,m.name) ∧ c.spec = m.spec) (images : Images)
    (pinned : Pinned ⟨m.spec.templateName,m.spec.templateVersion⟩ images) : Runs t c images ↔ Convertible input := by
  obtain ⟨_,same⟩ := seen
  have described := asked_describes asked
  rw [← same] at described storage pinned
  exact described_runs used documented described storage pinned

/-! ### A volume of 100000 GiB -/

def zero : Uuid where
  text := String.ofList "00000000-0000-4000-8000-000000000000".toList
  length := by decide
  digits := by
    rw [String.toList_ofList]
    decide

/-- A number and the unit behind it. -/
def parts (s : String) : Nat × List Char :=
  (Nat.ofDigitChars 10 (s.toList.takeWhile Char.isDigit) 0,s.toList.dropWhile Char.isDigit)

/-- Quantities in GiB, in MiB and in thousandths. -/
def library : Library where
  isDNS1123Label := dns1123Label
  isDNS1123Subdomain := dns1123Subdomain
  isValidLabelValue := labelValue
  parseQuantity := fun s =>
    match parts s with
    | (n,['G','i']) => some (n * 2 ^ 30)
    | (n,['M','i']) => some (n * 2 ^ 20)
    | (n,['m']) => some (n / 1000)
    | _ => none
  asInt64 := fun s =>
    match parts s with
    | (n,['G','i']) => if n < 100000 then some (n * 2 ^ 30) else none
    | _ => none

theorem parts_toString (n : Nat) (unit : String) {first : Char} {rest : List Char} (text : unit = String.ofList (first :: rest))
    (letter : first.isDigit = false) : parts (toString n ++ unit) = (n,first :: rest) := by
  obtain ⟨takes,drops⟩ := amount_parts n rest letter
  rw [parts,text,takes,drops,Nat.ofDigitChars_ten_toDigits]

theorem library_documented : Documented library where
  label := rfl
  subdomain := rfl
  labelValue := rfl
  gibibytes := fun n _ => by simp only [library,parts_toString n "Gi" rfl rfl]
  mebibytes := fun n _ => by simp only [library,parts_toString n "Mi" rfl rfl]
  millis := fun n _ => by simp only [library,parts_toString n "m" rfl rfl]
  fast := fun n _ _ => by simp only [library,parts_toString n "Gi" rfl rfl]

def names : Names := ⟨fun _ => zero,fun _ => zero,fun _ => zero⟩

def toolkit : Toolkit where
  library := library
  sha256 := fun text => text
  ns := fun _ => "expbuild-" ++ zero.text
  name := fun _ => "c-" ++ zero.text
  instanceId := fun _ => zero.text
  projectId := fun _ => zero.text
  secret := fun
    | .initial _ => "c-" ++ zero.text ++ "-auth"
    | .issued _ => "auth-" ++ zero.text
  httpdConf := ""

theorem names_used : names.Used toolkit := ⟨fun _ => rfl,fun _ => rfl,fun _ => rfl,fun _ => rfl,fun _ => rfl,fun _ => rfl⟩

/-- A Turborepo cache of one GiB on a volume of this size. -/
def sized (storageGiB : Nat) (bounds : 2 ≤ storageGiB ∧ storageGiB ≤ 1048576) : InstanceInput where
  template := .turborepoHttp
  name := "cache"
  storageGiB := storageGiB
  cpuMillis := 1000
  memoryMiB := 2048
  cacheGiB := 1
  exposure := .clusterInternal
  desiredState := .running
  deletionPolicy := .retain
  readOnly := true
  storageBounds := bounds
  cpuBounds := by decide
  memoryBounds := by decide
  cacheBounds := ⟨by decide,by decide,by omega⟩

def refused : InstanceInput := sized 100000 (by omega)
def largest : InstanceInput := sized 99999 (by omega)

def manifest (input : InstanceInput) : Manifest := desiredObject input 1 ⟨1⟩ 1 "standard" 1 (.create input)

theorem manifest_asked (input : InstanceInput) : Asked input (manifest input) := .created _ _ _ _ _ _

def created (input : InstanceInput) : Instance where
  key := (⟨1⟩,⟨1⟩)
  uid := 0
  generation := 1
  version := 0
  deleting := false
  finalizers := false
  metadata := {}
  spec := (manifest input).spec

def approved : Images := Finmap.singleton "cache" ("registry/cache@sha256:" ++ String.ofList (List.replicate 64 '0'))

theorem approved_pinned : Pinned ⟨.turborepoHttp,.v010⟩ approved where
  keys := rfl
  valid := by
    intro name image found
    have here : name = "cache" := by
      have member : name ∈ approved := Finmap.mem_of_lookup_eq_some found
      simpa [approved] using member
    rw [here,approved,Finmap.lookup_singleton_eq] at found
    cases found
    decide

/-- The API takes an input with a volume of 100000 GiB, and the operator refuses its object. -/
theorem accepted_runs_refused : names.Used toolkit ∧ Documented toolkit.library ∧ Asked refused (manifest refused) ∧
    dns1123Subdomain (manifest refused).spec.storage.className = true ∧ (created refused).spec = (manifest refused).spec ∧
    Pinned ⟨.turborepoHttp,.v010⟩ approved ∧ ¬ Runs toolkit (created refused) approved := by
  have storage : dns1123Subdomain "standard" = true := by decide
  refine ⟨names_used,library_documented,manifest_asked refused,storage,rfl,approved_pinned,fun runs => ?_⟩
  have convertible := (described_runs (c := created refused) names_used library_documented (asked_describes (manifest_asked refused)) storage
    approved_pinned).mp runs
  exact absurd (convertible (.inl rfl)) (by decide)

/-- On a volume of 99999 GiB the same cache runs. -/
theorem accepted_runs_largest : Runs toolkit (created largest) approved :=
  (accepted_runs toolkit names names_used library_documented largest (manifest largest) (manifest_asked largest) (by decide)
    (created largest) ⟨rfl,rfl⟩ approved approved_pinned).mpr (by decide)

end Expbuild.Startup
