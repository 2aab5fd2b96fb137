import Expbuild.Kinds
import Expbuild.Renderers

/-!
`templates/registry.go` and the `Render` of every engine: which images a template takes,
and the volume, configuration, Services and workload that an instance of it consists of.
What is rendered is all of that, and the containers of the workload run exactly the
images of its adapter (`render_whole`).
-/
namespace Expbuild.Adapters
open Expbuild.Contract Expbuild.Kinds Expbuild.Clusters
open Expbuild.Renderers (Config Library require validateImage)
open Expbuild.Calls (Key)

/-! ### The registry -/

/-- A zero port means that there is none. -/
structure Capabilities where
  httpProtocol : String
  httpBasePath : String := ""
  httpPort : Nat
  grpcPort : Nat := 0
  metricsPort : Nat := 0
  metricsPortName : String := ""
  metricsPath : String := ""
  deriving DecidableEq,Repr

structure Adapter where
  templateRef : TemplateRef
  image : String
  statsImage : String := ""
  deriving DecidableEq,Repr

def unsupported (ref : TemplateRef) : String :=
  let name := match ref.name with
    | .bazelRemote => "bazel-remote"
    | .webdavApache => "webdav-apache"
    | .gradleHttp => "gradle-http"
    | .turborepoHttp => "turborepo-http"
    | .nxHttp => "nx-http"
    | .goCacheprog => "go-cacheprog"
  let version := match ref.version with
    | .v010 => "0.1.0"
    | .v020 => "0.2.0"
  "unsupported template " ++ name ++ "@" ++ version

/-- `Describe`; an unknown version has no capabilities. -/
def describe (ref : TemplateRef) : Except String Capabilities :=
  match ref.name,ref.version with
  | .bazelRemote,.v010 => .ok { httpProtocol := "bazel-http", httpPort := 8080, grpcPort := 9092, metricsPort := 8080, metricsPortName := "http", metricsPath := "/metrics" }
  | .webdavApache,_ => .ok { httpProtocol := "webdav", httpPort := 8080 }
  | .turborepoHttp,.v010 => .ok { httpProtocol := "turborepo-http", httpPort := 8080 }
  | .nxHttp,.v010 => .ok { httpProtocol := "nx-http", httpPort := 8080 }
  | .goCacheprog,.v010 => .ok { httpProtocol := "go-cacheprog", httpPort := 8080 }
  | .gradleHttp,_ => .ok { httpProtocol := "gradle-http", httpBasePath := "/cache/", httpPort := 8080, metricsPort := 8080, metricsPortName := "http", metricsPath := "/metrics" }
  | _,_ => .error (unsupported ref)

def policyOf (ref : TemplateRef) : Except String EnginePolicy := do
  let _ ← describe ref
  return if ref.name = .webdavApache then .none else .lru

/-- Whether the template has a container for statistics. -/
def hasStatistics (ref : TemplateRef) : Bool := decide (ref = ⟨.webdavApache,.v020⟩)

def prefixed {α : Type} (before : String) : Except String α → Except String α
  | .ok a => .ok a
  | .error message => .error (before ++ message)

/-- `Bind` -/
def bind_ (ref : TemplateRef) (images : Images) : Except String Adapter := do
  let _ ← describe ref
  let statsImage := if hasStatistics ref then (images.lookup "statistics").getD "" else ""
  if hasStatistics ref then prefixed "statistics: " (validateImage statsImage)
  require (images.keys.card = if hasStatistics ref then 2 else 1) "image set differs from the exact template's containers"
  let image := (images.lookup "cache").getD ""
  prefixed "cache: " (validateImage image)
  return ⟨ref,image,statsImage⟩

/-- Only templates with statistics have an image for them. -/
def Adapter.Tidy (a : Adapter) : Prop := hasStatistics a.templateRef = false → a.statsImage = ""

/-- The images that the administrator has approved for new instances. -/
structure Approved where
  bazel : String := ""
  webdav : String := ""
  stats : String := ""
  gradle : String := ""
  turborepo : String := ""
  nx : String := ""
  goCache : String := ""
  deriving DecidableEq,Repr

def Approved.image (approved : Approved) : Template → String
  | .bazelRemote => approved.bazel
  | .webdavApache => approved.webdav
  | .gradleHttp => approved.gradle
  | .turborepoHttp => approved.turborepo
  | .nxHttp => approved.nx
  | .goCacheprog => approved.goCache

/-- `Resolve` -/
def resolve (ref : TemplateRef) (approved : Approved) : Except String Adapter :=
  let images : Images := Finmap.singleton "cache" (approved.image ref.name)
  bind_ ref (if hasStatistics ref then images.insert "statistics" approved.stats else images)

/-- The images by container. -/
def Adapter.images (a : Adapter) : Images :=
  let images : Images := Finmap.singleton "cache" a.image
  if a.statsImage ≠ "" then images.insert "statistics" a.statsImage else images

/-! ### Rendering -/

/-- What the operator is installed with: the checks of Kubernetes, digests, the texts of
    the identifiers and the configuration of Apache. -/
structure Toolkit where
  library : Library
  /-- The hexadecimal digest of a text. -/
  sha256 : String → String
  ns : Namespace → String
  name : ResourceName → String
  instanceId : InstanceId → String
  projectId : ProjectId → String
  secret : SecretName → String
  httpdConf : String

def quantities (k : Library) (r : ResourceList) : List (String × ℚ) :=
  let part (name : String) (text : Option String) : List (String × ℚ) :=
    match text.bind k.parseQuantity with
    | some q => [(name,q)]
    | none => []
  part "cpu" r.cpu ++ part "memory" r.memory

/-- `config`; the image is left to the adapter. -/
def configOf (t : Toolkit) (c : Instance) : Config where
  readOnly := c.spec.access.readOnly.getD false
  name := t.name c.key.2
  namespace_ := t.ns c.key.1
  instanceID := t.instanceId c.spec.instanceId
  projectID := t.projectId c.spec.projectId
  image := ""
  storageClass := c.spec.storage.className
  capacity := c.spec.storage.capacity
  maxCacheGiB := (c.spec.eviction.maxCacheGiB : Int)
  credentialsSecret := t.secret c.spec.access.credentialsSecretRef
  desiredState := match c.spec.desiredState with
    | .running => "Running"
    | .suspended => "Suspended"
  resources := ⟨quantities t.library c.spec.requests,quantities t.library c.spec.limits,[]⟩

/-- An object as it should be. -/
inductive Desired where
  | volume (n : Key) (metadata : VolumeMeta) (spec : VolumeSpec)
  | config (n : Namespace × String) (metadata : ConfigMeta) (spec : ConfigSpec)
  | child (n : Key × ChildName) (metadata : ChildMeta) (spec : ChildSpec)
  | workload (n : Key) (metadata : WorkloadMeta) (spec : WorkloadSpec)
  deriving DecidableEq

/-- What the engines differ in. -/
structure Engine where
  /-- The name and the text of the configuration, which is mounted if there is one. -/
  file : Option (String × String)
  /-- The text whose digest is the configuration hash. -/
  hashed : String
  ports : List ServicePort
  command : List String := []
  args : List String
  /-- A volume for temporary files. -/
  tmp : Bool

def rendered (k : Library) (c : Instance) : VolumeMeta × VolumeSpec :=
  ({ labels := Contract.labels c.spec.projectId (some c.spec.instanceId) },
    ⟨some c.spec.storage.className,["ReadWriteOnce"],some ((k.parseQuantity c.spec.storage.capacity).getD 0)⟩)

/-- The objects of an engine, with the containers beside the cache. -/
def objects (t : Toolkit) (c : Instance) (config : Config) (engine : Engine) (beside : List Container)
    (servicePorts : List ServicePort) (keys : List String) : List Desired :=
  let marks : Labels := Contract.labels c.spec.projectId (some c.spec.instanceId)
  let hash := t.sha256 engine.hashed
  let configName := config.name ++ "-cfg-" ++ (hash.take 12).toString
  let volume := rendered t.library c
  let configVolume : List PodVolume := match engine.file with
    | some _ => [{ name := "config", configMap := some configName }]
    | none => []
  let tmp : List PodVolume := if engine.tmp then [{ name := "tmp" }] else []
  let cache : Container :=
    { name := "cache", image := config.image, command := engine.command, args := engine.args
      requests := config.resources.requests, limits := config.resources.limits }
  let template : PodTemplate :=
    { labels := marks, configHash := hash
      spec :=
        { containers := cache :: beside
          volumes := [{ name := "data", claim := some c.key.2 }] ++ configVolume ++
            [{ name := "auth", secret := some (c.spec.access.credentialsSecretRef,keys) }] ++ tmp } }
  [.volume c.key volume.1 volume.2] ++
  (match engine.file with
    | some (file,text) => [.config (c.key.1,configName) { labels := marks } { immutable := some true, data := [(file,text)] }]
    | none => []) ++
  [.child (c.key,.headless) { labels := marks } (.service marks engine.ports),
   .child (c.key,.service) { labels := marks } (.service marks servicePorts),
   .workload c.key { labels := marks } ⟨some (if config.desiredState = "Suspended" then 0 else 1),template⟩]

def httpPort : ServicePort := ⟨"http",8080,none⟩

/-- `fmt.Sprint` of the arguments. -/
def sprint (args : List String) : String := "[" ++ " ".intercalate args ++ "]"

/-- `bazelremote.Render` -/
def bazelRender (t : Toolkit) (c : Instance) (config : Config) : Except String (List Desired) := do
  config.validate t.library
  let text := s!"dir: /data\nmax_size: {config.maxCacheGiB}\nhttp_address: 0.0.0.0:8080\ngrpc_address: 0.0.0.0:9092\n" ++
    "htpasswd_file: /auth/htpasswd\nallow_unauthenticated_reads: false\nenable_endpoint_metrics: true\n"
  let ports := [httpPort,⟨"grpc",9092,some "kubernetes.io/h2c"⟩]
  return objects t c config ⟨some ("config.yaml",text),text,ports,[],["--config_file=/config/config.yaml"],true⟩ [] ports ["htpasswd"]

/-- The check and the engine of `webdav.Render`. -/
def webdavEngine (t : Toolkit) (config : Config) : Except String Engine := do
  config.validateCommon t.library
  require (config.maxCacheGiB = 0) "WebDAV does not support an engine cache budget; maxCacheGiB must be zero"
  return ⟨some ("httpd.conf",t.httpdConf),t.httpdConf,[httpPort],["/bin/sh"],
    ["-ec","mkdir -p /data/content /data/locks; exec httpd -DFOREGROUND -f /config/httpd.conf"],true⟩

/-- `webdav.Render` -/
def webdavRender (t : Toolkit) (c : Instance) (config : Config) : Except String (List Desired) := do
  let engine ← webdavEngine t config
  return objects t c config engine [] [httpPort] ["htpasswd"]

/-- What the statistics take of a resource. -/
def statsPart (name : String) : ℚ := if name = "cpu" then 25 / 1000 else 32 * 2 ^ 20

/-- A resource without what the statistics take. -/
def without (name : String) (r : Renderers.Resources) : Except String (ℚ × ℚ) := do
  let request := (r.requests.lookup name).getD 0 - statsPart name
  let limit := (r.limits.lookup name).getD 0 - statsPart name
  require (0 < request && request ≤ limit) ("insufficient " ++ name ++ " for WebDAV statistics sidecar")
  return (request,limit)

/-- `webdav.RenderWithStats` -/
def webdavStatsRender (t : Toolkit) (c : Instance) (config : Config) (statsImage : String) : Except String (List Desired) := do
  prefixed "statistics: " (validateImage statsImage)
  let engine ← webdavEngine t config
  let capacity := ⌈(t.library.parseQuantity config.capacity).getD 0⌉
  require (0 < capacity && capacity ≤ 2 ^ 50) "unsupported WebDAV statistics capacity"
  let cpu ← without "cpu" config.resources
  let memory ← without "memory" config.resources
  let main : Renderers.Resources := ⟨[("cpu",cpu.1),("memory",memory.1)],[("cpu",cpu.2),("memory",memory.2)],[]⟩
  let part : List (String × ℚ) := [("cpu",statsPart "cpu"),("memory",statsPart "memory")]
  let statistics : Container :=
    { name := "statistics", image := statsImage, command := ["/webdav-stats"], args := [s!"-capacity-bytes={capacity}"]
      requests := part, limits := part }
  return objects t c { config with resources := main } engine [statistics] [httpPort,⟨"stats",9093,none⟩]
    ["htpasswd","probe-username","probe-password"]

/-- `gradlecache.Render` -/
def gradleRender (t : Toolkit) (c : Instance) (config : Config) : Except String (List Desired) := do
  config.validate t.library
  require (config.maxCacheGiB ≤ (2 ^ 63 - 1) / 2 ^ 30) "Gradle cache budget overflows bytes"
  let budget := config.maxCacheGiB * 2 ^ 30
  let entryLimit := min budget (2 ^ 30)
  let args := [s!"--max-total-bytes={budget}",s!"--max-entry-bytes={entryLimit}"]
  return objects t c config ⟨none,sprint args,[httpPort],[],args,false⟩ [] [httpPort] ["htpasswd"]

/-- The renderers of Turborepo, Nx and Go. -/
def cacheRender (render : Library → Config → Except String Renderers.Rendered) (t : Toolkit) (c : Instance) (config : Config) :
    Except String (List Desired) := do
  let out ← render t.library config
  return objects t c config ⟨none,sprint out.args,[httpPort],[],out.args,false⟩ [] [httpPort] ["htpasswd"]

/-- `Render`: the policy is checked, and the images are those of the adapter. -/
def Adapter.render (t : Toolkit) (a : Adapter) (c : Instance) (policy : EnginePolicy) : Except String (List Desired) := do
  let own ← policyOf a.templateRef
  require (policy = own) ("template requires " ++ (if own = .none then "none" else "lru") ++ " eviction policy")
  let config := { configOf t c with image := a.image }
  match a.templateRef.name,a.templateRef.version with
  | .bazelRemote,_ => bazelRender t c config
  | .webdavApache,.v010 => webdavRender t c config
  | .webdavApache,.v020 => webdavStatsRender t c config a.statsImage
  | .gradleHttp,_ => gradleRender t c config
  | .turborepoHttp,_ => cacheRender Renderers.turboRender t c config
  | .nxHttp,_ => cacheRender Renderers.nxRender t c config
  | .goCacheprog,_ => cacheRender Renderers.goRender t c config

/-- `Endpoints` -/
def Adapter.endpoints (t : Toolkit) (a : Adapter) (key : Key) : List Endpoint :=
  let host := t.name key.2 ++ "." ++ t.ns key.1 ++ ".svc"
  match a.templateRef.name with
  | .bazelRemote => [⟨"reapi","grpc://" ++ host ++ ":9092"⟩,⟨"bazel-http","http://" ++ host ++ ":8080"⟩]
  | .webdavApache => [⟨"webdav","http://" ++ host ++ ":8080/"⟩]
  | .gradleHttp => [⟨"gradle-http","http://" ++ host ++ ":8080/cache/"⟩]
  | .turborepoHttp => [⟨"turborepo-http","http://" ++ host ++ ":8080"⟩]
  | .nxHttp => [⟨"nx-http","http://" ++ host ++ ":8080"⟩]
  | .goCacheprog => [⟨"go-cacheprog","http://" ++ host ++ ":8080"⟩]

/-! ### The images of a Pod -/

/-- Adds the containers to a map; none where a container has no name or one twice. -/
def addImages (images : Images) : List Container → Option Images
  | [] => some images
  | c :: rest => if c.name = "" ∨ (images.lookup c.name).getD "" ≠ "" then none else addImages (images.insert c.name c.image) rest

/-- `podImages` -/
def podImages (spec : PodSpec) : Option Images :=
  if spec.initContainers ≠ [] ∨ spec.ephemeralContainers ≠ [] then none else addImages ∅ spec.containers

section
variable {ref : TemplateRef} {images : Images} {a : Adapter}

theorem prefixed_ok {α : Type} {before : String} {x : Except String α} {r : α} (passed : prefixed before x = .ok r) : x = .ok r := by
  cases x with
  | ok b => exact passed
  | error message => cases passed

/-- An image that is accepted is no empty text. -/
theorem prefixed_passed {α : Type} {before : String} {x : Except String α} {r : α} (passed : x = .ok r) : prefixed before x = .ok r := by
  rw [passed]
  rfl

theorem validateImage_ne {image : String} {u : Unit} (valid : validateImage image = .ok u) : image ≠ "" := by
  rintro rfl
  have pinned := Renderers.require_ok valid
  revert pinned
  decide

/-- A map with one known key. -/
theorem one_image {x y : String} (size : images.keys.card = 1) (found : images.lookup x = some y) :
    images = Finmap.singleton x y := by
  obtain ⟨z,only⟩ := Finset.card_eq_one.mp size
  have here : x ∈ images.keys := Finmap.mem_keys.mpr (Finmap.mem_of_lookup_eq_some found)
  rw [only,Finset.mem_singleton] at here
  subst here
  refine Finmap.ext_lookup (fun w => ?_)
  by_cases same : w = x
  · subst same
    rw [found,Finmap.lookup_singleton_eq]
  · have absent : w ∉ images := by
      rw [← Finmap.mem_keys,only,Finset.mem_singleton]
      exact same
    rw [Finmap.lookup_eq_none.mpr absent,Finmap.lookup_eq_none.mpr]
    simpa using same

/-- A map with two known keys. -/
theorem two_images {x x' y y' : String} (size : images.keys.card = 2) (found : images.lookup x = some y)
    (found' : images.lookup x' = some y') (other : x' ≠ x) :
    images = Finmap.insert x' y' (Finmap.singleton x y : Images) := by
  have here : ∀ {w v : String}, images.lookup w = some v → w ∈ images.keys :=
    fun found => Finmap.mem_keys.mpr (Finmap.mem_of_lookup_eq_some found)
  have both : ({x',x} : Finset String) = images.keys := by
    refine Finset.eq_of_subset_of_card_le (fun w member => ?_) ?_
    · rcases Finset.mem_insert.mp member with rfl | member
      · exact here found'
      · rw [Finset.mem_singleton.mp member]
        exact here found
    · rw [size,Finset.card_pair other]
  refine Finmap.ext_lookup (fun w => ?_)
  by_cases same' : w = x'
  · subst same'
    rw [found',Finmap.lookup_insert]
  · rw [Finmap.lookup_insert_of_ne _ same']
    by_cases same : w = x
    · subst same
      rw [found,Finmap.lookup_singleton_eq]
    · have absent : w ∉ images := by
        rw [← Finmap.mem_keys,← both]
        simp [same,same']
      rw [Finmap.lookup_eq_none.mpr absent,Finmap.lookup_eq_none.mpr]
      simpa using same

/-- An adapter that is bound to a set of images has exactly these. -/
theorem bind_images (bound : bind_ ref images = .ok a) : a.templateRef = ref ∧ a.images = images ∧ a.Tidy := by
  obtain ⟨_,_,bound⟩ := Renderers.bind_ok bound
  have present : ∀ {name : String}, (images.lookup name).getD "" ≠ "" → images.lookup name = some ((images.lookup name).getD "") := by
    intro name some_
    cases found : images.lookup name with
    | none => simp [found] at some_
    | some image => rfl
  by_cases statistics : hasStatistics ref = true
  · simp only [statistics,if_true] at bound
    obtain ⟨_,stats,bound⟩ := Renderers.bind_ok bound
    obtain ⟨_,size,bound⟩ := Renderers.bind_ok bound
    obtain ⟨_,cache,bound⟩ := Renderers.bind_ok bound
    cases bound
    have stats := validateImage_ne (prefixed_ok stats)
    have cache := validateImage_ne (prefixed_ok cache)
    refine ⟨rfl,?_,fun none_ => by simp [statistics] at none_⟩
    have both := two_images (of_decide_eq_true (Renderers.require_ok size)) (present cache) (present stats) (by decide)
    simp only [Adapter.images,if_pos stats]
    exact both.symm
  · simp only [statistics,Bool.false_eq_true,if_false] at bound
    obtain ⟨_,size,bound⟩ := Renderers.bind_ok bound
    obtain ⟨_,cache,bound⟩ := Renderers.bind_ok bound
    cases bound
    have cache := validateImage_ne (prefixed_ok cache)
    refine ⟨rfl,?_,fun _ => rfl⟩
    have one := one_image (of_decide_eq_true (Renderers.require_ok size)) (present cache)
    simp only [Adapter.images,ne_eq,not_true_eq_false,if_false]
    exact one.symm

end

/-! ### What is rendered -/

/-- The labels of everything that is rendered. -/
def marks (c : Instance) : Labels := Contract.labels c.spec.projectId (some c.spec.instanceId)

/-- An object that an instance consists of, with its containers running these images. -/
inductive Renders (t : Toolkit) (c : Instance) (images : Images) : Desired → Prop where
  | volume : Renders t c images (.volume c.key { labels := marks c }
      ⟨some c.spec.storage.className,["ReadWriteOnce"],some ((t.library.parseQuantity c.spec.storage.capacity).getD 0)⟩)
  | config (name : String) (spec : ConfigSpec) : Renders t c images (.config (c.key.1,name) { labels := marks c } spec)
  | child {name : ChildName} (spec : ChildSpec) (own : name = .headless ∨ name = .service) :
      Renders t c images (.child (c.key,name) { labels := marks c } spec)
  | workload {replicas : Nat} {template : PodTemplate} (runs : podImages template.spec = some images)
      (marked : template.labels = marks c) :
      Renders t c images (.workload c.key { labels := marks c } ⟨some replicas,template⟩)

/-- The objects of an instance: the workload comes last. -/
structure Whole (t : Toolkit) (c : Instance) (images : Images) (ds : List Desired) : Prop where
  all : ∀ d ∈ ds, Renders t c images d
  volume : ∃ m s, .volume c.key m s ∈ ds
  workload : ∃ before m s, ds = before ++ [.workload c.key m s] ∧ ∀ d ∈ before, ∀ n m s, d ≠ .workload n m s

section
variable {t : Toolkit} {c : Instance} {config : Config} {engine : Engine} {beside : List Container} {ports : List ServicePort}
  {keys : List String} {ds : List Desired} {a : Adapter} {policy : EnginePolicy}

/-- The images of the cache and of the containers beside it. -/
def imagesOf (config : Config) (beside : List Container) : Option Images :=
  addImages (Finmap.insert "cache" config.image ∅) beside

theorem objects_whole {images : Images} (runs : imagesOf config beside = some images) :
    Whole t c images (objects t c config engine beside ports keys) := by
  have template : ∀ {cache : Container} {volumes : List PodVolume}, cache.name = "cache" → cache.image = config.image →
      podImages { containers := cache :: beside, volumes := volumes } = some images := by
    intro cache volumes name image
    rw [← runs]
    simp [podImages,addImages,imagesOf,name,image]
  refine ⟨fun d member => ?_,⟨_,_,List.mem_append_left _ List.mem_cons_self⟩,?_⟩
  · simp only [objects,List.mem_append,List.mem_cons,List.not_mem_nil,or_false] at member
    rcases member with (rfl | member) | rfl | rfl | rfl
    · exact .volume
    · cases file : engine.file with
      | none => simp [file] at member
      | some f =>
        simp only [file,List.mem_singleton] at member
        subst member
        exact .config _ _
    · exact .child _ (.inl rfl)
    · exact .child _ (.inr rfl)
    · exact .workload (template rfl rfl) rfl
  · cases file : engine.file with
    | none =>
      refine ⟨[_,_,_],_,_,by simp only [objects,file]; rfl,fun d member n m s => ?_⟩
      simp only [List.mem_cons,List.not_mem_nil,or_false] at member
      rcases member with rfl | rfl | rfl <;> simp
    | some f =>
      refine ⟨[_,_,_,_],_,_,by simp only [objects,file]; rfl,fun d member n m s => ?_⟩
      simp only [List.mem_cons,List.not_mem_nil,or_false] at member
      rcases member with rfl | rfl | rfl | rfl <;> simp

theorem cache_images (config : Config) : imagesOf config [] = some (Finmap.singleton "cache" config.image : Images) := by
  have one : Finmap.insert "cache" config.image (∅ : Images) = Finmap.singleton "cache" config.image := by
    refine Finmap.ext_lookup (fun w => ?_)
    by_cases same : w = "cache"
    · subst same
      rw [Finmap.lookup_insert,Finmap.lookup_singleton_eq]
    · rw [Finmap.lookup_insert_of_ne _ same,Finmap.lookup_empty,Finmap.lookup_eq_none.mpr]
      simpa using same
  rw [imagesOf,one]
  rfl

/-- A renderer without a container beside the cache. -/
theorem cacheRender_whole {render : Library → Config → Except String Renderers.Rendered}
    (passed : cacheRender render t c config = .ok ds) : Whole t c (Finmap.singleton "cache" config.image) ds := by
  obtain ⟨out,_,done⟩ := Renderers.bind_ok passed
  cases done
  exact objects_whole (cache_images config)

theorem webdavStats_whole {statsImage : String} (passed : webdavStatsRender t c config statsImage = .ok ds) :
    statsImage ≠ "" ∧ Whole t c (Finmap.insert "statistics" statsImage (Finmap.singleton "cache" config.image)) ds := by
  obtain ⟨_,valid,passed⟩ := Renderers.bind_ok passed
  obtain ⟨_,_,passed⟩ := Renderers.bind_ok passed
  obtain ⟨_,_,passed⟩ := Renderers.bind_ok passed
  obtain ⟨_,_,passed⟩ := Renderers.bind_ok passed
  obtain ⟨_,_,passed⟩ := Renderers.bind_ok passed
  cases passed
  refine ⟨validateImage_ne (prefixed_ok valid),objects_whole ?_⟩
  have cache := cache_images config
  simp only [imagesOf,addImages,Option.some.injEq] at cache ⊢
  rw [cache,if_neg]
  have absent : (Finmap.singleton "cache" config.image : Images).lookup "statistics" = none := by
    rw [Finmap.lookup_eq_none,Finmap.mem_singleton]
    decide
  rw [absent]
  decide

/-- What an adapter renders runs the images of the adapter. -/
theorem render_whole (tidy : a.Tidy) (passed : a.render t c policy = .ok ds) : Whole t c a.images ds := by
  obtain ⟨_,_,passed⟩ := Renderers.bind_ok passed
  obtain ⟨_,_,passed⟩ := Renderers.bind_ok passed
  obtain ⟨⟨name,version⟩,image,statsImage⟩ := a
  have plain : hasStatistics ⟨name,version⟩ = false →
      Finmap.singleton "cache" image = (Adapter.mk ⟨name,version⟩ image statsImage).images := by
    intro none_
    have empty : statsImage = "" := tidy none_
    simp [Adapter.images,empty]
  cases name with
  | bazelRemote =>
    rw [← plain (by cases version <;> rfl)]
    obtain ⟨_,_,done⟩ := Renderers.bind_ok passed
    cases done
    exact objects_whole (cache_images _)
  | webdavApache =>
    cases version with
    | v010 =>
      rw [← plain rfl]
      obtain ⟨_,_,done⟩ := Renderers.bind_ok passed
      cases done
      exact objects_whole (cache_images _)
    | v020 =>
      obtain ⟨some_,whole⟩ := webdavStats_whole passed
      simpa [Adapter.images,some_] using whole
  | gradleHttp =>
    rw [← plain (by cases version <;> rfl)]
    obtain ⟨_,_,done⟩ := Renderers.bind_ok passed
    obtain ⟨_,_,done⟩ := Renderers.bind_ok done
    cases done
    exact objects_whole (cache_images _)
  | turborepoHttp | nxHttp | goCacheprog =>
    rw [← plain (by cases version <;> rfl)]
    exact cacheRender_whole passed

end
end Expbuild.Adapters
