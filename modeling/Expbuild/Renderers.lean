import Mathlib

/-!
`operator/internal/instance/config.go`, and what the `Render` of Turborepo, Nx
and Go makes of a configuration: the limits of the engine and the size of its
volume.
-/
namespace Expbuild.Renderers

/-- What the checks use of Kubernetes. -/
structure Library where
  isDNS1123Label : String → Bool
  isDNS1123Subdomain : String → Bool
  isValidLabelValue : String → Bool
  /-- The value of `resource.ParseQuantity`. -/
  parseQuantity : String → Option ℚ
  /-- `AsInt64` of the quantity of the text, where the conversion is exact. -/
  asInt64 : String → Option Int

/-- `AsInt64` returns the value of the quantity, and it is one of an `int64`. -/
def Library.Exact (k : Library) : Prop :=
  ∀ {text n}, k.asInt64 text = some n → k.parseQuantity text = some (n : ℚ) ∧ -2 ^ 63 ≤ n ∧ n < 2 ^ 63

/-- The result of an operation on `int64`. -/
def int64 (n : Int) : Int := (n + 2 ^ 63) % 2 ^ 64 - 2 ^ 63

structure Resources where
  requests : List (String × ℚ)
  limits : List (String × ℚ)
  claims : List String

structure Config where
  readOnly : Bool
  name : String
  namespace_ : String
  instanceID : String
  projectID : String
  image : String
  storageClass : String
  capacity : String
  maxCacheGiB : Int
  credentialsSecret : String
  desiredState : String
  resources : Resources

/-- An image name of its own characters, the marker and 64 hexadecimal digits. -/
def pinnedImage (image : String) : Bool :=
  let alphanumeric (c : Char) : Bool := c.isLower || c.isUpper || c.isDigit
  let marker := "@sha256:".toList
  match image.toList.span (fun c => c ≠ '@') with
  | (first :: name,rest) =>
    alphanumeric first && name.all (fun c => alphanumeric c || c = '.' || c = '_' || c = ':' || c = '/' || c = '-') &&
      rest.take marker.length = marker && (rest.drop marker.length).length = 64 &&
      (rest.drop marker.length).all (fun c => c.isDigit || decide ('a' ≤ c ∧ c ≤ 'f'))
  | ([],_) => false

/-- Goes on if the condition holds. -/
def require (condition : Bool) (message : String) : Except String Unit :=
  if condition then .ok () else .error message

def validateImage (image : String) : Except String Unit :=
  require (image.utf8ByteSize ≤ 512 && pinnedImage image) "image must be pinned to a lowercase sha256 digest"

/-- The request and the limit of a resource. -/
def validateResource (r : Resources) (name : String) : Except String Unit := do
  let request := (r.requests.lookup name).getD 0
  require (0 < request) s!"positive {name} request required"
  let limit := (r.limits.lookup name).getD 0
  require (0 < limit && request ≤ limit) s!"{name} limit must be positive and at least its request"

namespace Config

def validateCommon (k : Library) (c : Config) : Except String Unit := do
  -- leave space for resource suffixes and ordinal names
  require (c.name.utf8ByteSize ≤ 40 && k.isDNS1123Label c.name) "name must be a DNS label of at most 40 characters"
  require (k.isDNS1123Label c.namespace_) "invalid namespace"
  require (c.instanceID ≠ "" && k.isValidLabelValue c.instanceID) "invalid instanceId"
  require (c.projectID ≠ "" && k.isValidLabelValue c.projectID) "invalid projectId"
  validateImage c.image
  require (k.isDNS1123Subdomain c.credentialsSecret) "credentialsSecret is required and must be a valid Secret name"
  require (c.storageClass ≠ "" && k.isDNS1123Subdomain c.storageClass) "storageClass must be explicitly selected"
  require (c.desiredState = "Running" || c.desiredState = "Suspended") "desiredState must be Running or Suspended"
  require ((k.parseQuantity c.capacity).any (fun capacity => 0 < capacity)) "capacity must be a positive Kubernetes quantity"
  validateResource c.resources "cpu"
  validateResource c.resources "memory"
  require (c.resources.requests.length = 2 && c.resources.limits.length = 2 && c.resources.claims.length = 0)
    "only cpu and memory resources are supported"

/-- The shared checks and the budget. -/
def validate (k : Library) (c : Config) : Except String Unit := do
  c.validateCommon k
  require (0 < c.maxCacheGiB) "maxCacheGiB must be positive"
  let capacity := (k.parseQuantity c.capacity).getD 0
  require ((k.parseQuantity s!"{c.maxCacheGiB}Gi").any (fun budget => budget < capacity))
    "cache budget must be smaller than volume capacity"

end Config

/-- What a renderer asks for: the limits on the command line and the storage of
    the persistent volume claim. -/
structure Rendered where
  args : List String
  maxTotal : Int
  maxEntry : Int
  requested : ℚ

def headerSize : Int := 4096

/-- What the three renderers share; they differ in the name of the engine and in
    the arguments beside the limits. -/
def renderCache (engine : String) (before after : Config → List String) (k : Library) (c : Config) : Except String Rendered := do
  c.validate k
  require (c.maxCacheGiB ≤ (2 ^ 63 - 1) / 2 ^ 30) (engine ++ " cache budget overflows bytes")
  let budget := int64 (c.maxCacheGiB * 2 ^ 30)
  let entryLimit := min (int64 (budget - headerSize)) (256 * 2 ^ 20)
  match k.asInt64 c.capacity with
  | none => .error (engine ++ " PVC capacity must fit whole bytes")
  | some volumeBytes =>
    -- one bounded upload envelope beside the committed entries
    let stagingLimit := int64 (int64 (volumeBytes - budget) - headerSize)
    require (0 < stagingLimit) (engine ++ " PVC requires upload staging headroom")
    let entryLimit := min entryLimit stagingLimit
    .ok {
      args := before c ++ [s!"--max-total-bytes={budget}",s!"--max-entry-bytes={entryLimit}"] ++ after c
      maxTotal := budget
      maxEntry := entryLimit
      requested := (k.parseQuantity c.capacity).getD 0 }

/-- `turbocache.Render` -/
def turboRender : Library → Config → Except String Rendered :=
  renderCache "Turborepo" (fun c => ["--team=team_" ++ c.instanceID]) (fun _ => [])

/-- `nxcache.Render` -/
def nxRender : Library → Config → Except String Rendered :=
  renderCache "Nx" (fun c => ["--namespace=" ++ c.instanceID]) (fun _ => [])

/-- `gocache.Render` -/
def goRender : Library → Config → Except String Rendered :=
  renderCache "Go cacheprog" (fun c => ["--namespace=" ++ c.instanceID]) (fun c => [s!"--read-only={c.readOnly}"])

theorem int64_of_bounds {n : Int} (low : -2 ^ 63 ≤ n) (high : n < 2 ^ 63) : int64 n = n := by
  unfold int64
  omega

theorem require_ok {condition : Bool} {message : String} {u : Unit} (passed : require condition message = .ok u) :
    condition = true := by
  unfold require at passed
  split at passed
  · assumption
  · cases passed

theorem bind_ok {α β : Type} {x : Except String α} {f : α → Except String β} {r : β} (passed : (x >>= f) = .ok r) :
    ∃ a, x = .ok a ∧ f a = .ok r := by
  cases x with
  | error e => cases passed
  | ok a => exact ⟨a,rfl,passed⟩

theorem bind_passed {α β : Type} {x : Except String α} {f : α → Except String β} {r : α} (passed : x = .ok r) : (x >>= f) = f r := by
  rw [passed]
  rfl

theorem require_true {condition : Bool} {message : String} (holds : condition = true) : require condition message = .ok () := by
  rw [require,if_pos holds]

variable {k : Library} {c : Config} {out : Rendered}

theorem validate_positive {u : Unit} (valid : c.validate k = .ok u) : 0 < c.maxCacheGiB := by
  obtain ⟨_,_,valid⟩ := bind_ok valid
  obtain ⟨_,positive,_⟩ := bind_ok valid
  exact of_decide_eq_true (require_ok positive)

theorem validate_capacity {u : Unit} (valid : c.validate k = .ok u) :
    ∃ capacity, k.parseQuantity c.capacity = some capacity ∧ 0 < capacity := by
  obtain ⟨_,common,_⟩ := bind_ok valid
  -- the check of the capacity is the ninth
  obtain ⟨_,_,common⟩ := bind_ok common
  obtain ⟨_,_,common⟩ := bind_ok common
  obtain ⟨_,_,common⟩ := bind_ok common
  obtain ⟨_,_,common⟩ := bind_ok common
  obtain ⟨_,_,common⟩ := bind_ok common
  obtain ⟨_,_,common⟩ := bind_ok common
  obtain ⟨_,_,common⟩ := bind_ok common
  obtain ⟨_,_,common⟩ := bind_ok common
  obtain ⟨_,capacity,_⟩ := bind_ok common
  obtain ⟨q,parsed,positive⟩ := (Option.any_eq_true _ _).mp (require_ok capacity)
  exact ⟨q,parsed,of_decide_eq_true positive⟩

/-- The limits fit the engine and leave room for one upload on the volume. -/
theorem renderCache_limits {engine : String} {before after : Config → List String} (values : k.Exact)
    (rendered : renderCache engine before after k c = .ok out) :
    0 < out.maxEntry ∧ out.maxEntry + headerSize ≤ out.maxTotal ∧ k.parseQuantity c.capacity = some out.requested ∧
      ((out.maxTotal + out.maxEntry + headerSize : Int) : ℚ) ≤ out.requested := by
  obtain ⟨_,valid,rendered⟩ := bind_ok rendered
  obtain ⟨_,bounded,rendered⟩ := bind_ok rendered
  have positive := validate_positive valid
  have bounded : c.maxCacheGiB ≤ (2 ^ 63 - 1) / 2 ^ 30 := of_decide_eq_true (require_ok bounded)
  obtain ⟨capacity,parsed,some_⟩ := validate_capacity valid
  split at rendered
  · cases rendered
  · rename_i volumeBytes whole
    obtain ⟨_,room,rendered⟩ := bind_ok rendered
    have room := of_decide_eq_true (require_ok room)
    cases rendered
    obtain ⟨value,low,high⟩ := values whole
    rw [value] at parsed
    cases parsed
    have volume : 0 < volumeBytes := by exact_mod_cast some_
    have budget : int64 (c.maxCacheGiB * 2 ^ 30) = c.maxCacheGiB * 2 ^ 30 := int64_of_bounds (by omega) (by omega)
    simp only [headerSize,budget] at room ⊢
    rw [int64_of_bounds (n := volumeBytes - c.maxCacheGiB * 2 ^ 30) (by omega) (by omega),
      int64_of_bounds (n := volumeBytes - c.maxCacheGiB * 2 ^ 30 - 4096) (by omega) (by omega)] at room ⊢
    rw [int64_of_bounds (n := c.maxCacheGiB * 2 ^ 30 - 4096) (by omega) (by omega)]
    refine ⟨by omega,by omega,by rw [value]; rfl,?_⟩
    rw [value]
    simp only [Option.getD_some]
    exact_mod_cast (by omega)

end Expbuild.Renderers
