import Expbuild.Adapters

/-!
`gateway/routes.go` and `monitoring/render.go`: the routes and network policies that
make an instance reachable through a shared Gateway, the monitor of its metrics, and
when a Gateway and its routes are ready.
-/
namespace Expbuild.Exposures
open Expbuild.Contract Expbuild.Kinds Expbuild.Adapters
open Expbuild.Renderers (Library require)

/-! ### The Gateway -/

structure GatewayConfig where
  name : String
  ns : String
  sectionName : String
  baseDomain : String
  controllerName : String
  dataPlaneNamespace : String
  deriving DecidableEq,Repr

namespace GatewayConfig

def validate (k : Library) (g : GatewayConfig) : Except String Unit := do
  require (k.isDNS1123Label g.name) "gateway name must be a DNS label"
  require (k.isDNS1123Label g.ns) "gateway namespace must be a DNS label"
  require (k.isDNS1123Label g.sectionName) "gateway section must be a DNS label"
  require (k.isDNS1123Label g.dataPlaneNamespace) "gateway data plane namespace must be a DNS label"
  require (k.isDNS1123Subdomain g.baseDomain && g.baseDomain.toList.contains '.' && g.baseDomain.utf8ByteSize ≤ 180)
    "gateway base domain must be a DNS domain of at most 180 characters"
  let parts := g.controllerName.toList.span (fun c => c ≠ '/')
  require (k.isDNS1123Subdomain (String.ofList parts.1) && 2 ≤ parts.2.length) "gateway controller name must be domain/name"

def parent (g : GatewayConfig) : ParentRef :=
  ⟨some "gateway.networking.k8s.io",some "Gateway",some g.ns,g.name,some g.sectionName⟩

/-- A host is named after the identity of an instance, which no other instance has. -/
def host (g : GatewayConfig) (c : Instance) (protocol : String) : String := protocol ++ "-" ++ toString c.uid ++ "." ++ g.baseDomain

def render (g : GatewayConfig) (k : Library) (c : Instance) : Except String (List Desired) := do
  g.validate k
  let capabilities ← describe ⟨c.spec.templateName,c.spec.templateVersion⟩
  require (k.isDNS1123Label ("grpc-" ++ toString c.uid)) "instance UID cannot form a DNS hostname"
  let own : Labels := { marks c with instanceUid := some c.uid }
  let route (name : ChildName) (protocol : String) (port : Nat) : Desired :=
    .child (c.key,name) { labels := own } (.route g.parent (g.host c protocol) c.key.2 port)
  let grpc := if 0 < capabilities.grpcPort then [route .grpcRoute "grpc" capabilities.grpcPort] else []
  let ports := capabilities.httpPort :: (if 0 < capabilities.grpcPort then [capabilities.grpcPort] else [])
  return [route .httpRoute "http" capabilities.httpPort] ++ grpc ++
    [.child (c.key,.gatewayPolicy) { labels := own } (.policy own g.dataPlaneNamespace "cache.expbuild.io/gateway" ports)]

/-- `Endpoints` of an instance behind the Gateway. -/
def endpoints (g : GatewayConfig) (c : Instance) : List Endpoint :=
  match describe ⟨c.spec.templateName,c.spec.templateVersion⟩ with
  | .error _ => []
  | .ok capabilities =>
    let basePath := if capabilities.httpBasePath = "" then "/" else capabilities.httpBasePath
    ⟨capabilities.httpProtocol,"https://" ++ g.host c "http" ++ basePath⟩ ::
      (if 0 < capabilities.grpcPort then [⟨"reapi","grpcs://" ++ g.host c "grpc"⟩] else [])

/-- `condition`: the first of the kind decides. -/
def condition (conditions : List Condition) (kind : String) (generation : Nat) : Bool :=
  match conditions.find? (fun value => value.type = kind) with
  | some value => decide (value.status = "True" ∧ value.observedGeneration = some generation)
  | none => false

def accepted (g : GatewayConfig) (parents : List ParentStatus) (generation : Nat) : Bool :=
  parents.any (fun p =>
    decide (p.parent.name = g.name ∧ p.parent.ns = some g.ns ∧ p.parent.sectionName = some g.sectionName) &&
      p.parent.kind.all (fun kind => kind = "Gateway") && p.parent.group.all (fun group => group = "gateway.networking.k8s.io") &&
      decide (p.controllerName = g.controllerName) &&
      condition p.conditions "Accepted" generation && condition p.conditions "ResolvedRefs" generation)

/-- Whether a listener is the one for HTTPS that the routes are attached to. -/
def terminates (g : GatewayConfig) (listener : Listener) : Bool :=
  decide (listener.name = g.sectionName ∧ listener.protocol = "HTTPS" ∧ listener.port = 443) &&
    match listener.tls with
    | none => false
    | some (mode,certificates) => certificates && mode.all (fun mode => mode = "Terminate")

/-- `Ready` -/
def ready (g : GatewayConfig) (gateway : Gateway) : Bool :=
  !gateway.deleting && condition gateway.metadata.conditions "Programmed" gateway.generation &&
    condition gateway.metadata.conditions "Accepted" gateway.generation &&
    gateway.spec.any (fun listener => g.terminates listener && gateway.metadata.listeners.any (fun status =>
      decide (status.1 = listener.name) && condition status.2 "Accepted" gateway.generation &&
        condition status.2 "ResolvedRefs" gateway.generation && condition status.2 "Programmed" gateway.generation))

end GatewayConfig

/-! ### Monitoring -/

structure MonitoringConfig where
  ns : String
  clusterId : String := ""
  deriving DecidableEq,Repr

namespace MonitoringConfig

/-- `^[a-zA-Z0-9][a-zA-Z0-9-]{0,62}$` -/
def clusterName (id : String) : Bool :=
  match id.toList with
  | [] => false
  | first :: rest => first.isAlphanum && decide (rest.length ≤ 62) && rest.all (fun c => c.isAlphanum || c = '-')

def validate (k : Library) (m : MonitoringConfig) : Except String Unit := do
  require (m.clusterId = "" || clusterName m.clusterId) "invalid monitoring cluster ID"
  require (k.isDNS1123Label m.ns) "monitoring namespace must be a DNS label"

def render (m : MonitoringConfig) (k : Library) (c : Instance) : Except String (List Desired) := do
  m.validate k
  let capabilities ← describe ⟨c.spec.templateName,c.spec.templateVersion⟩
  require (capabilities.metricsPort ≠ 0) "monitoring requires a bound instance with a supported metrics adapter"
  let own : Labels := { marks c with instanceUid := some c.uid }
  let monitor : ServiceMonitor :=
    { selector := own, ns := c.key.1, port := capabilities.metricsPortName, path := capabilities.metricsPath
      credentials := c.spec.access.credentialsSecretRef, service := c.key.2, projectId := c.spec.projectId
      instanceUid := c.uid, clusterId := if m.clusterId = "" then "primary" else m.clusterId }
  return [.child (c.key,.serviceMonitor) { labels := own } (.monitor monitor),
    .child (c.key,.metricsPolicy) { labels := own } (.policy own m.ns "cache.expbuild.io/monitoring" [capabilities.metricsPort])]

end MonitoringConfig

/-! ### What is rendered -/

section
variable {k : Library} {c : Instance} {ds : List Desired}

/-- The routes and policies of the Gateway. -/
def ofGateway : ChildName → Bool
  | .httpRoute | .grpcRoute | .gatewayPolicy => true
  | _ => false
/-- The monitor and policy of the metrics. -/
def ofMonitoring : ChildName → Bool
  | .serviceMonitor | .metricsPolicy => true
  | _ => false

/-- Children of an instance, all under its own identity. -/
def Belong (c : Instance) (among : ChildName → Bool) (ds : List Desired) : Prop :=
  ∀ d ∈ ds, ∃ name spec, d = .child (c.key,name) { labels := { marks c with instanceUid := some c.uid } } spec ∧ among name = true

theorem gateway_belong {g : GatewayConfig} (passed : g.render k c = .ok ds) : Belong c ofGateway ds := by
  obtain ⟨_,_,passed⟩ := Renderers.bind_ok passed
  obtain ⟨capabilities,_,passed⟩ := Renderers.bind_ok passed
  obtain ⟨_,_,passed⟩ := Renderers.bind_ok passed
  cases passed
  intro d member
  by_cases grpc : 0 < capabilities.grpcPort
  · simp only [grpc,if_true,List.cons_append,List.nil_append,List.mem_cons,List.not_mem_nil,or_false] at member
    rcases member with rfl | rfl | rfl
    · exact ⟨_,_,rfl,rfl⟩
    · exact ⟨_,_,rfl,rfl⟩
    · exact ⟨_,_,rfl,rfl⟩
  · simp only [grpc,if_false,List.cons_append,List.nil_append,List.mem_cons,List.not_mem_nil,or_false] at member
    rcases member with rfl | rfl
    · exact ⟨_,_,rfl,rfl⟩
    · exact ⟨_,_,rfl,rfl⟩

theorem monitoring_belong {m : MonitoringConfig} (passed : m.render k c = .ok ds) : Belong c ofMonitoring ds := by
  obtain ⟨_,_,passed⟩ := Renderers.bind_ok passed
  obtain ⟨capabilities,_,passed⟩ := Renderers.bind_ok passed
  obtain ⟨_,_,passed⟩ := Renderers.bind_ok passed
  cases passed
  intro d member
  simp only [List.mem_cons,List.not_mem_nil,or_false] at member
  rcases member with rfl | rfl
  · exact ⟨_,_,rfl,rfl⟩
  · exact ⟨_,_,rfl,rfl⟩

end
end Expbuild.Exposures
