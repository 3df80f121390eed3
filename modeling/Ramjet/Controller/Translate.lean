/- digest: Planned routes registered with the router's builder, one object at a time. -/

import Ramjet.Controller.Plan

set_option autoImplicit false
set_option relaxedAutoImplicit false

namespace Ramjet.Controller.Translate

open Ramjet.Base.Octets
open Ramjet.Base.Text
open Ramjet.Base.AssocMap
open Ramjet.Router.Balancing
open Ramjet.Router.Rule
open Ramjet.Router.Table
open Ramjet.Router.Builder
open Ramjet.Controller.Objects
open Ramjet.Controller.Annotations
open Ramjet.Controller.Config
open Ramjet.Controller.Endpoints
open Ramjet.Controller.Secrets
open Ramjet.Controller.Warnings
open Ramjet.Controller.Plan

section Backends

/-- The planned routes in registration order. -/
def sortedPlans (routes : Routes) : List RoutePlan :=
  (routes.map (·.2)).insertionSort fun a b => a.key.sortKey ≤ b.key.sortKey

abbrev Backends := Map ServiceRef BackendProtocol

/-- One route's wish for a backend and how to dial it. -/
structure BackendClaim where
  target : ServiceRef
  protocol : BackendProtocol
  owner : ObjectKey
  deriving DecidableEq, Repr

def claimsOf (plan : RoutePlan) : List BackendClaim :=
  ⟨plan.backend, plan.protocol, plan.owner⟩ ::
    ((plan.canary.toList.map fun c => ⟨c.backend, c.protocol, c.owner⟩) ++
      plan.mirror.toList.map fun m => ⟨m.backend, m.protocol, plan.owner⟩)

/-- The first claim on a Service port decides how it is dialled. -/
def claimBackend (state : Backends × List Warning) (c : BackendClaim) : Backends × List Warning :=
  match get state.1 c.target with
  | none => (insert state.1 c.target c.protocol, state.2)
  | some held =>
      if held = c.protocol then state
      else (state.1, state.2 ++ [⟨c.owner, .protocolTaken c.target held c.protocol⟩])

/-- Every distinct Service port the table will reference, and how to dial it. -/
def collectBackends (routes : Routes) (defaultBackend : Option ServiceRef) :
    Backends × List Warning :=
  let claimed := ((sortedPlans routes).flatMap claimsOf).foldl claimBackend ([], [])
  match defaultBackend with
  | none => claimed
  | some target =>
      if contains claimed.1 target then claimed else (insert claimed.1 target .http1, claimed.2)

/-- The backends in the order of their references. -/
def sortedBackends (backends : Backends) : List (ServiceRef × BackendProtocol) :=
  backends.insertionSort fun a b => a.1.sortKey ≤ b.1.sortKey

end Backends

section Registration

/-- What registration threads through: the builder, the digest and the warnings. -/
structure Compiling where
  builder : RouteTableBuilder
  digest : Digest
  warnings : List Warning

def Compiling.warn (c : Compiling) (ws : List Warning) : Compiling :=
  { c with warnings := c.warnings ++ ws }

def protocolTag : BackendProtocol → Nat
  | .http1 => 0
  | .h2c => 1

def lbPolicyTag : LbPolicy → Nat
  | .roundRobin => 0
  | .random => 1
  | .leastConn => 2

/-- The endpoints of a backend; one that cannot be resolved is registered empty. -/
def resolveEndpoints (index : EndpointIndex) (target : ServiceRef) :
    List Endpoint × List Warning :=
  let subject : ObjectKey := ⟨target.namespace_, target.name⟩
  match index.resolve target with
  | .ok resolution =>
      (resolution.endpoints,
        if 0 < resolution.skipped then [⟨subject, .addressesSkipped resolution.skipped⟩] else [])
  | .error issue => ([], [⟨subject, .unresolved target issue⟩])

def digestBackend (d : Digest) (policy : LbPolicy) (target : ServiceRef)
    (protocol : BackendProtocol) (endpoints : List Endpoint) : Digest :=
  let d := ((d.str target.backendName).u8 (lbPolicyTag policy)).u8 (protocolTag protocol)
  endpoints.foldl (fun d e => (d.str e.addr.display).u64 e.weight) (d.u64 endpoints.length)

def registerBackend (index : EndpointIndex) (policy : LbPolicy) (c : Compiling)
    (entry : ServiceRef × BackendProtocol) : Except BuildError Compiling := do
  let (target, protocol) := entry
  let (endpoints, ws) := resolveEndpoints index target
  let builder ← c.builder.backendWith target.backendName endpoints ⟨policy, protocol⟩
  return ⟨builder, digestBackend c.digest policy target protocol endpoints, c.warnings ++ ws⟩

def registerEach (index : EndpointIndex) (policy : LbPolicy) :
    List (ServiceRef × BackendProtocol) → Compiling → Except BuildError Compiling
  | [], c => .ok c
  | entry :: rest, c => do
      let c ← registerBackend index policy c entry
      registerEach index policy rest c

/-- Resolves and registers every backend. -/
def registerBackends (snapshot : ClusterSnapshot) (opts : ControllerOpts) (backends : Backends)
    (c : Compiling) : Except BuildError Compiling :=
  registerEach (EndpointIndex.new snapshot.services snapshot.endpointSlices) opts.lbPolicy
    (sortedBackends backends) c

def digestRoute (d : Digest) (plan : RoutePlan) : Digest :=
  let d := ((d.optStr plan.key.host).str plan.key.path).u8 plan.key.pathType.rank
  let d := d.str plan.backend.backendName
  let d :=
    match plan.canary with
    | some canary =>
        let d := ((d.u8 1).str canary.backend.backendName).u64 canary.rules.weight
        let d := (d.u64 canary.rules.weightTotal).optStr canary.rules.header
        ((d.optStr canary.rules.headerValue).optStr canary.rules.headerPattern).optStr
          canary.rules.cookie
    | none => d.u8 0
  match plan.mirror with
  | some mirror =>
      (((d.u8 1).str mirror.backend.backendName).u64 mirror.percent).optStr mirror.host
  | none => d.u8 0

def canaryRulesOf (canary : CanaryPlan) : CanaryRules where
  backend := canary.backend.backendName
  header := canary.rules.header
  headerValue := canary.rules.headerValue
  headerPattern := canary.rules.headerPattern
  cookie := canary.rules.cookie
  weight := canary.rules.weight
  weightTotal := canary.rules.weightTotal

def mirrorRulesOf (mirror : MirrorPlan) : MirrorRules :=
  ⟨mirror.backend.backendName, mirror.percent, mirror.host⟩

def optionsOf (plan : RoutePlan) : RouteOptions :=
  ⟨plan.canary.map canaryRulesOf, plan.mirror.map mirrorRulesOf⟩

/-- What is said about the optional parts dropped with a refused route. -/
def droppedWarnings (plan : RoutePlan) (err : BuildError) : List Warning :=
  (plan.canary.toList.map fun canary => ⟨canary.owner, .canaryRefused err plan.key⟩) ++
    plan.mirror.toList.map fun _ => ⟨plan.owner, .mirrorRefused err plan.key⟩

variable (rx : RegexEngine)

def registerPlan (plan : RoutePlan) (options : RouteOptions) (b : RouteTableBuilder) :
    Except BuildError RouteTableBuilder :=
  b.routeWith rx plan.key.host plan.key.path plan.key.pathType plan.backend.backendName options

/-- Registers one planned route: with its optional parts, else without them, else not at all. -/
def registerRoute (c : Compiling) (plan : RoutePlan) : Compiling :=
  let digest := digestRoute c.digest plan
  match registerPlan rx plan (optionsOf plan) c.builder with
  | .ok builder => { c with builder := builder, digest := digest }
  | .error err =>
      let dropped := droppedWarnings plan err
      match registerPlan rx plan {} c.builder with
      | .ok builder => ⟨builder, digest, c.warnings ++ dropped⟩
      | .error err =>
          ⟨c.builder, digest, c.warnings ++ dropped ++ [⟨plan.owner, .routeRefused plan.key err⟩]⟩

def registerRoutes (routes : Routes) (c : Compiling) : Compiling :=
  (sortedPlans routes).foldl (registerRoute rx) c

end Registration

section Certificates

/-- The certificates wired so far: by host, and by id. -/
structure CertState where
  byHost : Map Bytes (Nat × ObjectKey) := []
  materials : Map Nat CertMaterial := []
  warnings : List Warning := []

/-- A host goes to the oldest Ingress that supplies a certificate for it. -/
def claimCert (owner : ObjectKey) (id : Nat) (state : CertState) (host : Bytes) : CertState :=
  match get state.byHost host with
  | some (_, holder) =>
      { state with warnings := state.warnings ++ [⟨owner, .certificateTaken host holder⟩] }
  | none => { state with byHost := insert state.byHost host (id, owner) }

/-- Wires one `spec.tls` entry. -/
def readTls (secrets : SecretIndex) (owner : ObjectKey) (state : CertState) (entry : IngressTLS) :
    CertState :=
  let hosts := (entry.hosts.getD []).filterMap fun h => normalizeHost (some h)
  if hosts.isEmpty then
    { state with warnings := state.warnings ++ [⟨owner, .noTlsHosts⟩] }
  else
    match entry.secretName with
    | none => { state with warnings := state.warnings ++ [⟨owner, .noSecretName⟩] }
    | some name =>
        match secrets.material owner.namespace_ name with
        | .error issue =>
            { state with warnings := state.warnings ++
                [⟨owner, .secretUnusable owner.namespace_ name issue⟩] }
        | .ok material =>
            let state := hosts.foldl (claimCert owner material.handleId) state
            { state with materials := insert state.materials material.handleId material }

def readTlsOf (secrets : SecretIndex) (state : CertState) (ingress : Ingress) : CertState :=
  ((ingress.spec.bind (·.tls)).getD []).foldl
    (readTls secrets (.of ingress.metadata)) state

/-- Registers the certificate of one host. -/
def registerCert (c : Compiling) (entry : Bytes × Nat × ObjectKey) : Compiling :=
  let (host, id, owner) := entry
  let digest := (c.digest.str host).u64 id
  match c.builder.certificate host id with
  | .ok builder => { c with builder := builder, digest := digest }
  | .error err =>
      { c with digest := digest, warnings := c.warnings ++ [⟨owner, .tlsHostRefused host err⟩] }

/-- The certificate that answers a name nothing else answers. -/
def registerDefaultCert (secrets : SecretIndex) (reference : Bytes)
    (state : Compiling × Map Nat CertMaterial) : Compiling × Map Nat CertMaterial :=
  let (c, materials) := state
  match splitOnce (47 : UInt8) reference with
  | none => (c.warn [⟨⟨[], reference⟩, .defaultSecretShape⟩], materials)
  | some (ns, name) =>
      match secrets.material ns name with
      | .error issue => (c.warn [⟨⟨ns, name⟩, .defaultSecretUnusable issue⟩], materials)
      | .ok material =>
          ({ c with
              builder := c.builder.defaultCertificate material.handleId
              digest := c.digest.u64 material.handleId },
            insert materials material.handleId material)

/-- Wires `spec.tls` entries into the SNI map and collects their material. -/
def registerCertificates (snapshot : ClusterSnapshot) (opts : ControllerOpts)
    (managed : List Ingress) (c : Compiling) : Compiling × List CertMaterial :=
  let secrets := SecretIndex.new snapshot.secrets
  let state := managed.foldl (readTlsOf secrets) {}
  let c := c.warn state.warnings
  let hosts := state.byHost.insertionSort fun a b => textKey a.1 ≤ textKey b.1
  let c := hosts.foldl registerCert c
  let (c, materials) :=
    match opts.defaultTlsSecret with
    | none => (c, state.materials)
    | some reference => registerDefaultCert secrets reference (c, state.materials)
  (c, (materials.insertionSort fun a b => a.1 ≤ b.1).map (·.2))

end Certificates

section Promotions

variable {F : Type} (fl : Floats F)

/-- Where a covered route stands in the order the digest sees. -/
def promotionRouteKey (r : PromotionRoute) : List Nat ×ₗ List Nat ×ₗ Nat :=
  toLex (textKey r.host, toLex (textKey r.path, r.pathType.rank))

/-- The routes a canary landed on, in the spelling the compiled table uses. -/
def coveredRoutes (routes : Routes) (owner : ObjectKey) : List PromotionRoute :=
  let covered := (routes.map (·.2)).filter fun plan =>
    plan.canary.any fun attached => attached.owner == owner
  (covered.map fun plan => (⟨plan.key.host.getD (ascii "*"), plan.key.path, plan.key.pathType⟩ :
    PromotionRoute)).insertionSort
      fun a b => promotionRouteKey a ≤ promotionRouteKey b

/-- A list of numbers between brackets. -/
def debugList (values : List Nat) : Bytes :=
  ascii "[" ++ joinBytes (ascii ", ") (values.map decimal) ++ ascii "]"

def digestPromotion (d : Digest) (owner : ObjectKey) (weight : Nat)
    (policy : PromotionAnnotations F) (covered : List PromotionRoute) : Digest :=
  let d := ((d.str owner.display).u64 weight).u64 policy.interval
  let d := (d.u64 policy.minRequests).str (debugList policy.steps)
  let d := (d.str (fl.fixed6 policy.max5xxPercent)).str (fl.fixed6 policy.maxLatencyFactor)
  covered.foldl (fun d r => ((d.str r.host).str r.path).u8 r.pathType.rank) (d.optStr policy.status)

/-- Adds one canary Ingress, if it asked to be promoted and landed anywhere. -/
def collectPromotion (routes : Routes)
    (state : List (PromotionTarget F) × Digest × List Warning)
    (canary : Ingress × CanaryAnnotations) : List (PromotionTarget F) × Digest × List Warning :=
  let (targets, digest, warnings) := state
  let policy := PromotionAnnotations.parse fl canary.1.metadata.annotations
  if policy.enabled then
    let owner := ObjectKey.of canary.1.metadata
    let warnings := warnings ++ policy.invalid.map fun key => ⟨owner, .promotionUnread key⟩
    let covered := coveredRoutes routes owner
    if covered.isEmpty then (targets, digest, warnings)
    else
      (targets ++ [⟨owner, canary.1.metadata.uid, covered, canary.2.weight, policy⟩],
        digestPromotion fl digest owner canary.2.weight policy covered, warnings)
  else state

/-- Where a target stands in the order of object keys. -/
def targetKey (target : PromotionTarget F) : List Nat ×ₗ List Nat :=
  toLex (textKey target.ingress.namespace_, textKey target.ingress.name)

/-- Gathers the canary Ingresses that asked to be promoted automatically. -/
def collectPromotions (canaries : List (Ingress × CanaryAnnotations)) (routes : Routes)
    (digest : Digest) (warnings : List Warning) :
    List (PromotionTarget F) × Digest × List Warning :=
  let collected := canaries.foldl (collectPromotion fl routes) ([], digest, warnings)
  (collected.1.insertionSort fun a b => targetKey a ≤ targetKey b, collected.2)

end Promotions

section Whole

variable {F : Type} (fl : Floats F) (rx : RegexEngine)

/-- The result of one translation pass. -/
structure Translation (F : Type) where
  config : CompiledConfig F
  digest : Nat
  managed : List ObjectKey
  warnings : List Warning

/-- The builder a translation starts from. -/
def startBuilder : Option RouteTable → RouteTableBuilder
  | some table => RouteTableBuilder.fromPrevious table
  | none => {}

/-- Names the default backend, if there is one. -/
def registerDefault (target : Option ServiceRef) (c : Compiling) : Compiling :=
  let digest := c.digest.optStr (target.map (·.backendName))
  match target with
  | some target =>
      { c with builder := c.builder.setDefaultBackend target.backendName, digest := digest }
  | none => { c with digest := digest }

/-- Compiles a snapshot of the cluster into a publishable configuration. -/
def translate (snapshot : ClusterSnapshot) (opts : ControllerOpts)
    (previous : Option RouteTable) : Except BuildError (Translation F) := do
  let planned := planSnapshot snapshot opts
  let backends := collectBackends planned.routes planned.defaultBackend
  let c ← registerBackends snapshot opts backends.1
    ⟨startBuilder previous, {}, planned.warnings ++ backends.2⟩
  let c := registerDefault planned.defaultBackend (registerRoutes rx planned.routes c)
  let (c, certs) := registerCertificates snapshot opts planned.managed c
  let (promotions, digest, warnings) :=
    collectPromotions fl planned.canaries planned.routes c.digest c.warnings
  let table ← c.builder.build
  return ⟨⟨table, certs, promotions, digest.finish⟩, digest.finish,
    planned.managed.map fun ingress => .of ingress.metadata, warnings⟩

end Whole

end Ramjet.Controller.Translate
