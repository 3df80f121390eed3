/- digest: Validation of routes, backends and certificates, and their freezing into a table. -/

import Ramjet.Base.FirstHit
import Ramjet.Base.Outcome
import Ramjet.Router.Table

set_option autoImplicit false
set_option relaxedAutoImplicit false

namespace Ramjet.Router.Builder

open Ramjet.Base.Octets
open Ramjet.Base.Outcome
open Ramjet.Base.Net
open Ramjet.Base.AssocMap
open Ramjet.Router.Host
open Ramjet.Router.Balancing
open Ramjet.Router.Rule
open Ramjet.Router.Table

def DEFAULT_WEIGHT_TOTAL : Nat := 100

/-- Why a route table could not be built. -/
inductive BuildError where
  | hostLength (host : Bytes)
  | hostSyntax (host : Bytes) (found : UInt8)
  | wildcardShape (host : Bytes)
  | pathNotAbsolute (path : Bytes)
  | badPattern (path : Bytes)
  | badCanaryPattern (pattern : Bytes)
  | duplicatePath (host path : Bytes) (pathType : PathType)
  | duplicateBackend (name : Bytes)
  | unknownBackend (name referrer : Bytes)
  | canaryHeaderConflict (host path : Bytes)
  | canaryWeight (weight total : Nat)
  | mirrorPercent (percent : Nat)
  | mirrorBackendMissing (host path : Bytes)
  deriving DecidableEq, Repr

/-- The canary annotations of one route. -/
structure CanaryRules where
  backend : Bytes := []
  header : Option Bytes := none
  headerValue : Option Bytes := none
  headerPattern : Option Bytes := none
  cookie : Option Bytes := none
  weight : Nat := 0
  weightTotal : Nat := 0
  deriving DecidableEq, Repr

/-- The mirror configuration of one route. -/
structure MirrorRules where
  backend : Bytes := []
  percent : Nat := 0
  host : Option Bytes := none
  deriving DecidableEq, Repr

structure RouteOptions where
  canary : Option CanaryRules := none
  mirror : Option MirrorRules := none
  deriving DecidableEq, Repr

/-- Which bucket a rule belongs to; a wildcard is stored as its parent domain. -/
inductive HostSlot where
  | exact (name : Bytes)
  | wildcard (parent : Bytes)
  | catchAll
  deriving DecidableEq, Repr

def HostSlot.display : HostSlot → Bytes
  | .exact h => h
  | .wildcard h => h
  | .catchAll => ascii "*"

structure CanaryDraft where
  backend : Bytes
  header : Option HeaderSpec
  cookie : Option Bytes
  weight : Nat
  weightTotal : Nat
  deriving DecidableEq, Repr

structure MirrorDraft where
  backend : Bytes
  percent : Nat
  host : Option Bytes
  deriving DecidableEq, Repr

structure BackendDraft where
  name : Bytes
  options : BackendOptions
  endpoints : List Endpoint
  deriving DecidableEq

structure RouteDraft where
  slot : HostSlot
  path : Bytes
  pathType : PathType
  regex : Option Regex
  backend : Bytes
  canary : Option CanaryDraft
  mirror : Option MirrorDraft
  deriving DecidableEq, Repr

structure RouteTableBuilder where
  generation : Nat := 0
  backends : List BackendDraft := []
  backendIds : Map Bytes BackendId := []
  routes : List RouteDraft := []
  defaultBackend : Option Bytes := none
  tlsExact : Map Bytes Nat := []
  tlsWildcard : Map Bytes Nat := []
  tlsDefault : Option Nat := none
  deriving DecidableEq

/-- The largest generation number. -/
def U64_MAX : Nat := 18446744073709551615

/-- A builder for the table that will succeed `previous`. -/
def RouteTableBuilder.fromPrevious (previous : RouteTable) : RouteTableBuilder :=
  { generation := min (previous.generation + 1) U64_MAX }

def RouteTableBuilder.backendWith (b : RouteTableBuilder) (name : Bytes)
    (endpoints : List Endpoint) (options : BackendOptions) :
    Except BuildError RouteTableBuilder :=
  if contains b.backendIds name then .error (.duplicateBackend name)
  else
    .ok { b with
      backendIds := insert b.backendIds name (b.backends.length % U32_SIZE)
      backends := b.backends ++ [⟨name, options, endpoints⟩] }

def RouteTableBuilder.setDefaultBackend (b : RouteTableBuilder) (name : Bytes) :
    RouteTableBuilder := { b with defaultBackend := some name }

/-- The name part of a host in lower case, refused where it holds another syntax. -/
def configName (host name : Bytes) : Except BuildError Bytes :=
  match name.find? fun c => c == 58 || c == 47 || c == 42 || c == 32 with
  | some found =>
      if found = 42 then .error (.wildcardShape host) else .error (.hostSyntax host found)
  | none => if name.isEmpty then .error (.wildcardShape host) else .ok (name.map toAsciiLowercase)

/-- Validates a host of an Ingress object and sorts it into its bucket. -/
def normalizeConfigHost (host : Bytes) : Except BuildError HostSlot :=
  let host := host.rdropWhile (· == 46)
  if host.isEmpty || MAX_HOST_LEN < host.length then .error (.hostLength host)
  else if (ascii "*.").isPrefixOf host then (configName host (host.drop 2)).map .wildcard
  else (configName host host).map .exact

/-- The expression an `ImplementationSpecific` path is matched with: anchored in front. -/
def pathRegex (path : Bytes) : Regex := ⟨ascii "^(?:" ++ path ++ ascii ")", true⟩

/-- The expression a canary header is matched with: anchored at both ends. -/
def headerRegex (pattern : Bytes) : Regex := ⟨ascii "^(?:" ++ pattern ++ ascii ")$", false⟩

variable (rx : RegexEngine)

def draftSlot : Option Bytes → Except BuildError HostSlot
  | some h => normalizeConfigHost h
  | none => .ok .catchAll

def draftRegex (path : Bytes) : PathType → Except BuildError (Option Regex)
  | .implementationSpecific =>
      if rx.compiles (pathRegex path) then .ok (some (pathRegex path))
      else .error (.badPattern path)
  | _ => if path.head? = some 47 then .ok none else .error (.pathNotAbsolute path)

def draft (host : Option Bytes) (path : Bytes) (pathType : PathType) (backend : Bytes) :
    Except BuildError RouteDraft := do
  let slot ← draftSlot host
  let regex ← draftRegex rx path pathType
  return ⟨slot, path, pathType, regex, backend, none, none⟩

def compileHeader (pattern : Bytes) : Except BuildError Regex :=
  if rx.compiles (headerRegex pattern) then .ok (headerRegex pattern)
  else .error (.badCanaryPattern pattern)

/-- Validates the canary annotations of one route and compiles its header rule. -/
def canaryDraft (canary : CanaryRules) (slot : HostSlot) (path : Bytes) :
    Except BuildError CanaryDraft :=
  if canary.headerValue.isSome && canary.headerPattern.isSome then
    .error (.canaryHeaderConflict slot.display path)
  else
    let weightTotal :=
      if canary.weightTotal = 0 then DEFAULT_WEIGHT_TOTAL else canary.weightTotal
    if weightTotal < canary.weight then .error (.canaryWeight canary.weight weightTotal)
    else do
      let header ← optional (fun name => do
        let pattern ← optional (compileHeader rx) canary.headerPattern
        return (⟨name, canary.headerValue, pattern⟩ : HeaderSpec)) canary.header
      return ⟨canary.backend, header, canary.cookie, canary.weight, weightTotal⟩

/-- Validates the mirror annotations of one route. -/
def mirrorDraft (mirror : MirrorRules) (slot : HostSlot) (path : Bytes) :
    Except BuildError MirrorDraft :=
  if mirror.backend.isEmpty then .error (.mirrorBackendMissing slot.display path)
  else if MIRROR_PERCENT_TOTAL < mirror.percent then .error (.mirrorPercent mirror.percent)
  else .ok ⟨mirror.backend, mirror.percent, mirror.host⟩

/-- Adds a route carrying any combination of the optional behaviours. -/
def RouteTableBuilder.routeWith (b : RouteTableBuilder) (host : Option Bytes) (path : Bytes)
    (pathType : PathType) (backend : Bytes) (options : RouteOptions) :
    Except BuildError RouteTableBuilder := do
  let d ← draft rx host path pathType backend
  let canary ← optional (fun c => canaryDraft rx c d.slot path) options.canary
  let mirror ← optional (fun m => mirrorDraft m d.slot path) options.mirror
  return { b with routes := b.routes ++ [{ d with canary := canary, mirror := mirror }] }

/-- Registers a certificate for a host, which may be a wildcard. -/
def RouteTableBuilder.certificate (b : RouteTableBuilder) (host : Bytes) (key : Nat) :
    Except BuildError RouteTableBuilder :=
  match normalizeConfigHost host with
  | .error e => .error e
  | .ok (.exact h) => .ok { b with tlsExact := insert b.tlsExact h key }
  | .ok (.wildcard h) => .ok { b with tlsWildcard := insert b.tlsWildcard h key }
  | .ok .catchAll => .ok { b with tlsDefault := some key }

def RouteTableBuilder.defaultCertificate (b : RouteTableBuilder) (key : Nat) :
    RouteTableBuilder := { b with tlsDefault := some key }

def resolveBackend (ids : Map Bytes BackendId) (name : Bytes) (slot : HostSlot) (path : Bytes) :
    Except BuildError BackendId :=
  match get ids name with
  | some id => .ok id
  | none => .error (.unknownBackend name (slot.display ++ path))

/-- The rule a draft is frozen into once its backends are resolved. -/
def freezeRule (ids : Map Bytes BackendId) (d : RouteDraft) : Except BuildError PathRule := do
  let backendId ← resolveBackend ids d.backend d.slot d.path
  let canary ← optional (fun c => do
    let id ← resolveBackend ids c.backend d.slot d.path
    return CanarySpec.new id c.header c.cookie c.weight c.weightTotal) d.canary
  let mirror ← optional (fun m => do
    let id ← resolveBackend ids m.backend d.slot d.path
    return MirrorSpec.new id m.percent m.host) d.mirror
  return PathRule.new d.path d.pathType d.regex backendId (RuleExtras.build canary mirror)

/-- What makes two drafts collide. -/
abbrev RouteSlotKey := HostSlot × Bytes × PathType

def RouteDraft.key (d : RouteDraft) : RouteSlotKey := (d.slot, d.path, d.pathType)

/-- The rules grouped by host so far, and the keys already taken. -/
structure Grouping where
  seen : List RouteSlotKey := []
  buckets : Map HostSlot (List PathRule) := []
  deriving DecidableEq

def groupRoute (ids : Map Bytes BackendId) (g : Grouping) (d : RouteDraft) :
    Except BuildError Grouping :=
  if g.seen.contains d.key then .error (.duplicatePath d.slot.display d.path d.pathType)
  else do
    let rule ← freezeRule ids d
    return { seen := d.key :: g.seen
             buckets := insert g.buckets d.slot ((get g.buckets d.slot).getD [] ++ [rule]) }

def groupRoutes (ids : Map Bytes BackendId) : List RouteDraft → Grouping →
    Except BuildError Grouping
  | [], g => .ok g
  | d :: rest, g => do
      let g ← groupRoute ids g d
      groupRoutes ids rest g

/-- How a bucket is spelled in a route's identity. -/
def HostSlot.spelled : HostSlot → Bytes
  | .exact h => h
  | .wildcard h => ascii "*." ++ h
  | .catchAll => ascii "*"

/-- The rules of one bucket in their final order, numbered from `base`. -/
def freezeBucket (base : Nat) (rules : List PathRule) : List PathRule :=
  ((rules.insertionSort fun a b => a.sortKey ≤ b.sortKey).zipIdx base).map fun p =>
    p.1.setStatsIndex (p.2 % U32_SIZE)

def ruleIdentity (backends : List Backend) (slot : HostSlot) (rule : PathRule) : RouteIdentity :=
  ⟨slot.spelled, rule.path, rule.pathType,
    match backends[rule.backend]? with
    | some b => b.name
    | none => []⟩

/-- Files the rules of one bucket under its host. -/
def file (t : RouteTable) (slot : HostSlot) (v : VirtualHost) : RouteTable :=
  match slot with
  | .exact h => { t with hosts := insert t.hosts h v }
  | .wildcard h => { t with wildcardHosts := insert t.wildcardHosts h v }
  | .catchAll => { t with catchAll := some v }

/-- Files the sorted buckets one after the other, handing out counter indices. -/
def fileBuckets (backends : List Backend) : Map HostSlot (List PathRule) → RouteTable → RouteTable
  | [], t => t
  | (slot, rules) :: rest, t =>
      let rules := freezeBucket t.identities.length rules
      let identities := t.identities ++ rules.map (ruleIdentity backends slot)
      fileBuckets backends rest (file { t with identities := identities } slot ⟨rules⟩)

def builtBackends (drafts : List BackendDraft) : List Backend :=
  drafts.zipIdx.map fun p =>
    Backend.new p.1.name p.1.endpoints p.1.options.policy p.1.options.protocol (p.2 % U32_SIZE)

def resolveDefault (ids : Map Bytes BackendId) (name : Bytes) : Except BuildError BackendId :=
  match get ids name with
  | some id => .ok id
  | none => .error (.unknownBackend name (ascii "default backend"))

/-- Validates and freezes everything into a table. -/
def RouteTableBuilder.build (b : RouteTableBuilder) : Except BuildError RouteTable := do
  let backends := builtBackends b.backends
  let g ← groupRoutes b.backendIds b.routes {}
  let filed := fileBuckets backends g.buckets {}
  let defaultBackend ← optional (resolveDefault b.backendIds) b.defaultBackend
  return { filed with
    defaultBackend := defaultBackend
    backends := backends
    statsSpecs := b.backends.map fun d => (d.name, d.endpoints.map (·.addr))
    tls := ⟨b.tlsExact, b.tlsWildcard, b.tlsDefault⟩
    generation := b.generation }

/-- One call on a builder; a call that fails leaves it as it was. -/
inductive BuilderCall where
  | generation (n : Nat)
  | backendWith (name : Bytes) (endpoints : List Endpoint) (options : BackendOptions)
  | defaultBackend (name : Bytes)
  | routeWith (host : Option Bytes) (path : Bytes) (pathType : PathType) (backend : Bytes)
      (options : RouteOptions)
  | certificate (host : Bytes) (key : Nat)
  | defaultCertificate (key : Nat)
  deriving DecidableEq

def RouteTableBuilder.attempt (b : RouteTableBuilder) : BuilderCall →
    Except BuildError RouteTableBuilder
  | .generation n => .ok { b with generation := n }
  | .backendWith name endpoints options => b.backendWith name endpoints options
  | .defaultBackend name => .ok (b.setDefaultBackend name)
  | .routeWith host path pathType backend options =>
      b.routeWith rx host path pathType backend options
  | .certificate host key => b.certificate host key
  | .defaultCertificate key => .ok (b.defaultCertificate key)

def RouteTableBuilder.call (b : RouteTableBuilder) (c : BuilderCall) : RouteTableBuilder :=
  match b.attempt rx c with
  | .ok b' => b'
  | .error _ => b

/-- The builder after a sequence of calls, failures ignored by the caller. -/
def RouteTableBuilder.calls (b : RouteTableBuilder) (cs : List BuilderCall) : RouteTableBuilder :=
  cs.foldl (fun b c => b.call rx c) b

end Ramjet.Router.Builder
