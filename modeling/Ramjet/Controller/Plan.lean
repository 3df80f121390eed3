/- digest: From cluster objects to planned routes: claims by age, fallbacks, and canaries. -/

import Ramjet.Controller.Warnings

set_option autoImplicit false
set_option relaxedAutoImplicit false

namespace Ramjet.Controller.Plan

open Ramjet.Base.Octets
open Ramjet.Base.Text
open Ramjet.Base.AssocMap
open Ramjet.Router.Balancing
open Ramjet.Router.Rule
open Ramjet.Controller.Objects
open Ramjet.Controller.Annotations
open Ramjet.Controller.Config
open Ramjet.Controller.Endpoints
open Ramjet.Controller.Warnings

section Data

/-- A mirror as planned. -/
structure MirrorPlan where
  backend : ServiceRef
  percent : Nat
  host : Option Bytes
  protocol : BackendProtocol
  deriving DecidableEq, Repr

/-- A canary as planned. -/
structure CanaryPlan where
  backend : ServiceRef
  owner : ObjectKey
  rules : CanaryAnnotations
  protocol : BackendProtocol
  deriving DecidableEq, Repr

/-- A route as planned, before the router validates it. -/
structure RoutePlan where
  key : RouteKey
  backend : ServiceRef
  owner : ObjectKey
  protocol : BackendProtocol
  canary : Option CanaryPlan
  mirror : Option MirrorPlan
  deriving DecidableEq, Repr

abbrev Routes := Map RouteKey RoutePlan

end Data

section Selection

/-- Where an Ingress stands in the order of age; namespace and name break ties. -/
def ageKey (ingress : Ingress) : Nat ×ₗ Int ×ₗ List Nat ×ₗ List Nat :=
  let key := ObjectKey.of ingress.metadata
  let names : List Nat ×ₗ List Nat := toLex (textKey key.namespace_, textKey key.name)
  match ingress.metadata.creationTimestamp with
  | none => toLex (0, toLex (0, names))
  | some time => toLex (1, toLex (time, names))

def unknownClass (ingress : Ingress) : Warning :=
  ⟨.of ingress.metadata, .noSuchClass ((ingress.spec.bind (·.ingressClassName)).getD [])⟩

/-- The Ingresses we manage, oldest first. -/
def selectManaged (snapshot : ClusterSnapshot) (opts : ControllerOpts) :
    List Ingress × List Warning :=
  let filter := ClassFilter.new snapshot.ingressClasses opts.className
  let managed := snapshot.ingresses.filter fun ingress =>
    match filter.classify ingress with
    | .ours _ => true
    | _ => false
  let unknown := snapshot.ingresses.filter fun ingress => filter.classify ingress = .unknownClass
  (managed.insertionSort fun a b => ageKey a ≤ ageKey b, unknown.map unknownClass)

end Selection

section Reading

/-- A host in lower case without trailing dots; an absent or empty one is the catch-all. -/
def normalizeHost (host : Option Bytes) : Option Bytes :=
  match host with
  | none => none
  | some h =>
      let h := (trim h).rdropWhile (· == 46)
      if h.isEmpty then none else some (h.map toAsciiLowercase)

/-- Reads `backend-protocol`, reporting a value that cannot be honoured. -/
def backendProtocol (annotations : Annotations) (owner : ObjectKey) :
    BackendProtocol × List Warning :=
  let parsed := BackendProtocolAnnotation.parse annotations
  (parsed.protocol, parsed.unsupported.toList.map fun value => ⟨owner, .protocolUnsupported value⟩)

/-- A mirror reference with the Ingress's own namespace where it names none. -/
def qualifiedReference (ns reference : Bytes) : Bytes :=
  if (47 : UInt8) ∈ reference then reference else ns ++ ascii "/" ++ reference

/-- Reads the mirror annotations into a plan; what cannot be understood is no mirror. -/
def mirrorPlan (annotations : Annotations) (ns : Bytes) (owner : ObjectKey)
    (protocol : BackendProtocol) : Option MirrorPlan × List Warning :=
  let parsed := MirrorAnnotations.parse annotations
  let invalid := parsed.invalid.map fun key => (⟨owner, .notAPercentage key⟩ : Warning)
  match parsed.backend with
  | none => (none, invalid)
  | some reference =>
      match ServiceRef.fromStr (qualifiedReference ns reference) with
      | .ok backend => (some ⟨backend, parsed.percent, parsed.host, protocol⟩, invalid)
      | .error err => (none, invalid ++ [⟨owner, .mirrorUnusable reference err⟩])

/-- The port a backend names; the number is the unambiguous one of two. -/
def backendPort (port : Option ServiceBackendPort) : Option BackendPort :=
  match port with
  | none => none
  | some port =>
      match port.number, port.name with
      | some n, _ => some (.number n)
      | none, some n => some (.name n)
      | none, none => none

/-- Reads a backend into a Service reference. -/
def backendRef (ns : Bytes) (backend : IngressBackend) (owner : ObjectKey) :
    Option ServiceRef × List Warning :=
  match backend.service with
  | none => (none, [⟨owner, .notAService⟩])
  | some service =>
      match backendPort service.port with
      | none => (none, [⟨owner, .noPort service.name⟩])
      | some port => (some ⟨ns, service.name, port⟩, [])

/-- Maps the `pathType` string onto the router's enumeration. -/
def parsePathType (raw : Bytes) (owner : ObjectKey) : PathType × List Warning :=
  if raw = ascii "Exact" then (.exact, [])
  else if raw = ascii "Prefix" then (.prefixed, [])
  else if raw = ascii "ImplementationSpecific" then (.implementationSpecific, [])
  else (.implementationSpecific, [⟨owner, .unknownPathType raw⟩])

/-- The backend and the route key one path entry names. -/
def readEntry (owner : ObjectKey) (host : Option Bytes) (entry : HTTPIngressPath) :
    Option (RouteKey × ServiceRef) × List Warning :=
  let backend := backendRef owner.namespace_ entry.backend owner
  match backend.1 with
  | none => (none, backend.2)
  | some target =>
      let pathType := parsePathType entry.pathType owner
      (some (⟨host, entry.path.getD [47], pathType.1⟩, target), backend.2 ++ pathType.2)

/-- The hosts and path entries of an Ingress, in document order. -/
def entriesOf (spec : IngressSpec) : List (Option Bytes × HTTPIngressPath) :=
  (spec.rules.getD []).flatMap fun rule =>
    (rule.http.getD []).map fun entry => (normalizeHost rule.host, entry)

/-- The distinct hosts of an Ingress's rules, in document order. -/
def hostsOf (spec : IngressSpec) : List (Option Bytes) :=
  (spec.rules.getD []).foldl (fun hosts rule =>
    let host := normalizeHost rule.host
    if host ∈ hosts then hosts else hosts ++ [host]) []

end Reading

section Production

/-- What the production Ingresses read so far have claimed. -/
structure Planning where
  routes : Routes := []
  fallbacks : List RoutePlan := []
  globalDefault : Option (ServiceRef × ObjectKey) := none
  warnings : List Warning := []
  deriving DecidableEq, Repr

def Planning.warn (p : Planning) (ws : List Warning) : Planning :=
  { p with warnings := p.warnings ++ ws }

/-- Claims a route key, unless an earlier plan holds it. -/
def Planning.claim (p : Planning) (plan : RoutePlan) : Planning :=
  match get p.routes plan.key with
  | some held => p.warn [⟨plan.owner, .alreadyServed plan.key held.owner⟩]
  | none => { p with routes := insert p.routes plan.key plan }

/-- What every route of one Ingress shares. -/
structure Origin where
  owner : ObjectKey
  protocol : BackendProtocol
  mirror : Option MirrorPlan
  deriving DecidableEq, Repr

def Origin.plan (o : Origin) (key : RouteKey) (backend : ServiceRef) : RoutePlan :=
  ⟨key, backend, o.owner, o.protocol, none, o.mirror⟩

def planEntry (o : Origin) (p : Planning) (entry : Option Bytes × HTTPIngressPath) : Planning :=
  let read := readEntry o.owner entry.1 entry.2
  match read.1 with
  | none => p.warn read.2
  | some (key, backend) => (p.warn read.2).claim (o.plan key backend)

/-- Plans the default backend: the cluster's catch-all, or a fallback for each host. -/
def planDefault (o : Origin) (spec : IngressSpec) (p : Planning) : Planning :=
  match spec.defaultBackend with
  | none => p
  | some default =>
      let backend := backendRef o.owner.namespace_ default o.owner
      match backend.1 with
      | none => p.warn backend.2
      | some target =>
          let p := p.warn backend.2
          let hosts := hostsOf spec
          if hosts.isEmpty then
            match p.globalDefault with
            | some (_, holder) => p.warn [⟨o.owner, .defaultTaken holder⟩]
            | none => { p with globalDefault := some (target, o.owner) }
          else
            { p with fallbacks := p.fallbacks ++
                hosts.map fun host => o.plan ⟨host, [47], .prefixed⟩ target }

/-- The protocol and mirror an Ingress asks for, with what it asked for in vain. -/
def originOf (ingress : Ingress) : Origin × List Warning :=
  let owner := ObjectKey.of ingress.metadata
  let protocol := backendProtocol ingress.metadata.annotations owner
  let mirror := mirrorPlan ingress.metadata.annotations owner.namespace_ owner protocol.1
  (⟨owner, protocol.1, mirror.1⟩, protocol.2 ++ mirror.2)

/-- Turns one production Ingress into route plans. -/
def planIngress (p : Planning) (ingress : Ingress) : Planning :=
  match ingress.spec with
  | none => p
  | some spec =>
      let origin := originOf ingress
      planDefault origin.1 spec ((entriesOf spec).foldl (planEntry origin.1) (p.warn origin.2))

/-- Fallbacks take the keys that every explicit rule left free. -/
def applyFallbacks (routes : Routes) (fallbacks : List RoutePlan) : Routes :=
  fallbacks.foldl (fun routes plan =>
    if contains routes plan.key then routes else insert routes plan.key plan) routes

end Production

section Canaries

/-- Attaches a canary to the route it shadows, unless there is none or it has one. -/
def attachEntry (owner : ObjectKey) (rules : CanaryAnnotations) (protocol : BackendProtocol)
    (state : Routes × List Warning) (entry : Option Bytes × HTTPIngressPath) :
    Routes × List Warning :=
  let read := readEntry owner entry.1 entry.2
  match read.1 with
  | none => (state.1, state.2 ++ read.2)
  | some (key, backend) =>
      match get state.1 key with
      | none => (state.1, state.2 ++ read.2 ++ [⟨owner, .nothingServed key⟩])
      | some plan =>
          match plan.canary with
          | some held => (state.1, state.2 ++ read.2 ++ [⟨owner, .canaryTaken key held.owner⟩])
          | none =>
              (insert state.1 key { plan with
                canary := some ⟨backend, owner, rules, protocol⟩ }, state.2 ++ read.2)

/-- What a canary Ingress is warned about before its rules are read. -/
def canaryWarnings (owner : ObjectKey) (annotations : Annotations) (rules : CanaryAnnotations) :
    List Warning :=
  rules.invalid.map (fun key => ⟨owner, .notANumber key⟩) ++
    (if rules.isInert then [⟨owner, .neverDiverts⟩] else []) ++
    (if (MirrorAnnotations.parse annotations).enabled then [⟨owner, .mirrorOnCanary⟩] else [])

/-- Merges one canary Ingress onto the production routes it shadows. -/
def attachCanary (state : Routes × List Warning) (canary : Ingress × CanaryAnnotations) :
    Routes × List Warning :=
  let (ingress, rules) := canary
  let owner := ObjectKey.of ingress.metadata
  let protocol := backendProtocol ingress.metadata.annotations owner
  let state := (state.1, state.2 ++ protocol.2 ++
    canaryWarnings owner ingress.metadata.annotations rules)
  match ingress.spec with
  | none => state
  | some spec => (entriesOf spec).foldl (attachEntry owner rules protocol.1) state

end Canaries

section Whole

/-- Production Ingresses, and canaries with their annotations. -/
def partitionCanaries (managed : List Ingress) : List Ingress × List (Ingress × CanaryAnnotations) :=
  let parsed := managed.map fun ingress =>
    (ingress, CanaryAnnotations.parse ingress.metadata.annotations)
  ((parsed.filter fun p => !p.2.enabled).map (·.1), parsed.filter fun p => p.2.enabled)

/-- Everything decided before the router is asked. -/
structure Planned where
  managed : List Ingress
  canaries : List (Ingress × CanaryAnnotations)
  routes : Routes
  defaultBackend : Option ServiceRef
  warnings : List Warning
  deriving DecidableEq, Repr

def planSnapshot (snapshot : ClusterSnapshot) (opts : ControllerOpts) : Planned :=
  let managed := selectManaged snapshot opts
  let parts := partitionCanaries managed.1
  let planning := parts.1.foldl planIngress { warnings := managed.2 }
  let routes := applyFallbacks planning.routes planning.fallbacks
  let attached := parts.2.foldl attachCanary (routes, planning.warnings)
  { managed := managed.1
    canaries := parts.2
    routes := attached.1
    defaultBackend := (planning.globalDefault.map (·.1)).or opts.defaultBackend
    warnings := attached.2 }

end Whole

end Ramjet.Controller.Plan
