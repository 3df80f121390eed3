/- digest: Which Ingresses are managed, and the addresses a Service reference resolves to. -/

import Mathlib.Algebra.Ring.Nat
import Ramjet.Controller.Config

set_option autoImplicit false
set_option relaxedAutoImplicit false

namespace Ramjet.Controller.Endpoints

open Ramjet.Base.Octets
open Ramjet.Base.Text
open Ramjet.Base.Net
open Ramjet.Base.AssocMap
open Ramjet.Router.Balancing
open Ramjet.Controller.Objects
open Ramjet.Controller.Annotations
open Ramjet.Controller.Config

section Classes

/-- The precomputed answer to which Ingresses are managed. -/
structure ClassFilter where
  ours : List Bytes
  known : List Bytes
  defaultIsOurs : Bool
  legacyValue : Bytes
  deriving DecidableEq, Repr

def isOurs (c : IngressClass) : Bool := c.controller == some CONTROLLER_NAME

def ClassFilter.new (classes : List IngressClass) (legacyValue : Bytes) : ClassFilter where
  ours := (classes.filter isOurs).map (·.metadata.nameAny)
  known := classes.map (·.metadata.nameAny)
  defaultIsOurs := (classes.filter isOurs).any fun c =>
    (get c.metadata.annotations ANNOTATION_IS_DEFAULT_CLASS).any isTrue
  legacyValue := legacyValue

/-- Which rule claimed an Ingress. -/
inductive ClaimVia where
  | className
  | legacyAnnotation
  | defaultClass
  deriving DecidableEq, Repr

inductive Claim where
  | ours (via : ClaimVia)
  | otherController
  | unknownClass
  | noClass
  deriving DecidableEq, Repr

/-- Whether an Ingress is managed, and why; the legacy annotation is decisive when present. -/
def ClassFilter.classify (f : ClassFilter) (ingress : Ingress) : Claim :=
  match get ingress.metadata.annotations ANNOTATION_LEGACY_CLASS with
  | some annotated =>
      if trim annotated = f.legacyValue then .ours ClaimVia.legacyAnnotation else .otherController
  | none =>
      match ingress.spec.bind (·.ingressClassName) with
      | some name =>
          if name ∈ f.ours then .ours .className
          else if name ∈ f.known then .otherController
          else .unknownClass
      | none => if f.defaultIsOurs then .ours .defaultClass else .noClass

end Classes

section Resolution

def SERVICE_NAME_LABEL : Bytes := ascii "kubernetes.io/service-name"
def EXTERNAL_NAME : Bytes := ascii "ExternalName"

/-- Why a backend could not be resolved to addresses. -/
inductive ResolveIssue where
  | serviceMissing
  | externalName (target : Bytes)
  | portMissing
  | noReadyEndpoints (skipped : Nat)
  deriving DecidableEq, Repr

/-- Resolved addresses, and how many were left out. -/
structure Resolution where
  endpoints : List Endpoint
  skipped : Nat
  deriving DecidableEq

structure EndpointIndex where
  services : Map (Bytes × Bytes) Service := []
  slices : Map (Bytes × Bytes) (List EndpointSlice) := []
  deriving DecidableEq

def indexServices (services : List Service) : Map (Bytes × Bytes) Service :=
  services.foldl (fun index service =>
    match service.metadata.namespace_, service.metadata.name with
    | some ns, some name => insert index (ns, name) service
    | _, _ => index) []

def indexSlices (slices : List EndpointSlice) : Map (Bytes × Bytes) (List EndpointSlice) :=
  slices.foldl (fun index slice =>
    match slice.metadata.namespace_, get slice.metadata.labels SERVICE_NAME_LABEL with
    | some ns, some service =>
        insert index (ns, service) ((get index (ns, service)).getD [] ++ [slice])
    | _, _ => index) []

def EndpointIndex.new (services : List Service) (slices : List EndpointSlice) : EndpointIndex :=
  ⟨indexServices services, indexSlices slices⟩

def portMatches (port : ServicePort) : BackendPort → Bool
  | .number n => port.port == n
  | .name name => port.name == some name

/-- The target port a slice carries for a Service port, matched by name. -/
def slicePort (slice : EndpointSlice) (port : ServicePort) : Option Int :=
  ((slice.ports.getD []).find? fun p => p.name.getD [] == port.name.getD []).bind (·.port)

def isServing (endpoint : SliceEndpoint) : Bool :=
  match endpoint.conditions with
  | none => true
  | some conditions => conditions.ready.getD true && !conditions.terminating.getD false

/-- The addresses of one endpoint at a port, and how many of them were skipped. -/
def endpointAddrs (port : UInt16) (endpoint : SliceEndpoint) : List SocketAddr × Nat :=
  if isServing endpoint then
    let parsed := endpoint.addresses.filterMap parseIpAddr
    (parsed.map fun ip => ⟨ip, port, 0⟩, endpoint.addresses.length - parsed.length)
  else ([], endpoint.addresses.length)

/-- The addresses one slice contributes, and how many of its addresses were skipped. -/
def sliceAddrs (port : ServicePort) (slice : EndpointSlice) : List SocketAddr × Nat :=
  if slice.addressType = ascii "IPv4" ∨ slice.addressType = ascii "IPv6" then
    match slicePort slice port with
    | none => ([], 0)
    | some target =>
        if 0 ≤ target ∧ target ≤ U16_MAX then
          let each := (slice.endpoints.getD []).map (endpointAddrs (UInt16.ofNat target.toNat))
          (each.flatMap (·.1), (each.map (·.2)).sum)
        else ([], 0)
  else ([], 0)

/-- Resolves an Ingress backend to ready upstream addresses, sorted and without repeats. -/
def EndpointIndex.resolve (index : EndpointIndex) (target : ServiceRef) :
    Except ResolveIssue Resolution :=
  match get index.services (target.namespace_, target.name) with
  | none => .error .serviceMissing
  | some service =>
      if service.spec.bind (·.type_) = some EXTERNAL_NAME then
        .error (.externalName ((service.spec.bind (·.externalName)).getD []))
      else
        match ((service.spec.bind (·.ports)).getD []).find? fun p => portMatches p target.port with
        | none => .error .portMissing
        | some port =>
            let slices := (get index.slices (target.namespace_, target.name)).getD []
            let each := slices.map (sliceAddrs port)
            let skipped := (each.map (·.2)).sum
            let sorted := (each.flatMap (·.1)).insertionSort fun a b => a.sortKey ≤ b.sortKey
            let addrs := sorted.destutter (· ≠ ·)
            if addrs.isEmpty then .error (.noReadyEndpoints skipped)
            else .ok ⟨addrs.map fun addr => ⟨addr, 1⟩, skipped⟩

end Resolution

end Ramjet.Controller.Endpoints
