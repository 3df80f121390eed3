/- digest: The immutable route table and the request matcher. -/

import Ramjet.Base.AssocMap
import Ramjet.Router.Host
import Ramjet.Router.Rule

set_option autoImplicit false
set_option relaxedAutoImplicit false

namespace Ramjet.Router.Table

open Ramjet.Base.Octets
open Ramjet.Base.Net
open Ramjet.Base.AssocMap
open Ramjet.Router.Host
open Ramjet.Router.Balancing
open Ramjet.Router.Rule

/-- The routes served for one host name, in final precedence order. -/
structure VirtualHost where
  routes : List PathRule
  deriving DecidableEq, Repr

/-- The first rule matching a path. -/
def VirtualHost.matchPath (rx : RegexEngine) (v : VirtualHost) (path : Bytes) : Option PathRule :=
  v.routes.find? fun rule => rule.matches rx path

/-- Which host entry answered a request. -/
inductive HostMatch where
  | exact
  | wildcard
  | catchAll
  | defaultBackend
  deriving DecidableEq, Repr

structure MatchResult where
  backend : Backend
  rule : Option PathRule
  hostMatch : HostMatch
  deriving DecidableEq

/-- SNI to certificate id: exact names, wildcards by parent domain, and the default. -/
structure SniMap where
  exact : Map Bytes Nat := []
  wildcard : Map Bytes Nat := []
  default : Option Nat := none
  deriving DecidableEq, Repr

def SniMap.resolveNormalized (m : SniMap) (name : Bytes) : Option Nat :=
  match get m.exact name with
  | some key => some key
  | none =>
      match (parentDomain name).bind (get m.wildcard) with
      | some key => some key
      | none => m.default

def SniMap.resolve (m : SniMap) (serverName : Bytes) : Option Nat :=
  match scan serverName with
  | .clean name => m.resolveNormalized name
  | .fold name => (foldLower name).bind m.resolveNormalized
  | .invalid => m.default

/-- What makes a route the same route across a rebuild. -/
structure RouteIdentity where
  host : Bytes
  path : Bytes
  pathType : PathType
  backend : Bytes
  deriving DecidableEq, Repr

/-- An immutable routing snapshot; counters live outside it, under the keys it lists. -/
structure RouteTable where
  hosts : Map Bytes VirtualHost := []
  wildcardHosts : Map Bytes VirtualHost := []
  catchAll : Option VirtualHost := none
  defaultBackend : Option BackendId := none
  backends : List Backend := []
  statsSpecs : List (Bytes × List SocketAddr) := []
  identities : List RouteIdentity := []
  tls : SniMap := {}
  generation : Nat := 0
  deriving DecidableEq

def RouteTable.hit (t : RouteTable) (rule : PathRule) (hostMatch : HostMatch) :
    Option MatchResult :=
  (t.backends[rule.backend]?).map fun backend => ⟨backend, some rule, hostMatch⟩

def RouteTable.defaultResult (t : RouteTable) : Option MatchResult := do
  let id ← t.defaultBackend
  let backend ← t.backends[id]?
  return ⟨backend, none, .defaultBackend⟩

def RouteTable.catchAllOrDefault (rx : RegexEngine) (t : RouteTable) (path : Bytes) :
    Option MatchResult :=
  match t.catchAll.bind fun v => v.matchPath rx path with
  | some rule => t.hit rule .catchAll
  | none => t.defaultResult

/-- The virtual host a normalised name selects, and how. -/
def RouteTable.selectHost (t : RouteTable) (host : Bytes) : Option (VirtualHost × HostMatch) :=
  match get t.hosts host with
  | some v => some (v, .exact)
  | none =>
      match (parentDomain host).bind (get t.wildcardHosts) with
      | some v => some (v, .wildcard)
      | none => t.catchAll.map fun v => (v, .catchAll)

def RouteTable.matchNormalized (rx : RegexEngine) (t : RouteTable) (host path : Bytes) :
    Option MatchResult :=
  match t.selectHost host with
  | none => t.defaultResult
  | some (vhost, hostMatch) =>
      match vhost.matchPath rx path with
      | some rule => t.hit rule hostMatch
      | none => t.defaultResult

/-- Routes one request by its raw `Host` header and its path. -/
def RouteTable.matchRequest (rx : RegexEngine) (t : RouteTable) (host path : Bytes) :
    Option MatchResult :=
  match scan host with
  | .clean name => t.matchNormalized rx name path
  | .fold name =>
      match foldLower name with
      | some folded => t.matchNormalized rx folded path
      | none => t.catchAllOrDefault rx path
  | .invalid => t.catchAllOrDefault rx path

end Ramjet.Router.Table
