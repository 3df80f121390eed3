/- digest: The request path of the hyper engine: matching a route, and rewriting for the next hop. -/

import Ramjet.Proxy.Headers

set_option autoImplicit false
set_option relaxedAutoImplicit false

namespace Ramjet.Proxy.Forward

open Ramjet.Base.Octets
open Ramjet.Base.Net
open Ramjet.Router.Rule
open Ramjet.Router.Table
open Ramjet.Engine.Headers (HexId Scheme)
open Ramjet.Engine.Route (Matched below)
open Ramjet.Proxy.HeaderMap
open Ramjet.Proxy.Headers

/-- A request target as the library reads it. -/
structure Uri where
  authority : Option Bytes
  path : Bytes
  deriving DecidableEq, Repr

/-- A request as it reaches the proxy. -/
structure Request (M : Type) where
  uri : Uri
  headers : M

/-- What is known of the client's connection. -/
structure ConnInfo where
  remote : IpAddr
  scheme : Scheme
  deriving DecidableEq

variable {M : Type} (lib : HeaderMapLib M)

/-- The host the client addressed. -/
def requestAuthority (request : Request M) : Bytes :=
  match request.uri.authority with
  | some authority => authority
  | none => ((lib.get request.headers HOST).filter isVisible).getD []

/-- The same, as a header value. -/
def clientHost (request : Request M) : Option Bytes :=
  match request.uri.authority with
  | some authority => if lib.isValue authority then some authority else none
  | none => lib.get request.headers HOST

def isGrpc (headers : M) : Bool :=
  ((lib.get headers CONTENT_TYPE).filter isVisible).any fun value =>
    (ascii "application/grpc").isPrefixOf value

/-- The headers a request takes to an HTTP/1.1 backend. -/
def http1Headers (conn : ConnInfo) (request : Request M) (hex : HexId) : M :=
  let forwardedHost := clientHost lib request
  let upgrade := upgradeProtocol lib request.headers
  let headers := stripHopByHop lib request.headers
  let headers := applyForwarded lib headers conn.remote conn.scheme.asBytes forwardedHost
  let headers := (ensureRequestId lib headers hex).2
  let headers :=
    match upgrade with
    | some upgraded => restoreUpgrade lib headers upgraded
    | none => headers
  if lib.containsKey headers HOST then headers
  else
    match forwardedHost with
    | some host => lib.insert headers HOST host
    | none => headers

/-- Matches the request and applies any canary and mirror on the matched rule. -/
def selectBackend (rx : RegexEngine) (table : RouteTable) (request : Request M)
    (mirrorWord canaryWord : Nat) : Option Matched :=
  match table.matchRequest rx (requestAuthority lib request) request.uri.path with
  | none => none
  | some found =>
      let route := found.rule.map (·.statsIndex)
      let mirror := (found.rule.bind (·.mirror)).filter fun spec =>
        spec.sample (below mirrorWord MIRROR_PERCENT_TOTAL)
      match found.rule.bind (·.canary) with
      | none => some ⟨found.backend, route, false, mirror⟩
      | some canary =>
          let headerValue :=
            ((canary.header.bind fun rule => lib.nameOf rule.name).bind
              fun name => lib.get request.headers name).filter isVisible
          let cookie := canary.cookie.bind fun name => cookieValue lib request.headers name
          let diverted := canary.decide rx headerValue cookie (below canaryWord canary.weightTotal)
          let canaryBackend := if diverted then table.backends[canary.backend]? else none
          some ⟨canaryBackend.getD found.backend, route, canaryBackend.isSome, mirror⟩

end Ramjet.Proxy.Forward
