/- digest: Choosing a backend and an endpoint with the router, and the retry policy. -/

import Ramjet.Base.Text
import Ramjet.Engine.Headers
import Ramjet.Router.Table

set_option autoImplicit false
set_option relaxedAutoImplicit false

namespace Ramjet.Engine.Route

open Ramjet.Base.Octets
open Ramjet.Base.Text
open Ramjet.Engine.Codec.MessageHead
open Ramjet.Engine.Codec.BodyFraming
open Ramjet.Router.Balancing
open Ramjet.Router.Rule
open Ramjet.Router.Table

/-- The `Host` the router matches on, where there is one and it is text. -/
def routingHost (head : Head) (buf : Bytes) : Option Bytes :=
  (head.header buf (ascii "host")).bind fromUtf8

/-- The path the router matches on: the target without its query. -/
def routingPath (target : Span) (buf : Bytes) : Option Bytes :=
  fromUtf8 ((target.bytes buf).takeWhile (· != 63))

def cookiePairs (name : Bytes) : List Bytes → Option Bytes
  | [] => none
  | pair :: rest =>
      match splitOnce 61 pair with
      | none => cookiePairs name rest
      | some (key, val) => if trim key = name then some (trim val) else cookiePairs name rest

def cookieLines (name : Bytes) : List Bytes → Option Bytes
  | [] => none
  | value :: rest =>
      match fromUtf8 value with
      | none => none
      | some value =>
          match cookiePairs name (value.splitOn 59) with
          | some val => some val
          | none => cookieLines name rest

/-- The value of a cookie; a line that is not text ends the search. -/
def cookieValue (head : Head) (buf name : Bytes) : Option Bytes :=
  cookieLines name ((head.headersNamed buf (ascii "cookie")).map (·.2))

/-- A number below `bound` from a random word, and zero below nothing. -/
def below (word bound : Nat) : Nat := if bound = 0 then 0 else word * bound / 2 ^ 64

/-- What the router said about a request, in the pieces the forward path needs. -/
structure Matched where
  backend : Backend
  route : Option Nat
  canaried : Bool
  mirror : Option MirrorSpec
  deriving DecidableEq

/-- Match a request and apply the canary and the mirror of the rule it matched. -/
def matchRequest (rx : RegexEngine) (table : RouteTable) (host path : Bytes) (head : Head)
    (buf : Bytes) (mirrorWord canaryWord : Nat) : Option Matched :=
  match table.matchRequest rx host path with
  | none => none
  | some found =>
      let route := found.rule.map (·.statsIndex)
      let mirror := (found.rule.bind (·.mirror)).filter fun spec =>
        spec.sample (below mirrorWord MIRROR_PERCENT_TOTAL)
      match found.rule.bind (·.canary) with
      | none => some ⟨found.backend, route, false, mirror⟩
      | some canary =>
          let headerValue :=
            (canary.header.bind fun rule => head.header buf rule.name).bind fromUtf8
          let cookie := canary.cookie.bind fun name => cookieValue head buf name
          let diverted := canary.decide rx headerValue cookie (below canaryWord canary.weightTotal)
          let canaryBackend := if diverted then table.backends[canary.backend]? else none
          some ⟨canaryBackend.getD found.backend, route, canaryBackend.isSome, mirror⟩

/-- The endpoint of attempt number `attempt`, counting from the first choice. -/
def endpointAt (backend : Backend) (first attempt : Nat) : Option Endpoint :=
  if backend.endpoints.isEmpty then none
  else backend.endpoints[(first + attempt) % backend.endpoints.length]?

/-- How many endpoints a request may be tried against: only a bodyless one more than once. -/
def attempts (framing : Framing) (endpoints maxAttempts : Nat) : Nat :=
  if framing = .empty then max (min endpoints maxAttempts) 1 else 1

end Ramjet.Engine.Route
