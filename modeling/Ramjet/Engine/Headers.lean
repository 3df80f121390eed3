/- digest: What a proxy hop does to the headers passing through it, in both directions. -/

import Ramjet.Base.Net
import Ramjet.Engine.Codec.BodyFraming

set_option autoImplicit false
set_option relaxedAutoImplicit false

namespace Ramjet.Engine.Headers

open Ramjet.Base.Octets
open Ramjet.Base.Net
open Ramjet.Engine.Codec.MessageHead
open Ramjet.Engine.Codec.BodyFraming

/-- The scheme a client connection speaks. -/
inductive Scheme where
  | http
  | https
  deriving DecidableEq, Repr

def Scheme.asBytes : Scheme → Bytes
  | .http => ascii "http"
  | .https => ascii "https"

/-- The identity of the hop, for the forwarded fields. -/
structure Hop where
  client : IpAddr
  scheme : Scheme
  deriving DecidableEq

/-- The characters of a generated request id: lower-case hexadecimal. -/
structure HexId where
  bytes : Bytes
  length_eq : bytes.length = 32
  alphanumeric : bytes.all isAsciiAlphanumeric = true

def HOP_BY_HOP : List Bytes :=
  [ascii "keep-alive", ascii "proxy-connection", ascii "proxy-authenticate",
    ascii "proxy-authorization", ascii "te", ascii "trailer", ascii "transfer-encoding",
    ascii "upgrade"]

def SELF_WRITTEN : List Bytes :=
  [ascii "x-forwarded-for", ascii "x-real-ip", ascii "x-forwarded-proto",
    ascii "x-forwarded-host", ascii "x-request-id"]

def isHopByHop (name : Bytes) : Bool := HOP_BY_HOP.any fun h => eqIgnoreAsciiCase name h

def isSelfWritten (name : Bytes) : Bool := SELF_WRITTEN.any fun h => eqIgnoreAsciiCase name h

/-- Whether some `Connection` field of this head lists `name`. -/
def connectionLists (head : Head) (buf name : Bytes) : Bool :=
  (head.headersNamed buf (ascii "connection")).any fun f => hasToken f.2 name

def wantsUpgrade (head : Head) (buf : Bytes) : Bool :=
  connectionLists head buf (ascii "upgrade") && (head.header buf (ascii "upgrade")).isSome

/-- The protocol named by an `Upgrade` field, if the message asked for one. -/
def upgradeProtocol (head : Head) (buf : Bytes) : Option Bytes :=
  if connectionLists head buf (ascii "upgrade") then
    match head.header buf (ascii "upgrade") with
    | none => none
    | some value => if (trimOws value).isEmpty then none else some (trimOws value)
  else none

def isSwitchingProtocols (head : Head) : Bool := head.status == some 101

def isForwardable (head : Head) (buf name : Bytes) : Bool :=
  !eqIgnoreAsciiCase name (ascii "connection") && !isHopByHop name && !isSelfWritten name &&
    !connectionLists head buf name

/-- One field line with its terminator. -/
def field (name value : Bytes) : Bytes := name ++ ascii ": " ++ value ++ crlf

/-- Every inbound trail, joined by `", "`, with `client` appended. -/
def forwardedFor (head : Head) (buf : Bytes) (client : IpAddr) : Bytes :=
  let trail := (head.headersNamed buf (ascii "x-forwarded-for")).map fun f => trimOws f.2
  ascii "X-Forwarded-For: " ++
    (trail.filter fun v => !v.isEmpty).flatMap (fun v => v ++ ascii ", ") ++
    client.display ++ crlf

/-- The inbound request id, trimmed, if it is not empty. -/
def inboundRequestId (head : Head) (buf : Bytes) : Option Bytes :=
  match head.header buf (ascii "x-request-id") with
  | none => none
  | some existing => if (trimOws existing).isEmpty then none else some (trimOws existing)

/-- The request id of this exchange: the inbound one, or a fresh one. -/
def requestId (head : Head) (buf : Bytes) (fresh : HexId) : Bytes :=
  (inboundRequestId head buf).getD fresh.bytes

/-- The fields that close a rewritten head: chunked framing, then the connection's fate. -/
def closingFields (framing : Framing) (close : Bool) (upgrade : Option Bytes) : Bytes :=
  (if framing = .chunked then field (ascii "Transfer-Encoding") (ascii "chunked") else []) ++
    (match upgrade with
      | some protocol =>
          field (ascii "Connection") (ascii "upgrade") ++ field (ascii "Upgrade") protocol
      | none => if close then field (ascii "Connection") (ascii "close") else [])

/-- The request head to send upstream. -/
def writeUpstreamRequest (head : Head) (buf : Bytes) (hop : Hop) (endpoint : SocketAddr)
    (framing : Framing) (close : Bool) (upgrade : Option Bytes) (fresh : HexId) : Bytes :=
  match head.start with
  | .status _ _ _ => []
  | .request method target _ =>
      method.bytes buf ++ [32] ++ target.bytes buf ++ ascii " HTTP/1.1" ++ crlf ++
        ((head.iter buf).filter fun f => isForwardable head buf f.1).flatMap
          (fun f => field f.1 f.2) ++
        (if (head.headersNamed buf (ascii "host")).isEmpty then
          field (ascii "Host") endpoint.display else []) ++
        forwardedFor head buf hop.client ++
        field (ascii "X-Real-IP") hop.client.display ++
        field (ascii "X-Forwarded-Proto") hop.scheme.asBytes ++
        (match head.header buf (ascii "host") with
          | some host => field (ascii "X-Forwarded-Host") host
          | none => []) ++
        field (ascii "X-Request-Id") (requestId head buf fresh) ++
        closingFields framing close upgrade ++ crlf

/-- Whether a response field is copied through unchanged. -/
def isRelayed (head : Head) (buf name : Bytes) : Bool :=
  !eqIgnoreAsciiCase name (ascii "connection") && !isHopByHop name &&
    !connectionLists head buf name

/-- The response head to send downstream; `reasonOf` is the standard phrase of a status. -/
def writeDownstreamResponse (reasonOf : Nat → Bytes) (head : Head) (buf : Bytes)
    (framing : Framing) (close : Bool) (upgrade : Option Bytes) : Bytes :=
  match head.start with
  | .request _ _ _ => []
  | .status code reason _ =>
      ascii "HTTP/1.1 " ++ decimal code ++ [32] ++
        (if reason.isEmpty then reasonOf code else reason.bytes buf) ++ crlf ++
        ((head.iter buf).filter fun f => isRelayed head buf f.1).flatMap
          (fun f => field f.1 f.2) ++
        closingFields framing close upgrade ++ crlf

/-- Whether this request is gRPC, which needs an HTTP/2 upstream. -/
def isGrpc (head : Head) (buf : Bytes) : Bool :=
  match head.header buf (ascii "content-type") with
  | some v => (ascii "application/grpc").isPrefixOf v
  | none => false

end Ramjet.Engine.Headers
