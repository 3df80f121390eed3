/- digest: The header rewriting of the hyper engine, over the header map of its library. -/

import Ramjet.Engine.Route
import Ramjet.Proxy.HeaderMap

set_option autoImplicit false
set_option relaxedAutoImplicit false

namespace Ramjet.Proxy.Headers

open Ramjet.Base.Octets
open Ramjet.Base.Net
open Ramjet.Engine.Headers (HexId)
open Ramjet.Engine.Route (cookiePairs)
open Ramjet.Proxy.HeaderMap

def CONNECTION : Bytes := ascii "connection"
def UPGRADE : Bytes := ascii "upgrade"
def HOST : Bytes := ascii "host"
def COOKIE : Bytes := ascii "cookie"
def CONTENT_TYPE : Bytes := ascii "content-type"
def X_FORWARDED_FOR : Bytes := ascii "x-forwarded-for"
def X_FORWARDED_PROTO : Bytes := ascii "x-forwarded-proto"
def X_FORWARDED_HOST : Bytes := ascii "x-forwarded-host"
def X_REAL_IP : Bytes := ascii "x-real-ip"
def X_REQUEST_ID : Bytes := ascii "x-request-id"

/-- Headers that describe one connection and must not cross a hop. -/
def HOP_BY_HOP : List Bytes :=
  [ascii "keep-alive", ascii "proxy-connection", ascii "proxy-authenticate",
    ascii "proxy-authorization", ascii "te", ascii "trailer", ascii "transfer-encoding", UPGRADE]

def isAsciiWhitespace (b : UInt8) : Bool := b == 32 || b == 9 || b == 10 || b == 12 || b == 13

def trimAscii (value : Bytes) : Bytes :=
  (value.dropWhile isAsciiWhitespace).rdropWhile isAsciiWhitespace

variable {M : Type} (lib : HeaderMapLib M)

/-- Removes the header one item of a `Connection` value names. -/
def removeToken (headers : M) (token : Bytes) : M :=
  let token := trimAscii token
  if token.isEmpty then headers
  else
    match lib.nameOf token with
    | some name => (lib.remove headers name).2
    | none => headers

/-- Removes every hop-by-hop header, including the ones `Connection` names. -/
def stripHopByHop (headers : M) : M :=
  let (connection, headers) := lib.remove headers CONNECTION
  let headers :=
    match connection with
    | some value => (value.splitOn 44).foldl (removeToken lib) headers
    | none => headers
  HOP_BY_HOP.foldl (fun headers name => (lib.remove headers name).2) headers

/-- The protocol an upgrade request or a `101` is asking for. -/
def upgradeProtocol (headers : M) : Option Bytes :=
  let requested := (lib.getAll headers CONNECTION).any fun value =>
    (value.splitOn 44).any fun token => eqIgnoreAsciiCase (trimAscii token) UPGRADE
  if requested then lib.get headers UPGRADE else none

/-- Puts back the two headers an upgrade needs, after a strip removed them. -/
def restoreUpgrade (headers : M) (protocol : Bytes) : M :=
  lib.insert (lib.insert headers CONNECTION UPGRADE) UPGRADE protocol

/-- Every trail so far in one; absent where there was none. -/
def joinTrail (values : List Bytes) : Option Bytes :=
  values.foldl (fun trail existing =>
    let buffer := trail.getD []
    some ((if buffer.isEmpty then buffer else buffer ++ ascii ", ") ++ existing)) none

/-- Adds the forwarding headers for this hop. -/
def applyForwarded (headers : M) (client : IpAddr) (scheme : Bytes) (authority : Option Bytes) :
    M :=
  let ip := client.display
  let headers :=
    match joinTrail (lib.getAll headers X_FORWARDED_FOR) with
    | some buffer => lib.insertIfValue headers X_FORWARDED_FOR (buffer ++ ascii ", " ++ ip)
    | none => lib.insertIfValue headers X_FORWARDED_FOR ip
  let headers := lib.insertIfValue headers X_REAL_IP ip
  let headers := lib.insert headers X_FORWARDED_PROTO scheme
  match authority with
  | some authority => lib.insert headers X_FORWARDED_HOST authority
  | none => headers

/-- The request's id, and the headers with one in them. -/
def ensureRequestId (headers : M) (hex : HexId) : Bytes × M :=
  match (lib.get headers X_REQUEST_ID).filter (! ·.isEmpty) with
  | some existing => (existing, headers)
  | none =>
      let value := if lib.isValue hex.bytes then hex.bytes else ascii "0"
      (value, lib.insert headers X_REQUEST_ID value)

def cookieLines (name : Bytes) : List Bytes → Option Bytes
  | [] => none
  | value :: rest =>
      if isVisible value then
        match cookiePairs name (value.splitOn 59) with
        | some found => some found
        | none => cookieLines name rest
      else cookieLines name rest

/-- The value of the cookie called `name`, if the request carries it. -/
def cookieValue (headers : M) (name : Bytes) : Option Bytes :=
  cookieLines name (lib.getAll headers COOKIE)

end Ramjet.Proxy.Headers
