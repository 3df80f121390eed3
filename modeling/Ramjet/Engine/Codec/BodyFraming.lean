/- digest: How the body after a head is delimited, and whether a connection outlives a message. -/

import Ramjet.Engine.Codec.MessageHead

set_option autoImplicit false
set_option relaxedAutoImplicit false

namespace Ramjet.Engine.Codec.BodyFraming

open Ramjet.Base.Octets
open Ramjet.Engine.Codec.MessageHead

/-- How the body after a head is delimited. -/
inductive Framing where
  | empty
  | length (n : Nat)
  | chunked
  | untilClose
  deriving DecidableEq, Repr

def Framing.allowsReuse : Framing → Bool
  | .untilClose => false
  | _ => true

/-- The nonempty tokens of a comma-separated value. -/
def tokens (value : Bytes) : List Bytes :=
  ((value.splitOn 44).map trimOws).filter fun t => !t.isEmpty

/-- Whether the values of `Transfer-Encoding` say chunked; anything else is refused. -/
def chunkedValues : List Bytes → Bool → Except CodecError Bool
  | [], seen => .ok seen
  | value :: rest, _ =>
      match tokens value with
      | [] => .error (.malformed "empty Transfer-Encoding")
      | only :: more =>
          if !more.isEmpty || !eqIgnoreAsciiCase only (ascii "chunked") then
            .error (.unsupported "a transfer coding other than chunked")
          else chunkedValues rest true

def transferEncodingIsChunked (head : Head) (buf : Bytes) : Except CodecError Bool :=
  chunkedValues ((head.headersNamed buf (ascii "transfer-encoding")).map (·.2)) false

def U64_MAX : Nat := 18446744073709551615

/-- Strict decimal digits, refused past 64 bits. -/
def parseDigits (value : Bytes) : Except CodecError Nat :=
  if value.isEmpty || !value.all isAsciiDigit then
    .error (.malformed "Content-Length is not a number")
  else
    value.foldlM (fun (n : Nat) b =>
      let n := n * 10 + (b - 48).toNat
      if n ≤ U64_MAX then .ok n else .error (.malformed "Content-Length overflows")) 0

/-- The declared length of a list of `Content-Length` parts, which must agree. -/
def lengthParts : List Bytes → Option Nat → Except CodecError (Option Nat)
  | [], found => .ok found
  | part :: rest, found =>
      match parseDigits part with
      | .error e => .error e
      | .ok n =>
          if found.any fun prev => prev != n then
            .error (.malformed "conflicting Content-Length values")
          else lengthParts rest (some n)

def lengthValues (values : List Bytes) : Except CodecError (Option Nat) :=
  lengthParts (values.flatMap fun value => (value.splitOn 44).map trimOws) none

def contentLength (head : Head) (buf : Bytes) : Except CodecError (Option Nat) :=
  lengthValues ((head.headersNamed buf (ascii "content-length")).map (·.2))

/-- The framing of a request body: both framings at once are refused. -/
def requestFraming (head : Head) (buf : Bytes) : Except CodecError Framing := do
  let chunked ← transferEncodingIsChunked head buf
  let length ← contentLength head buf
  match chunked, length with
  | true, some _ => .error (.malformed "both Transfer-Encoding and Content-Length")
  | true, none => return .chunked
  | false, some 0 => return .empty
  | false, none => return .empty
  | false, some n => return .length n

/-- Whether a response of this status carries no body however it is framed. -/
def bodyless (status : Nat) (methodWasHead : Bool) : Bool :=
  methodWasHead || status < 200 || status == 204 || status == 304

/-- The framing of a response body, which the status and the request method decide too. -/
def responseFraming (head : Head) (buf : Bytes) (methodWasHead : Bool) :
    Except CodecError Framing :=
  match head.start with
  | .request _ _ _ => .error (.malformed "expected a response, got a request")
  | .status status _ _ =>
      if bodyless status methodWasHead then .ok .empty
      else do
        let chunked ← transferEncodingIsChunked head buf
        let length ← contentLength head buf
        match chunked, length with
        | true, some _ => .error (.malformed "both Transfer-Encoding and Content-Length")
        | true, none => return .chunked
        | false, some 0 => return .empty
        | false, some n => return .length n
        | false, none => return .untilClose

/-- Whether a comma-separated value holds a token, case-insensitively. -/
def hasToken (value token : Bytes) : Bool :=
  (value.splitOn 44).any fun part => eqIgnoreAsciiCase (trimOws part) token

/-- Whether the connection stays open after this message. -/
def keepAlive (head : Head) (buf : Bytes) (version : Version) : Bool :=
  let values := (head.headersNamed buf (ascii "connection")).map (·.2)
  if values.any fun v => hasToken v (ascii "close") then false
  else
    match version with
    | .http11 => true
    | .http10 => values.any fun v => hasToken v (ascii "keep-alive")

end Ramjet.Engine.Codec.BodyFraming
