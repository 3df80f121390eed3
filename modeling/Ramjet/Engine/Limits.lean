/- digest: What this engine answers by itself, and everything it refuses. -/

import Ramjet.Base.Octets

set_option autoImplicit false
set_option relaxedAutoImplicit false

namespace Ramjet.Engine.Limits

open Ramjet.Base.Octets

/-- The response encoder: it owns the framing, and answers nothing for what it refuses. -/
structure Encoder where
  reason : Nat → Bytes
  response : Nat → List (Bytes × Bytes) → Bytes → Option Bytes
  responseHeadOnly : Nat → List (Bytes × Bytes) → Nat → Option Bytes

def NO_ROUTE : Bytes := ascii "404 Not Found: no ingress rule matches this host and path\n"

def NO_ENDPOINT : Bytes :=
  ascii "503 Service Unavailable: the backend has no ready endpoints\n"

def CONNECT_FAILED : Bytes :=
  ascii "502 Bad Gateway: could not connect to any upstream endpoint\n"

def UPSTREAM_FAILED : Bytes := ascii "502 Bad Gateway: the upstream connection failed\n"

def TIMEOUT : Bytes :=
  ascii "504 Gateway Timeout: the upstream sent no response headers in time\n"

def GRPC : Bytes :=
  ascii "502 Bad Gateway: gRPC requires an HTTP/2 backend; " ++
    ascii "set nginx.ingress.kubernetes.io/backend-protocol: GRPC on the Ingress\n"

def NO_H2C_UPSTREAM : Bytes :=
  ascii "502 Bad Gateway: this backend needs an HTTP/2 upstream, " ++
    ascii "which the uring engine does not dial; use --engine hyper\n"

def UPGRADE_FAILED : Bytes :=
  ascii "502 Bad Gateway: the upstream refused to complete the upgrade\n"

def NO_HTTP2 : Bytes :=
  ascii "502 Bad Gateway: the uring engine speaks HTTP/1.1 only; use --engine hyper\n"

def UNSUPPORTED_HEADER : Bytes := ascii "x-ramjet-unsupported"

def UNSUPPORTED_H2C_UPSTREAM : Bytes := ascii "h2c-upstream"

def UNSUPPORTED_GRPC : Bytes := ascii "grpc-needs-backend-protocol"

section

variable (enc : Encoder)

/-- The body of an answer to a request that could not be read. -/
def badRequestBody (status : Nat) (detail : String) : Bytes :=
  decimal status ++ [32] ++ enc.reason status ++ ascii ": " ++ ascii detail ++ [10]

def staticHeaders (close : Bool) (unsupported : Option Bytes) : List (Bytes × Bytes) :=
  (ascii "Content-Type", ascii "text/plain; charset=utf-8") ::
    ((if close then [(ascii "Connection", ascii "close")] else []) ++
      unsupported.toList.map fun feature => (UNSUPPORTED_HEADER, feature))

/-- What is sent where the encoder refuses: a client is never left without an answer. -/
def BARE_500 : Bytes :=
  ascii "HTTP/1.1 500 Internal Server Error\r\nContent-Length: 0\r\n\r\n"

def writeStaticUnsupported (status : Nat) (body : Bytes) (close : Bool)
    (unsupported : Option Bytes) : Bytes :=
  (enc.response status (staticHeaders close unsupported) body).getD BARE_500

def writeStaticHeadOnlyUnsupported (status bodyLen : Nat) (close : Bool)
    (unsupported : Option Bytes) : Bytes :=
  (enc.responseHeadOnly status (staticHeaders close unsupported) bodyLen).getD BARE_500

def writeStatic (status : Nat) (body : Bytes) (close : Bool) : Bytes :=
  writeStaticUnsupported enc status body close none

end

end Ramjet.Engine.Limits
