/- digest: From the bytes of a client to a dispatched request, and the loop that moves both
directions on. -/

import Ramjet.Engine.Worker.Serving

set_option autoImplicit false
set_option relaxedAutoImplicit false

namespace Ramjet.Engine.Worker.Requests

open Ramjet.Base.Octets
open Ramjet.Base.Net
open Ramjet.Engine.Codec.MessageHead
open Ramjet.Engine.Codec.BodyFraming
open Ramjet.Engine.Headers
open Ramjet.Engine.IdlePool
open Ramjet.Engine.Limits
open Ramjet.Engine.Route
open Ramjet.Engine.Tls
open Ramjet.Engine.Worker.Accounting
open Ramjet.Engine.Worker.Connection
open Ramjet.Engine.Worker.Core
open Ramjet.Engine.Worker.Serving
open Ramjet.Router.Balancing

variable (env : Outside) (ans : Answers)

section Routing

def PREFACE : Bytes := ascii "PRI * HTTP/2.0\r\n\r\nSM\r\n\r\n"

/-- Whether these bytes are the start of the HTTP/2 connection preface, or start with it. -/
def isH2Preface (bytes : Bytes) : Bool :=
  let seen := min bytes.length PREFACE.length
  0 < seen && bytes.take seen == PREFACE.take seen

/-- What the head of a request says about it, before it is routed. -/
def Conn.described (conn : Conn) (framing : Framing) : Conn :=
  { conn with
    requestBody := Body.new framing
    clientKeepAlive := keepAlive conn.head conn.inbox conn.head.version && !conn.clientEof
    methodWasHead :=
      (conn.head.method conn.inbox).any fun m => eqIgnoreAsciiCase m (ascii "HEAD")
    upgrade := upgradeProtocol conn.head conn.inbox
    book := conn.book.framed framing }

/-- The addresses a request may be tried against, in order. -/
def targetsOf (backend : Backend) (first allowed : Nat) : List SocketAddr :=
  (List.range allowed).filterMap fun attempt =>
    (endpointAt backend first attempt).map (·.addr)

/-- The rewritten head of a routed request, and what trying its endpoints takes. -/
def Conn.aimed (conn : Conn) (matched : Matched) (framing : Framing) (first : Nat)
    (targets : List SocketAddr) (target : SocketAddr) : Conn :=
  { conn with
    targets := targets
    statsIndex := matched.backend.statsIndex
    endpointIndex := first
    endpointCount := matched.backend.endpoints.length
    replayable := framing == .empty
    attempt := 0
    requestHead := writeUpstreamRequest conn.head conn.inbox ⟨conn.peer, conn.scheme⟩ target
      framing false conn.upgrade ans.requestId }

/-- A routed request with somewhere to go: rewritten, mirrored and taken out of the inbox. -/
def dispatched (w : World) (conn : Conn) (snapshot : Snapshot) (matched : Matched)
    (framing : Framing) (first : Nat) (targets : List SocketAddr) (target : SocketAddr) :
    World × Conn :=
  let planned :=
    planMirror ans w (Conn.aimed ans conn matched framing first targets target) snapshot
      matched.mirror framing
  let mirrored :=
    if planned.2.requestBody.isDone then sendMirror planned.1 planned.2 else planned
  let conn := mirrored.2.dropHead
  (mirrored.1,
    { conn with
      snapshot := some snapshot, phase := .exchanging, upOutbox := conn.requestHead })

/-- What a request matched, and the counters its answer will be recorded in. -/
def Conn.routed (conn : Conn) (snapshot : Snapshot) (matched : Matched) : Conn :=
  let rule := matched.route.bind fun i =>
    (snapshot.routeSlots[i]?).map fun handle => (handle, matched.canaried)
  { conn with
    routeStats := matched.route, canaried := matched.canaried, book := conn.book.matched rule }

/-- Route a parsed request and start the upstream exchange. -/
def routeRequest (w : World) (fd : Fd) : World × List Task :=
  match w.slots fd with
  | .client conn =>
      let conn := { conn with book := conn.book.begin (conn.inbox.take conn.head.len) }
      match requestFraming conn.head conn.inbox with
      | .error e =>
          (fail env ans (w.setClient fd conn) fd e.status
            (badRequestBody env.enc e.status e.detail) true, [])
      | .ok framing =>
          let conn := Conn.described conn framing
          let snapshot := w.routes
          match conn.head.start with
          | .status _ _ _ => (fail env ans (w.setClient fd conn) fd 400 NO_ROUTE true, [])
          | .request _ target _ =>
              let host := (routingHost conn.head conn.inbox).getD []
              let path := (routingPath target conn.inbox).getD (ascii "/")
              match matchRequest env.rx snapshot.table host path conn.head conn.inbox
                  ans.mirrorWord ans.canaryWord with
              | none => (fail env ans (w.setClient fd conn) fd 404 NO_ROUTE false, [])
              | some matched =>
                  let conn := Conn.routed conn snapshot matched
                  let refused := (w.remember (.refused conn)).setClient fd conn
                  if matched.backend.protocol = .h2c then
                    (failUnsupported env ans refused fd 502 NO_H2C_UPSTREAM false
                      (some UNSUPPORTED_H2C_UPSTREAM), [])
                  else if isGrpc conn.head conn.inbox then
                    (failUnsupported env ans refused fd 502 GRPC false (some UNSUPPORTED_GRPC), [])
                  else
                    match selectEndpoint matched.backend
                        (reading ans w snapshot matched.backend ans.cursor) ans.pick with
                    | none => (fail env ans refused fd 503 NO_ENDPOINT false, [])
                    | some (first, _) =>
                        let allowed := attempts framing matched.backend.endpoints.length
                          w.config.maxConnectAttempts
                        match targetsOf matched.backend first allowed with
                        | [] => (fail env ans refused fd 503 NO_ENDPOINT false, [])
                        | target :: others =>
                            let sent := dispatched ans w conn snapshot matched framing first
                              (target :: others) target
                            openUpstream env ans (sent.1.setClient fd sent.2) fd
  | _ => (w.setSlot fd .empty, [])

/-- Try to read one complete request head out of the inbox. -/
def parseRequest (w : World) (fd : Fd) : World × List Task :=
  match w.slots fd with
  | .client conn =>
      if isH2Preface conn.inbox then
        if w.config.dispatch then handOff (w.setClient fd { conn with handOff := true }) fd
        else (fail env ans w fd 502 NO_HTTP2 true, [])
      else
        let parsed := parseRequestHead .standard conn.inbox conn.head
        let conn := { conn with head := parsed.2 }
        match parsed.1 with
        | .ok false =>
            -- A half-sent request whose client is gone will never be complete.
            (w.setClient fd (if conn.clientEof then { conn with phase := .closing } else conn), [])
        | .error e =>
            (fail env ans (w.setClient fd conn) fd e.status
              (badRequestBody env.enc e.status e.detail) true, [])
        | .ok true => routeRequest env ans (w.setClient fd conn) fd
  | _ => (w.setSlot fd .empty, [])

end Routing

section Moving

def ENDED_EARLY : Bytes := ascii "400 Bad Request: the request body ended early\n"

/-- Request-body bytes on their way upstream, or the refusal of a body that breaks its framing;
whether anything moved comes back with the connection. -/
def pumpRequestBody (w : World) (conn : Conn) : Except CodecError (World × Conn × Bool) :=
  if !conn.requestBody.isDone && !conn.inbox.isEmpty then
    match conn.requestBody.take conn.inbox with
    | .error e => .error e
    | .ok (n, done, body) =>
        let bytes := conn.inbox.take n
        let conn := mirrorBody w.config { conn with upOutbox := conn.upOutbox ++ bytes } bytes
        let conn :=
          { conn with
            inbox := conn.inbox.drop n, requestBody := if done then .done else body
            book := conn.book.takeBody bytes }
        let sent := if done then sendMirror w conn else (w, conn)
        .ok (sent.1, sent.2, decide (0 < n))
  else .ok (w, conn, false)

/-- Move body bytes in both directions as far as the buffers allow. -/
def pumpBodies (w : World) (fd : Fd) : World × List Task × Bool :=
  match w.slots fd with
  | .client conn =>
      match pumpRequestBody w conn with
      | .error e =>
          (fail env ans (w.remember (.rejected conn)) fd e.status
            (badRequestBody env.enc e.status e.detail) true, [], false)
      | .ok (pumped, conn, progressed) =>
          if !conn.requestBody.isDone && conn.clientEof && conn.inbox.isEmpty then
            (fail env ans ((pumped.remember (.rejected conn)).setClient fd conn) fd 400
              ENDED_EARLY true, [], false)
          else
            let answered := parseResponse env ans (pumped.setClient fd conn) fd
            (answered.1, answered.2.1, answered.2.2 || progressed)
  | _ => (w.setSlot fd .empty, [], false)

/-- Move a connection as far forward as its buffers allow, then submit what that leaves. -/
def advance (w : World) (fd : Fd) : World × List Task :=
  match w.slots fd with
  | .client conn =>
      match conn.phase with
      | .head =>
          let parsed := parseRequest env ans w fd
          (parsed.1, parsed.2 ++ [.drive fd])
      | .exchanging | .relaying =>
          let pumped := pumpBodies env ans w fd
          (pumped.1, pumped.2.1 ++ [if pumped.2.2 then .advance fd else .drive fd])
      | .tunnel =>
          let pumped := pumpTunnel ans w fd
          (pumped.1, [if pumped.2 then .advance fd else .drive fd])
      | .connecting | .closing => (w, [.drive fd])
  | _ => (w, [])

end Moving

end Ramjet.Engine.Worker.Requests
