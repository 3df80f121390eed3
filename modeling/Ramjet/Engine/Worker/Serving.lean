/- digest: The state machine of a client connection: request, upstream, response and the ways
out of them. -/

import Ramjet.Engine.Worker.Accounting

set_option autoImplicit false
set_option relaxedAutoImplicit false

namespace Ramjet.Engine.Worker.Serving

open Ramjet.Base.Octets
open Ramjet.Base.Net
open Ramjet.Engine.Codec.MessageHead
open Ramjet.Engine.Codec.BodyFraming
open Ramjet.Engine.Headers
open Ramjet.Engine.IdlePool
open Ramjet.Engine.Limits
open Ramjet.Engine.Route
open Ramjet.Engine.Tls
open Ramjet.Engine.Worker.Accounting
open Ramjet.Engine.Worker.Connection
open Ramjet.Engine.Worker.Core
open Ramjet.Router.Balancing

variable (env : Outside) (ans : Answers)

section Endings

/-- The upstream of an exchange that is over: closed, or only marked where the helper still holds
its descriptor. -/
def letGo (w : World) (conn : Conn) : World :=
  match conn.upstream with
  | none => w
  | some up => if conn.upBorrowed then w.setSlot up .abandoned else w.close ans up

/-- The answer to a refused request: counted, queued, and the end of the request or of the
connection. -/
def refuse (w : World) (conn : Conn) (status : Nat) (out : Bytes) (close : Bool) : World × Conn :=
  let conn := if !close && !conn.headConsumed then conn.dropHead else conn
  let counted := recordResponse (answer w conn status) conn status
  let conn := counted.2.invent status out
  (counted.1, if close then { conn with phase := .closing } else conn.reset)

/-- Queue a response this proxy invents, and optionally end the connection. -/
def failUnsupported (w : World) (fd : Fd) (status : Nat) (body : Bytes) (close : Bool)
    (unsupported : Option Bytes) : World :=
  match w.slots fd with
  | .client conn =>
      let released := releaseInflight w conn
      let w := letGo ans released.1 released.2
      let conn := released.2.cutOff
      let close := close || !conn.clientKeepAlive || !conn.requestBody.isDone
      let out :=
        if conn.methodWasHead then
          writeStaticHeadOnlyUnsupported env.enc status body.length close unsupported
        else writeStaticUnsupported env.enc status body close unsupported
      let refused := refuse w conn status out close
      refused.1.setClient fd refused.2
  | _ => w.setSlot fd .empty

def fail (w : World) (fd : Fd) (status : Nat) (body : Bytes) (close : Bool) : World :=
  failUnsupported env ans w fd status body close none

/-- The upstream of a finished exchange: back to the pool on a clean boundary, else closed. -/
def releaseUpstream (w : World) (conn : Conn) (up : Fd) : World :=
  let clean := conn.upInbox.isEmpty && !conn.upWriting
  match conn.upstreamKeepAlive && clean, conn.targets[conn.attempt]? with
  | true, some addr =>
      let offered := w.pool.put addr up w.clock
      let w := { w.setSlot up (.idle addr) with pool := offered.2 }
      match offered.1 with
      | none =>
          let w := w.remember (.pooled up conn)
          if conn.upReading then w
          else if ans.submits .upRead up then w.submit .upRead up []
          else { w with pool := (w.pool.remove addr up).2 }.close ans up
      | some refused => w.close ans refused
  | _, _ => w.close ans up

/-- The response is complete: release the upstream and ready the connection for what is next. -/
def finishResponse (w : World) (fd : Fd) : World :=
  match w.slots fd with
  | .client conn =>
      let released := releaseInflight (w.remember (.finished conn)) conn
      let w :=
        match conn.upstream with
        | none => released.1
        | some up => releaseUpstream ans released.1 released.2 up
      w.setClient fd released.2.ended
  | _ => w.setSlot fd .empty

/-- Give a connection to the other engine, descriptor and all. -/
def handOff (w : World) (fd : Fd) : World × List Task :=
  match w.slots fd with
  | .client conn =>
      if !w.config.dispatch then
        (w.setClient fd { conn with phase := .closing }, [.drive fd])
      else
        let replayed :=
          match conn.tls with
          | some session => session.intoReplay
          | none => conn.inbox
        let inFlight := (w.current fd).map (·.kind)
        ((w.remember (.handedOff conn replayed inFlight)).vacate fd, [])
  | _ => (w.setSlot fd .empty, [])

end Endings

section Submission

/-- Encrypt and submit what is queued for the client. -/
def flushDown (w : World) (fd : Fd) : World :=
  match w.slots fd with
  | .client conn =>
      let conn := conn.sealed ans.rustls
      if !conn.writing && conn.hasPendingOut then
        if ans.submits .downWrite fd then
          (w.submit .downWrite fd conn.wire).setClient fd
            { conn.unloaded with
              writing := true
              book := { conn.book with
                given := conn.book.given ++ conn.given
                submitted := conn.book.submitted ++ conn.wire } }
        else w.setClient fd { conn.unloaded with phase := .closing, book := conn.book.tear }
      else w.setClient fd conn
  | _ => w

/-- Submit what is queued for the upstream. -/
def flushUp (w : World) (fd : Fd) : World :=
  match w.slots fd with
  | .client conn =>
      match conn.upstream with
      | none => w
      | some up =>
          if conn.upReady && !conn.upWriting && !conn.upOutbox.isEmpty then
            let buf := conn.upOutbox
            let lease := { conn.book.lease with sent := conn.book.lease.sent ++ buf }
            let book := { conn.book with lease := lease }.onTry fun t =>
              { t with sent := t.sent ++ buf }
            if ans.submits .upWrite up then
              (w.submit .upWrite up buf).setClient fd
                { conn with upOutbox := [], upWriting := true, book := book }
            else
              w.setClient fd
                { conn with upOutbox := [], phase := .closing, book := conn.book.sever }
          else w
  | _ => w

def readUp (w : World) (fd : Fd) : World :=
  match w.slots fd with
  | .client conn =>
      match conn.upstream with
      | none => w
      | some up =>
          if !conn.upReading && conn.wantsUpstreamBytes && ans.submits .upRead up then
            (w.submit .upRead up []).setClient fd { conn with upReading := true }
          else w
  | _ => w

def readDown (w : World) (fd : Fd) : World :=
  match w.slots fd with
  | .client conn =>
      if !conn.reading && conn.wantsClientBytes && ans.submits .downRead fd then
        (w.submit .downRead fd []).setClient fd { conn with reading := true }
      else w
  | _ => w

/-- Close a connection with nothing left to do, its upstream first. -/
def settle (w : World) (fd : Fd) : World :=
  match w.slots fd with
  | .client conn =>
      if conn.phase == .closing && !conn.writing && !conn.hasPendingOut then
        ((letGo ans w conn).setClient fd conn.cutOff).close ans fd
      else w
  | _ => w

/-- Submit every operation a connection has become ready for. -/
def drive (w : World) (fd : Fd) : World × List Task :=
  match w.slots fd with
  | .client conn =>
      if conn.handOff then handOff w fd
      else
        let w := flushUp ans (flushDown ans w fd) fd
        (settle ans (readDown ans (readUp ans w fd) fd) fd, [])
  | _ => (w.setSlot fd .empty, [])

end Submission

section Upstreams

/-- Every endpoint has been tried. -/
def exhausted (w : World) (fd : Fd) : World × List Task :=
  drive ans (fail env ans w fd 502 CONNECT_FAILED false) fd

/-- History: one more hold of an upstream connection begins. -/
def lease (w : World) (up : Fd) : World :=
  { w with
    turns := Function.update w.turns up (w.turns up + 1)
    moments := w.moments ++ [.leased up (w.unread up).isEmpty] }

/-- Take or open a connection to the current attempt's endpoint. -/
def openUpstream (w : World) (fd : Fd) : World × List Task :=
  match w.slots fd with
  | .client conn =>
      match conn.targets[conn.attempt]? with
      | none => exhausted env ans w fd
      | some addr =>
          let conn :=
            { conn with
              dispatchedAt := some w.clock
              deadline := some (w.clock + w.config.responseTimeout) }
          let held := holdInflight w conn
          let conn := held.2
          let taken := held.1.pool.take addr
          let w := { held.1 with pool := taken.2 }
          match taken.1 with
          | some up =>
              let w := lease w up
              let conn :=
                { conn with
                  upstream := some up, upReading := true, upReady := true, fromPool := true
                  phase := .exchanging
                  book := { conn.book with lease := { turn := w.turns up } }.attempt
                    ⟨conn.endpoint, true, true, [], []⟩ }
              ((w.setSlot up (.upstream fd)).setClient fd conn, [.advance fd])
          | none =>
              match ans.connect with
              | none =>
                  (w.setClient fd
                    { conn with book := conn.book.attempt ⟨conn.endpoint, false, false, [], []⟩ },
                    [.retryOrFail fd])
              | some (up, connected) =>
                  let w := lease (w.opening up) up
                  let conn :=
                    { conn with
                      upstream := some up, upReading := false, upReady := connected
                      fromPool := false
                      book := { conn.book with lease := { turn := w.turns up } }.attempt
                        ⟨conn.endpoint, false, connected, [], []⟩ }
                  let w := w.setSlot up (.upstream fd)
                  if connected then
                    (w.setClient fd { conn with phase := .exchanging }, [.advance fd])
                  else if ans.watch then
                    ({ w with borrowed := up :: w.borrowed }.setClient fd
                      { conn with upBorrowed := true, phase := .connecting }, [])
                  else
                    (((w.setSlot up .empty).sysClose up).setClient fd
                      { conn with upstream := none }, [.retryOrFail fd])
  | _ => (w.setSlot fd .empty, [])

/-- Try the next endpoint, or the same one once more where only a pooled connection was lost. -/
def retryOrFail (w : World) (fd : Fd) : World × List Task :=
  match w.slots fd with
  | .client conn =>
      let released := releaseInflight w conn
      let conn := released.2
      if !conn.pooledRace && (conn.committed || conn.targets.length ≤ conn.attempt + 1) then
        exhausted env ans (released.1.setClient fd conn) fd
      else openUpstream env ans (released.1.setClient fd conn.requeued) fd
  | _ => (w.setSlot fd .empty, [])

/-- The upstream of a failed exchange is closed. -/
def lose (w : World) (conn : Conn) : World :=
  match conn.upstream with
  | none => w
  | some up => w.close ans up

/-- An upstream failed: the truncated response is ended, or the request tried elsewhere. -/
def upstreamFailed (w : World) (fd : Fd) : World × List Task :=
  match w.slots fd with
  | .client conn =>
      let w := w.remember (.failed conn)
      if conn.responseHeadSeen then
        drive ans
          ((lose ans w conn).setClient fd
            { conn with upstream := none, phase := .closing, book := conn.book.sever }) fd
      else
        retryOrFail env ans ((lose ans w conn).setClient fd { conn with upstream := none }) fd
  | _ => (w.setSlot fd .empty, [])

/-- An upstream said something that is not HTTP. -/
def upstreamGarbage (w : World) (fd : Fd) : World × List Task :=
  match w.slots fd with
  | .client conn =>
      if conn.responseHeadSeen then upstreamFailed env ans w fd
      else
        -- Another endpoint of the same backend would say the same.
        let w := (lose ans w conn).setClient fd { conn with upstream := none, committed := true }
        drive ans (fail env ans w fd 502 UPSTREAM_FAILED true) fd
  | _ => (w, [])

end Upstreams

section Responses

/-- The upgrade is answered: the 101 is queued, and both sides' bytes are tunnel traffic. -/
def tunnelled (w : World) (conn : Conn) (asked : Bytes) : World × Conn :=
  let protocol := (upgradeProtocol conn.upHead conn.upInbox).getD asked
  let out := writeDownstreamResponse env.enc.reason conn.upHead conn.upInbox .empty false
    (some protocol)
  let carried := conn.upInbox.drop conn.upHead.len
  let w := recordUpstreamLatency w conn
  let counted := recordResponse (answer w conn 101) conn 101
  (counted.1,
    { counted.2 with
      -- What either side sent behind the handshake is already tunnel traffic.
      outbox := conn.outbox ++ out ++ carried, upInbox := []
      upOutbox := conn.upOutbox ++ conn.inbox, inbox := []
      responseHeadSeen := true, committed := true, phase := .tunnel
      deadline := none, upstreamKeepAlive := false, dispatchedAt := none
      book := ({ conn.book with taken := conn.book.taken ++ conn.inbox }.relay 101 out
        carried).queue carried })

/-- The upstream accepted an upgrade: relay the 101 and stop speaking HTTP. -/
def beginTunnel (w : World) (fd : Fd) : World × List Task :=
  match w.slots fd with
  | .client conn =>
      match conn.upgrade with
      | none => drive ans (fail env ans w fd 502 UPGRADE_FAILED true) fd
      | some asked =>
          let begun := tunnelled env w conn asked
          (begun.1.setClient fd begun.2, [])
  | _ => (w.setSlot fd .empty, [])

/-- The bytes of both sides of a tunnel handed over, and a half-close passed on where there is one
to pass; TLS has none. -/
def shuttled (conn : Conn) : Conn :=
  let conn :=
    { conn with
      upOutbox := conn.upOutbox ++ conn.inbox, inbox := []
      outbox := conn.outbox ++ conn.upInbox, upInbox := []
      book := { conn.book with taken := conn.book.taken ++ conn.inbox }.queue conn.upInbox }
  if conn.upstreamEof && conn.outbox.isEmpty && !conn.writing then
    let book := conn.book.hurry (!conn.upOutbox.isEmpty || conn.upWriting)
    match conn.tls with
    | some session =>
        { conn with
          tls := some (session.sendCloseNotify ans.rustls), phase := .closing, book := book }
    | none => if conn.clientEof then { conn with phase := .closing, book := book } else conn
  else conn

/-- Move bytes both ways through an established tunnel, and say whether anything moved. -/
def pumpTunnel (w : World) (fd : Fd) : World × Bool :=
  match w.slots fd with
  | .client conn =>
      (w.setClient fd (shuttled ans conn), !conn.inbox.isEmpty || !conn.upInbox.isEmpty)
  | _ => (w.setSlot fd .empty, false)

/-- The response head, once it is complete: framed, rewritten, queued and counted. -/
def relayHead (w : World) (conn : Conn) (framing : Framing) : World × Conn :=
  let w := recordUpstreamLatency (w.remember (.relayed conn)) conn
  let keepAlive :=
    keepAlive conn.upHead conn.upInbox conn.upHead.version && framing.allowsReuse
  let status := conn.upHead.status.getD 502
  let clientKeepAlive := conn.clientKeepAlive && framing != .untilClose
  let out := writeDownstreamResponse env.enc.reason conn.upHead conn.upInbox framing
    (!clientKeepAlive) none
  let rest := conn.upInbox.drop conn.upHead.len
  let counted := recordResponse (answer w conn status) conn status
  (counted.1,
    { counted.2 with
      dispatchedAt := none, upstreamKeepAlive := keepAlive, clientKeepAlive := clientKeepAlive
      outbox := conn.outbox ++ out, upInbox := rest
      responseBody := Body.new framing, responseHeadSeen := true, phase := .relaying
      committed := true, deadline := some (w.clock + w.config.responseTimeout)
      book := conn.book.relay status out rest })

/-- The first `n` bytes of the upstream's inbox, queued as body. -/
def relayed (conn : Conn) (n : Nat) (done : Bool) (body : Body) : Conn :=
  { conn with
    outbox := conn.outbox ++ conn.upInbox.take n, upInbox := conn.upInbox.drop n
    responseBody := if done then .done else body
    book := conn.book.queue (conn.upInbox.take n) }

/-- Relay body bytes verbatim, and finish the exchange where they complete the response. -/
def relayBody (w : World) (fd : Fd) (conn : Conn) : World × List Task × Bool :=
  if !conn.responseBody.isDone && !conn.upInbox.isEmpty then
    match conn.responseBody.take conn.upInbox with
    | .error _ =>
        -- The head is already sent, so there is no status left to send.
        let failed := upstreamGarbage env ans (w.setClient fd conn) fd
        (failed.1, failed.2, false)
    | .ok (n, done, body) =>
        let conn := relayed conn n done body
        if conn.responseBody.isDone then
          (finishResponse ans (w.setClient fd conn) fd, [], true)
        else (w.setClient fd conn, [], decide (0 < n))
  else if conn.responseBody.isDone then
    (finishResponse ans (w.setClient fd conn) fd, [], true)
  else (w.setClient fd conn, [], false)

/-- Read the response head if it has not been seen, then relay body bytes. -/
def parseResponse (w : World) (fd : Fd) : World × List Task × Bool :=
  match w.slots fd with
  | .client conn =>
      if conn.upInbox.isEmpty then (w, [], false)
      else if conn.responseHeadSeen then relayBody env ans w fd conn
      else
        let parsed := parseResponseHead .standard conn.upInbox conn.upHead
        let conn := { conn with upHead := parsed.2 }
        match parsed.1 with
        | .ok false => (w.setClient fd conn, [], false)
        | .error _ =>
            let failed := upstreamGarbage env ans (w.setClient fd conn) fd
            (failed.1, failed.2, false)
        | .ok true =>
            if isSwitchingProtocols conn.upHead then
              let begun := beginTunnel env ans (w.setClient fd conn) fd
              (begun.1, begun.2, true)
            else
              match responseFraming conn.upHead conn.upInbox conn.methodWasHead with
              | .error _ =>
                  let failed := upstreamGarbage env ans (w.setClient fd conn) fd
                  (failed.1, failed.2, false)
              | .ok framing =>
                  let relayed := relayHead env w conn framing
                  relayBody env ans relayed.1 fd relayed.2
  | _ => (w.setSlot fd .empty, [], false)

end Responses

end Ramjet.Engine.Worker.Serving
