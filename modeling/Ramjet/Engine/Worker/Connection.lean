/- digest: One client connection with the upstream exchange it runs, and what is kept of it. -/

import Ramjet.Engine.Codec.Chunked
import Ramjet.Engine.Limits
import Ramjet.Engine.IdlePool
import Ramjet.Engine.Route
import Ramjet.Engine.Tls
import Ramjet.Router.Stats

set_option autoImplicit false
set_option relaxedAutoImplicit false

namespace Ramjet.Engine.Worker.Connection

open Ramjet.Base.Octets
open Ramjet.Base.Net
open Ramjet.Engine.Codec.MessageHead
open Ramjet.Engine.Codec.BodyFraming
open Ramjet.Engine.Codec.Chunked
open Ramjet.Engine.Headers
open Ramjet.Engine.IdlePool
open Ramjet.Engine.Tls
open Ramjet.Router.Balancing
open Ramjet.Router.Table

/-- How much may be queued for one peer before the other is no longer read. -/
def MAX_PENDING : Nat := 256 * 1024

/-- How long a client may hold an idle keep-alive connection, in microseconds like every time. -/
def CLIENT_IDLE : Nat := 300000000

/-- How much of a body is still to come, whatever frames it. -/
inductive Body where
  | done
  | length (left : Nat)
  | chunked (scan : ChunkScan)
  | untilClose
  deriving DecidableEq, Repr

def Body.new : Framing → Body
  | .empty => .done
  | .length n => .length n
  | .chunked => .chunked {}
  | .untilClose => .untilClose

/-- How many leading bytes belong to the body, whether it ends in them, and what is left. -/
def Body.take (body : Body) (input : Bytes) : Except CodecError (Nat × Bool × Body) :=
  match body with
  | .done => .ok (0, true, .done)
  | .length left =>
      let take := min left input.length
      .ok (take, left - take == 0, .length (left - take))
  | .chunked scan =>
      match scan.scan input with
      | .error e => .error e
      | .ok (n, scan) => .ok (n, scan.isDone, .chunked scan)
  | .untilClose => .ok (input.length, false, .untilClose)

def Body.isDone (body : Body) : Bool := body == .done

/-- Where a client connection is in its exchange. -/
inductive Phase where
  | head
  | connecting
  | exchanging
  | relaying
  | tunnel
  | closing
  deriving DecidableEq, Repr

/-- A published table with the counter blocks its indices lead to, which outlive it. -/
structure Snapshot where
  table : RouteTable
  routeSlots : List Nat
  backendSlots : List (List Nat)
  indexed : ∀ e ∈ Ramjet.Router.Stats.routes table, e.2.statsIndex < routeSlots.length

/-- A sampled copy of a request: what its head is made from, and its body so far. -/
structure MirrorCopy where
  head : Bytes
  endpoint : SocketAddr
  host : Option Bytes
  body : Bytes
  protocol : BackendProtocol
  tooLarge : Bool
  deriving DecidableEq

section History

/-- One relayed response: the head queued, the bytes received behind the upstream's own head,
and everything queued to the client since. -/
structure Relay where
  head : Bytes
  received : Bytes
  since : Bytes
  intruded : Bool := false
  deriving DecidableEq, Repr

/-- One connection tried for a request: to which of the backend's endpoints, whether the pool had
it, whether it was ever established, the request bytes submitted on it and the bytes it answered
with. -/
structure Try where
  endpoint : Nat
  pooled : Bool
  established : Bool
  sent : Bytes := []
  heard : Bytes := []
  deriving DecidableEq, Repr

/-- One request as the outside saw it: the bytes taken for it, the connections tried for it and
the answers queued to it. -/
structure Exchange where
  head : Bytes
  framing : Framing := .empty
  body : Bytes := []
  rule : Option (Nat × Bool) := none
  tried : List Try := []
  statuses : List Nat := []
  relay : Option Relay := none
  deriving DecidableEq, Repr

/-- One hold of an upstream connection: which hold of that connection it is, what has been
submitted and written on it, and the holds during which the bytes read on it were sent. -/
structure Lease where
  turn : Nat := 0
  sent : Bytes := []
  written : Bytes := []
  stamps : List Nat := []
  deriving DecidableEq, Repr

/-- History of a connection. No branch of the code reads it. What was queued to the client and is
queued no more was `given` away: to the record layer where there is one, else to a write. A
connection is `torn` once an operation on its own socket has failed, and `severed` once its
upstream has failed it with a response begun; its tunnel was `hasty` where it ended with bytes for
the upstream still to be written. The last three fields are about its clock: when it was accepted
or last read from, whether nothing has been read since its last response ended, and when and for
how long it was wound since its upstream was taken or dialled. -/
structure Book where
  raw : Bytes := []
  plain : Bytes := []
  taken : Bytes := []
  given : Bytes := []
  submitted : Bytes := []
  torn : Bool := false
  severed : Bool := false
  hasty : Bool := false
  current : Option Exchange := none
  past : List Exchange := []
  lease : Lease := {}
  heardAt : Nat := 0
  answered : Bool := false
  wound : Option (Nat × Nat) := none
  deriving DecidableEq, Repr

/-- Every request of the connection so far. -/
def Book.exchanges (b : Book) : List Exchange := b.past ++ b.current.toList

/-- Bytes were queued to the client. -/
def Book.queue (b : Book) (bytes : Bytes) : Book :=
  { b with current := b.current.map fun e =>
      { e with relay := e.relay.map fun r => { r with since := r.since ++ bytes } } }

/-- A response the proxy invents was queued to the client. -/
def Book.invent (b : Book) (status : Nat) (bytes : Bytes) : Book :=
  { b with current := b.current.map fun e =>
      { e with
        statuses := e.statuses ++ [status]
        relay := e.relay.map fun r => { r with since := r.since ++ bytes, intruded := true } } }

/-- The head of a relayed response was queued, `received` being what follows the original. -/
def Book.relay (b : Book) (status : Nat) (head received : Bytes) : Book :=
  { b with current := b.current.map fun e =>
      { e with statuses := e.statuses ++ [status], relay := some ⟨head, received, head, false⟩ } }

/-- More bytes of the response being relayed arrived. -/
def Book.receive (b : Book) (bytes : Bytes) : Book :=
  { b with current := b.current.map fun e =>
      { e with relay := e.relay.map fun r => { r with received := r.received ++ bytes } } }

/-- Bytes left the inbox as part of the current request's body. -/
def Book.takeBody (b : Book) (bytes : Bytes) : Book :=
  { b with
    taken := b.taken ++ bytes
    current := b.current.map fun e => { e with body := e.body ++ bytes } }

/-- A request head was parsed. -/
def Book.begin (b : Book) (head : Bytes) : Book := { b with current := some { head := head } }

/-- How the body of the current request is framed. -/
def Book.framed (b : Book) (framing : Framing) : Book :=
  { b with current := b.current.map fun e => { e with framing := framing } }

/-- The counter block of the rule the current request matched, and whether the canary took it. -/
def Book.matched (b : Book) (rule : Option (Nat × Bool)) : Book :=
  { b with current := b.current.map fun e => { e with rule := rule } }

/-- A connection is tried for the current request. -/
def Book.attempt (b : Book) (t : Try) : Book :=
  { b with
    wound := none
    current := b.current.map fun e => { e with tried := e.tried ++ [t] } }

/-- Something happened on the connection tried last. -/
def Book.onTry (b : Book) (change : Try → Try) : Book :=
  { b with
    current := b.current.map fun e =>
      { e with tried := e.tried.dropLast ++ (e.tried.getLast?.map change).toList } }

/-- The clock of the connection is wound for a span of time. -/
def Book.wind (b : Book) (now span : Nat) : Book := { b with wound := some (now, span) }

/-- Bytes were read off the client's socket. -/
def Book.hearClient (b : Book) (now : Nat) : Book :=
  { b with heardAt := now, answered := false }

/-- An operation on the client's socket failed. -/
def Book.tear (b : Book) : Book := { b with torn := true }

/-- The upstream failed a response that had begun. -/
def Book.sever (b : Book) : Book := { b with severed := true }

/-- A tunnel is over, with or without bytes that its upstream has yet to be sent. -/
def Book.hurry (b : Book) (left : Bool) : Book := { b with hasty := b.hasty || left }

/-- The current request is over. -/
def Book.close (b : Book) : Book :=
  { b with current := none, past := b.exchanges, answered := true }

end History

/-- One client connection and the upstream exchange it is running. -/
structure Conn where
  peer : IpAddr
  phase : Phase := .head
  tls : Option Session := none
  scheme : Scheme := .http
  handOff : Bool := false
  preface : Option Bytes := none
  inbox : Bytes := []
  outbox : Bytes := []
  reading : Bool := false
  writing : Bool := false
  clientEof : Bool := false
  head : Head := {}
  headConsumed : Bool := false
  requestHead : Bytes := []
  requestBody : Body := .done
  methodWasHead : Bool := false
  clientKeepAlive : Bool := true
  upstream : Option Fd := none
  upInbox : Bytes := []
  upOutbox : Bytes := []
  upReading : Bool := false
  upWriting : Bool := false
  upReady : Bool := false
  upBorrowed : Bool := false
  upHead : Head := {}
  responseBody : Body := .done
  responseHeadSeen : Bool := false
  upstreamKeepAlive : Bool := true
  upstreamEof : Bool := false
  upgrade : Option Bytes := none
  snapshot : Option Snapshot := none
  routeStats : Option Nat := none
  canaried : Bool := false
  mirror : Option MirrorCopy := none
  statsIndex : Nat := 0
  endpointIndex : Nat := 0
  endpointCount : Nat := 0
  inflightHeld : Bool := false
  targets : List SocketAddr := []
  attempt : Nat := 0
  replayable : Bool := false
  fromPool : Bool := false
  poolRetryUsed : Bool := false
  committed : Bool := false
  dispatchedAt : Option Nat := none
  deadline : Option Nat := none
  counted : Bool := false
  drainCounted : Bool := false
  book : Book := {}

def Conn.new (peer : IpAddr) (tls : Option Session) : Conn :=
  { peer := peer, tls := tls, scheme := if tls.isSome then .https else .http }

/-- Ready a connection for its next request, keeping the bytes that already arrived. -/
def Conn.reset (c : Conn) : Conn :=
  { c with
    phase := .head
    head := c.head.reset
    headConsumed := false
    upHead := c.upHead.reset
    requestHead := []
    requestBody := .done
    responseBody := .done
    responseHeadSeen := false
    upstreamKeepAlive := true
    upstreamEof := false
    upgrade := none
    methodWasHead := false
    snapshot := none
    routeStats := none
    canaried := false
    mirror := none
    targets := []
    attempt := 0
    replayable := false
    fromPool := false
    poolRetryUsed := false
    committed := false
    dispatchedAt := none
    deadline := none
    counted := false
    upInbox := []
    upOutbox := []
    book := c.book.close }

/-- Let go of the upstream side, whatever became of the connection. -/
def Conn.cutOff (c : Conn) : Conn :=
  { c with upstream := none, upReading := false, upWriting := false, upReady := false }

/-- Take the parsed head out of the inbox. -/
def Conn.dropHead (c : Conn) : Conn :=
  { c with
    inbox := c.inbox.drop c.head.len
    headConsumed := true
    book := { c.book with taken := c.book.taken ++ c.inbox.take c.head.len } }

/-- Queue a response this proxy invents. -/
def Conn.invent (c : Conn) (status : Nat) (out : Bytes) : Conn :=
  { c with outbox := c.outbox ++ out, book := c.book.invent status out }

/-- Whether anything is waiting to go to the client: ciphertext, where there is a session. -/
def Conn.hasPendingOut (c : Conn) : Bool :=
  match c.tls with
  | some session => session.hasWire
  | none => !c.outbox.isEmpty

/-- How much is queued for the client. -/
def Conn.pendingOutLen (c : Conn) : Nat :=
  match c.tls with
  | some session => c.outbox.length + session.wireOut.length
  | none => c.outbox.length

/-- Whether more bytes from the client would be useful right now. -/
def Conn.wantsClientBytes (c : Conn) : Bool :=
  !c.clientEof &&
    match c.phase with
    | .head => true
    | .connecting | .exchanging => !c.requestBody.isDone && c.upOutbox.length < MAX_PENDING
    | .tunnel => c.upOutbox.length < MAX_PENDING
    | .relaying | .closing => false

/-- Whether more bytes from the upstream would be useful right now. -/
def Conn.wantsUpstreamBytes (c : Conn) : Bool :=
  c.upstream.isSome && c.upReady && !(c.phase == .head || c.phase == .closing) &&
    !c.upstreamEof && c.pendingOutLen < MAX_PENDING

/-- Encrypt what is queued for the client, as far as the session takes it. -/
def Conn.sealed (r : Rustls) (c : Conn) : Conn :=
  match c.tls with
  | none => c
  | some session =>
      if c.outbox.isEmpty then c
      else
        let taken := session.sealPlain r c.outbox
        { c with
          tls := some taken.2, outbox := c.outbox.drop taken.1
          book := { c.book with given := c.book.given ++ c.outbox.take taken.1 } }

/-- What the next write to the client carries. -/
def Conn.wire (c : Conn) : Bytes :=
  match c.tls with
  | some session => session.wireOut
  | none => c.outbox

/-- History: what was queued, and goes to the socket as it is. -/
def Conn.given (c : Conn) : Bytes :=
  match c.tls with
  | some _ => []
  | none => c.outbox

/-- The connection once its next write has been taken out of it. -/
def Conn.unloaded (c : Conn) : Conn :=
  match c.tls with
  | some session => { c with tls := some { session with wireOut := [] } }
  | none => { c with outbox := [] }

/-- The connection once its exchange is over: ready for the next request, or ending. -/
def Conn.ended (c : Conn) : Conn :=
  let next := c.cutOff.reset
  if c.clientKeepAlive then next else { next with phase := .closing }

/-- Which endpoint of its backend the current attempt is against. -/
def Conn.endpoint (c : Conn) : Nat := (c.endpointIndex + c.attempt) % max c.endpointCount 1

/-- Whether only a pooled connection was lost, which says nothing about its endpoint. -/
def Conn.pooledRace (c : Conn) : Bool :=
  c.fromPool && !c.poolRetryUsed && !c.committed && c.replayable

/-- The connection ready to be tried again; the head is sent from the copy kept for it. -/
def Conn.requeued (c : Conn) : Conn :=
  let next :=
    if c.pooledRace then { c with fromPool := false, poolRetryUsed := true }
    else { c with attempt := c.attempt + 1 }
  { next with
    upOutbox := c.requestHead, upInbox := []
    upReading := false, upWriting := false, upReady := false
    responseHeadSeen := false, upHead := c.upHead.reset, phase := .exchanging }

/-- An admin connection: one request, one answer, closed. -/
structure AdminConn where
  inbox : Bytes := []
  outbox : Bytes := []
  head : Head := {}
  reading : Bool := false
  writing : Bool := false
  drainCounted : Bool := false

/-- What a descriptor is being used for. A connection is not moved out while it is driven. -/
inductive Slot where
  | empty
  | client (conn : Conn)
  | upstream (down : Fd)
  | idle (addr : SocketAddr)
  | abandoned
  | admin (conn : AdminConn)

def Slot.drainCounted : Slot → Bool
  | .client conn => conn.drainCounted
  | .admin conn => conn.drainCounted
  | _ => false

/-- The connection a slot leaves to the archive when it is emptied. -/
def Slot.leaves : Slot → List Conn
  | .client conn => [conn]
  | _ => []

end Ramjet.Engine.Worker.Connection
