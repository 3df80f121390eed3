/- digest: What a core does with each completion, with each note of the helper and with a drain. -/

import Ramjet.Engine.Worker.Requests

set_option autoImplicit false
set_option relaxedAutoImplicit false

namespace Ramjet.Engine.Worker.Handlers

open Ramjet.Base.Octets
open Ramjet.Base.AssocMap
open Ramjet.Engine.Codec.MessageHead
open Ramjet.Engine.Headers
open Ramjet.Engine.IdlePool
open Ramjet.Engine.Limits
open Ramjet.Engine.Tls
open Ramjet.Engine.Worker.Accounting
open Ramjet.Engine.Worker.Connection
open Ramjet.Engine.Worker.Core
open Ramjet.Engine.Worker.Serving
open Ramjet.Engine.Worker.Requests

variable (env : Outside) (ans : Answers)

section Arming

/-- An operation the core cannot go on without: where it is refused, the core stops. -/
def arm (w : World) (k : Kind) (fd : Fd) : World :=
  if ans.submits k fd then w.submit k fd [] else { w with broken := true }

def armNotify (w : World) : World := arm ans w .notify w.notify

def armIntake (w : World) (fd : Fd) (tls : Bool) : World :=
  arm ans w (if tls then .intakeTls else .intake) fd

end Arming

section Clients

/-- A connection at its beginning: on the clock of its PROXY header, where one is required. -/
def newClient (w : World) (tls : Bool) : Conn :=
  let conn := Conn.new ans.peer (if tls then some {} else none)
  let conn := { conn with book := { conn.book with heardAt := w.clock } }
  match w.config.proxyProtocol with
  | none => { conn with deadline := some (w.clock + CLIENT_IDLE) }
  | some timeout => { conn with preface := some [], deadline := some (w.clock + timeout) }

/-- A client's connection begins: its slot, its clock and its first read. -/
def startClient (w : World) (fd : Fd) (tls : Bool) : World × List Task :=
  if !ans.nonblocking then ((w.opening fd).sysClose fd, [])
  else
    drive ans (((w.opening fd).bumpGeneration fd).setClient fd (newClient ans w tls)) fd

/-- What is left of a session once nothing more will come of it. -/
def killed (conn : Conn) : Conn := { conn with tls := conn.tls.map Session.kill }

/-- A handshake that has just completed is counted, once. -/
def established (conn : Conn) : Conn :=
  { conn with tls := conn.tls.map fun session => session.takeEstablished.2 }

/-- Plaintext reaches the inbox. -/
def gather (conn : Conn) (plain : Bytes) : Conn :=
  { conn with
    inbox := conn.inbox ++ plain
    book := { conn.book with plain := conn.book.plain ++ plain }.hurry
      (conn.phase == Phase.closing && !plain.isEmpty) }

/-- The hello is read: another engine takes the connection, or this one answers it. -/
def greet (config : Config) (conn : Conn) (session : Session) (offer : Offer) : Conn :=
  if offer == .http2 && config.dispatch then { conn with tls := some session, handOff := true }
  else if !config.tls then { conn with tls := some session.kill, phase := .closing }
  else
    let accepted := session.accept ans.rustls
    let conn := gather { conn with tls := some accepted.2.2 } accepted.2.1
    match accepted.1 with
    | .error _ => { conn with phase := .closing }
    | .ok _ => established conn

/-- Bytes behind a PROXY header, through the record layer where there is one. -/
def unwrap (config : Config) (conn : Conn) (bytes : Bytes) : Conn :=
  let conn := { conn with book := { conn.book with raw := conn.book.raw ++ bytes } }
  match conn.tls with
  | none => gather conn bytes
  | some session =>
      let fed := session.feed ans.rustls bytes
      let conn := gather conn fed.2.1
      match fed.1 with
      | .error _ => { conn with tls := some fed.2.2.kill, phase := .closing }
      | .ok (.hello offer) => greet ans config conn fed.2.2 offer
      | .ok _ => established { conn with tls := some fed.2.2 }

/-- Bytes off the client's socket: the PROXY header first, where one is required. -/
def ingest (w : World) (conn : Conn) (bytes : Bytes) : Conn :=
  match conn.preface with
  | none => unwrap ans w.config conn bytes
  | some seen =>
      let preface := seen ++ bytes
      match env.proxyHeader preface with
      | .incomplete => { conn with preface := some preface }
      | .refused =>
          { conn with preface := some preface, outbox := [], phase := .closing, clientEof := true }
      | .done consumed client =>
          unwrap ans w.config
            { conn with
              peer := client.getD conn.peer, preface := none
              deadline := some (w.clock + CLIENT_IDLE) }
            (preface.drop consumed)

/-- What the outcome of a read makes of the client's side of a connection. -/
def readClient (w : World) (conn : Conn) : Outcome → Conn
  | .read [] =>
      let conn := { conn with clientEof := true }
      if conn.tls.all Session.established then conn else killed conn
  | .read bytes =>
      let conn := ingest env ans w { conn with book := conn.book.hearClient w.clock } bytes
      if conn.preface.isNone then
        { conn with
          deadline := some (w.clock + CLIENT_IDLE), book := conn.book.wind w.clock CLIENT_IDLE }
      else conn
  | _ =>
      { conn with
        clientEof := true, outbox := [], phase := .closing
        tls := conn.tls.map fun session => { session with wireOut := [] }.kill
        book := conn.book.tear }

def onClientRead (w : World) (fd : Fd) (outcome : Outcome) : World × List Task :=
  match w.slots fd with
  | .client conn =>
      (w.setClient fd (readClient env ans w { conn with reading := false } outcome),
        [.advance fd])
  | _ => (w.setSlot fd .empty, [])

/-- What the outcome of a write makes of it. -/
def wroteClient (conn : Conn) : Outcome → Conn
  | .wrote => { conn with writing := false }
  | _ => { conn with writing := false, outbox := [], phase := .closing, book := conn.book.tear }

def onClientWrite (w : World) (fd : Fd) (outcome : Outcome) : World × List Task :=
  match w.slots fd with
  | .client conn => (w.setClient fd (wroteClient conn outcome), [.advance fd])
  | _ => (w.setSlot fd .empty, [])

end Clients

section Upstreams

/-- A response framed by the end of its connection is complete: what is left is all body. -/
def closed (conn : Conn) : Conn :=
  { conn with
    outbox := conn.outbox ++ conn.upInbox, upInbox := [], responseBody := .done
    upstreamKeepAlive := false, book := conn.book.queue conn.upInbox }

/-- The upstream hung up: a tunnel's half-close, the end of a response framed by it, or a
failure. -/
def onUpstreamEof (w : World) (down : Fd) : World × List Task :=
  match w.slots down with
  | .client conn =>
      if conn.phase == .tunnel then
        (w.setClient down { conn with upstreamEof := true, upReading := false }, [.advance down])
      else if conn.responseHeadSeen && conn.responseBody == .untilClose then
        (finishResponse ans (w.setClient down (closed conn)) down, [.advance down])
      else upstreamFailed env ans w down
  | _ => (w.setSlot down .empty, [])

/-- Bytes from the upstream of a connection, and the holds they were sent in. -/
def hear (conn : Conn) (bytes : Bytes) (stamps : List Nat) : Conn :=
  let lease := { conn.book.lease with stamps := conn.book.lease.stamps ++ stamps }
  { conn with
    upReading := false
    upInbox := conn.upInbox ++ bytes
    book := ({ conn.book with lease := lease }.receive bytes).onTry fun t =>
      { t with heard := t.heard ++ bytes } }

def onUpstreamRead (w : World) (up : Fd) (outcome : Outcome) (stamps : List Nat) :
    World × List Task :=
  match w.slots up with
  | .idle addr => ({ w with pool := (w.pool.remove addr up).2 }.close ans up, [])
  | .upstream down =>
      match w.slots down with
      | .client conn =>
          let w := w.setClient down (hear conn outcome.bytes stamps)
          match outcome with
          | .read [] => onUpstreamEof env ans w down
          | .read _ => (w, [.advance down])
          | _ => upstreamFailed env ans w down
      | _ => (w.setSlot down .empty, [])
  | _ => (w, [])

/-- A write to the upstream went through. -/
def delivered (conn : Conn) (payload : Bytes) : Conn :=
  let lease := { conn.book.lease with written := conn.book.lease.written ++ payload }
  { conn with upWriting := false, upReady := true, book := { conn.book with lease := lease } }

def onUpstreamWrite (w : World) (up : Fd) (payload : Bytes) (outcome : Outcome) :
    World × List Task :=
  match w.slots up with
  | .upstream down =>
      match w.slots down with
      | .client conn =>
          match outcome with
          | .wrote => (w.setClient down (delivered conn payload), [.advance down])
          | _ => upstreamFailed env ans (w.setClient down { conn with upWriting := false }) down
      | _ => (w.setSlot down .empty, [])
  | _ => (w, [])

/-- An upstream is connected, and its descriptor back from the helper. -/
def connected (conn : Conn) : Conn :=
  { conn with
    upBorrowed := false, upReady := true, phase := .exchanging
    book := conn.book.onTry fun t => { t with established := true } }

/-- The helper says how a connect ended, and gives the descriptor back. -/
def onConnected (w : World) (up : Fd) (ok : Bool) : World × List Task :=
  let w := { w with borrowed := w.borrowed.erase up }
  match w.slots up with
  | .upstream down =>
      match w.slots down with
      | .client conn =>
          if ok then (w.setClient down (connected conn), [.advance down])
          else
            retryOrFail env ans
              (((w.setSlot up .empty).sysClose up).setClient down
                { conn with upBorrowed := false, upstream := none }) down
      | _ => (((w.setSlot down .empty).setSlot up .empty).sysClose up, [])
  | _ => ((w.setSlot up .empty).sysClose up, [])

end Upstreams

section Clock

def allFds (w : World) : List Fd :=
  (List.range w.highWater).filterMap fun i => if h : i < 2147483648 then some ⟨i, h⟩ else none

/-- A tick: the end of a drain, the pool's clock, then every connection's. -/
def onTick (w : World) : World × List Task :=
  let now := w.clock
  if w.drainDeadline.any fun deadline => 0 < w.drainInflight && deadline ≤ now then
    ({ w with drainExpired := true }, [])
  else
    let expired := w.pool.expire now
    let w := World.closeAll ans { w with pool := expired.2 } expired.1
    (w, [.sweep (allFds w) now])

/-- One connection of a sweep: timed out, idle for too long, or given more time. -/
def sweepClient (w : World) (fd : Fd) (now : Nat) : World × List Task :=
  match w.slots fd with
  | .client conn =>
      if conn.deadline.any fun deadline => deadline ≤ now then
        match conn.phase with
        | .exchanging | .connecting => drive ans (fail env ans w fd 504 TIMEOUT true) fd
        | .head => (w.close ans fd, [])
        | .relaying | .closing | .tunnel =>
            (w.setClient fd
              { conn with
                deadline := some (now + w.config.responseTimeout)
                book := conn.book.wind now w.config.responseTimeout }, [])
      else (w, [])
  | _ => (w, [])

end Clock

section Admin

def driveAdmin (w : World) (fd : Fd) : World :=
  match w.slots fd with
  | .admin conn =>
      if !conn.writing && !conn.outbox.isEmpty then
        if ans.submits .adminWrite fd then
          (w.submit .adminWrite fd conn.outbox).setSlot fd
            (.admin { conn with outbox := [], writing := true })
        else w.setSlot fd (.admin { conn with outbox := [] })
      else if !conn.reading && !conn.writing && conn.outbox.isEmpty
          && ans.submits .adminRead fd then
        (w.submit .adminRead fd []).setSlot fd (.admin { conn with reading := true })
      else w
  | _ => w.setSlot fd .empty

def startAdmin (w : World) (fd : Fd) : World :=
  if !ans.nonblocking then (w.opening fd).sysClose fd
  else driveAdmin ans (((w.opening fd).bumpGeneration fd).setSlot fd (.admin {})) fd

def onAdminRead (w : World) (fd : Fd) (outcome : Outcome) : World :=
  match w.slots fd with
  | .admin conn =>
      let inbox := conn.inbox ++ outcome.bytes
      -- The connection is out of its slot here, so a drain does not count it off.
      if outcome.bytes.isEmpty then (w.setSlot fd .empty).close ans fd
      else
        let parsed := parseRequestHead .standard inbox conn.head
        let conn := { conn with reading := false, inbox := inbox, head := parsed.2 }
        let conn :=
          match parsed.1 with
          | .ok false => conn
          | .error _ =>
              { conn with
                outbox := conn.outbox ++ writeStatic env.enc 400 (ascii "bad request\n") true }
          | .ok true => { conn with outbox := conn.outbox ++ env.adminResponse conn }
        driveAdmin ans (w.setSlot fd (.admin conn)) fd
  | _ => w.setSlot fd .empty

def onAdminWrite (w : World) (fd : Fd) (outcome : Outcome) : World :=
  match w.slots fd with
  | .admin conn =>
      if conn.outbox.isEmpty || outcome != .wrote then w.close ans fd
      else driveAdmin ans (w.setSlot fd (.admin { conn with writing := false })) fd
  | _ => w.setSlot fd .empty

end Admin

section Intakes

/-- A connection taken off a listener: served, or closed where a drain has begun. -/
def onAccept (w : World) (listener : Fd) (outcome : Outcome) (k : Kind) : World × List Task :=
  match outcome with
  | .accepted fd =>
      if w.drainDeadline.isSome then ((w.opening fd).sysClose fd, [])
      else
        let w := arm ans w k listener
        if w.broken then (w, [])
        else if k == .adminAccept then (startAdmin ans w fd, [])
        else startClient ans w fd (k == .acceptTls)
  -- Only an error about the connection, not about the listener, is followed by another accept.
  | .failed true => (if w.drainDeadline.isSome then w else arm ans w k listener, [])
  | _ => (w, [])

/-- The descriptors in a channel's bytes, four bytes each, and what is left over. -/
def numbers : Bytes → List Fd × Bytes
  | a :: b :: c :: d :: rest =>
      let others := numbers rest
      let n := a.toNat + b.toNat * 2 ^ 8 + c.toNat * 2 ^ 16 + d.toNat * 2 ^ 24
      (if h : n < 2147483648 then ⟨n, h⟩ :: others.1 else others.1, others.2)
  | rest => ([], rest)

/-- Descriptors dealt out by the acceptor thread. -/
def onIntake (w : World) (channel : Fd) (outcome : Outcome) (tls : Bool) : World × List Task :=
  match outcome with
  | .read (byte :: bytes) =>
      let dealt :=
        match get w.intakePartial channel with
        | none => ([], w)
        | some seen =>
            let split := numbers (seen ++ byte :: bytes)
            (split.1, { w with intakePartial := insert w.intakePartial channel split.2 })
      if w.drainDeadline.isSome then
        (dealt.1.foldl (fun w fd => (w.opening fd).sysClose fd) dealt.2, [])
      else (dealt.2, [.deal channel tls dealt.1])
  | _ => ({ w with shutdown := true }, [])

/-- The next descriptor of a deal, or the channel's next read. -/
def deal (w : World) (channel : Fd) (tls : Bool) : List Fd → World × List Task
  | [] => (armIntake ans w channel tls, [])
  | fd :: rest =>
      let started := startClient ans w fd tls
      (started.1, started.2 ++ [.deal channel tls rest])

def onNotify (w : World) (outcome : Outcome) : World × List Task :=
  match outcome with
  | .read (_ :: _) => (w, [.notes])
  | _ => (w, [])

/-- The next of the helper's notes, or the next read of them. -/
def notes (w : World) : World × List Task :=
  match ans.note with
  | none => (armNotify ans w, [])
  | some .tick =>
      let ticked := onTick ans w
      (ticked.1, ticked.2 ++ [.notes])
  | some (.connected up ok) =>
      let connected := onConnected env ans w up ok
      (connected.1, connected.2 ++ [.notes])

end Intakes

section Dispatch

def Kind.accepts : Kind → Bool
  | .accept | .acceptTls | .adminAccept => true
  | _ => false

/-- Whether a completion is for a connection that has since left its descriptor. -/
def stale (w : World) (op : Op) : Bool :=
  tagKind op.user != some .close && tagGeneration op.user != w.generations (tagFd op.user)

/-- A completion that arrives too late is dropped; a connection it carries is closed. -/
def dropStale (w : World) (op : Op) (outcome : Outcome) : World :=
  match (tagKind op.user).any Kind.accepts, outcome with
  | true, .accepted fd => (w.opening fd).sysClose fd
  | _, _ => w

/-- A completion handed to whom its tag names. -/
def deliver (w : World) (op : Op) (outcome : Outcome) (stamps : List Nat) : World × List Task :=
  let fd := tagFd op.user
  match tagKind op.user with
  | some .accept => onAccept ans w fd outcome .accept
  | some .acceptTls => onAccept ans w fd outcome .acceptTls
  | some .adminAccept => onAccept ans w fd outcome .adminAccept
  | some .intake => onIntake w fd outcome false
  | some .intakeTls => onIntake w fd outcome true
  | some .notify => onNotify w outcome
  | some .downRead => onClientRead env ans w fd outcome
  | some .downWrite => onClientWrite w fd outcome
  | some .upRead => onUpstreamRead env ans w fd outcome stamps
  | some .upWrite => onUpstreamWrite env ans w fd op.payload outcome
  | some .adminRead => (onAdminRead env ans w fd outcome, [])
  | some .adminWrite => (onAdminWrite ans w fd outcome, [])
  | some .close | none => (w, [])

/-- History: the holds in which the bytes a read returns were sent. -/
def stampsOf (w : World) (op : Op) : Outcome → List Nat
  | .read bytes => ((w.unread op.fd).take bytes.length).map (·.1)
  | _ => []

def dispatch (w : World) (op : Op) (outcome : Outcome) : World × List Task :=
  let w' := w.retire op outcome
  if stale w' op then (dropStale w' op outcome, [])
  else deliver env ans w' op outcome (stampsOf w op outcome)

end Dispatch

section Draining

/-- A connection a drain waits for: it ends with its exchange, or with what it still has to
write. -/
def spared (conn : Conn) : Conn :=
  { conn with
    clientKeepAlive := false, drainCounted := true
    phase := if conn.phase == Phase.head then Phase.closing else conn.phase }

/-- What one client connection does with a drain: end with its exchange, or at once. -/
def drainClient (w : World) (fd : Fd) (conn : Conn) : World :=
  let serving := conn.phase == .connecting || conn.phase == .exchanging || conn.phase == .relaying
    || conn.writing || conn.hasPendingOut
  if serving && conn.phase != .tunnel then
    { w with drainInflight := w.drainInflight + 1 }.setClient fd (spared conn)
  else w.close ans fd

def drainAdmin (w : World) (fd : Fd) (conn : AdminConn) : World :=
  if conn.writing || !conn.outbox.isEmpty then
    { w with drainInflight := w.drainInflight + 1 }.setSlot fd
      (.admin { conn with drainCounted := true })
  else w.close ans fd

def drainSlot (w : World) (fd : Fd) : World :=
  match w.slots fd with
  | .client conn => drainClient ans w fd conn
  | .admin conn => drainAdmin ans w fd conn
  | _ => w

/-- Stop accepting: the listeners close first, then the idle upstreams, then every connection
that serves nobody. -/
def beginDrain (w : World) : World :=
  let w := { w with drainDeadline := some (w.clock + w.config.shutdownGrace) }
  let w := World.closeAll ans { w with intakes := [] } (w.intakes.map (·.fd))
  let w := { w with intakePartial := [] }
  let w := World.closeAll ans { w with admin := none } w.admin.toList
  let idle := w.pool.drain
  let w := World.closeAll ans { w with pool := idle.2 } idle.1
  (allFds w).foldl (drainSlot ans) w

end Draining

end Ramjet.Engine.Worker.Handlers
