/- digest: What a request leaves in the counters and in the mirror lane. -/

import Ramjet.Engine.Worker.Core

set_option autoImplicit false
set_option relaxedAutoImplicit false

namespace Ramjet.Engine.Worker.Accounting

open Ramjet.Base.Octets
open Ramjet.Base.Net
open Ramjet.Engine.Codec.BodyFraming
open Ramjet.Engine.Worker.Connection
open Ramjet.Engine.Worker.Core
open Ramjet.Router.Balancing
open Ramjet.Router.Rule
open Ramjet.Router.Stats

variable (ans : Answers)

section Counters

/-- One shard of a list of them written to; the remainder is taken against the shard count. -/
def writeShard (core : Nat) (write : RouteTotals → RouteTotals) (shards : List RouteTotals) :
    List RouteTotals :=
  shards.modify (core % ROUTE_STAT_SHARDS) write

/-- The blocks of a route written to: its own, and the canary's where the canary took it. -/
def writeSlot (core : Nat) (canaried : Bool) (write : RouteTotals → RouteTotals)
    (slot : RouteSlot) : RouteSlot :=
  { shards := writeShard core write slot.shards
    canaryShards :=
      if canaried then writeShard core write slot.canaryShards else slot.canaryShards }

/-- The counter block the connection's request belongs to, as its held table leads to it. -/
def countedIn (conn : Conn) : Option Nat := do
  let index ← conn.routeStats
  let table ← conn.snapshot
  table.routeSlots[index]?

def writeRoute (w : World) (conn : Conn) (write : RouteTotals → RouteTotals) : World :=
  match countedIn conn with
  | none => w
  | some handle =>
      { w with
        routeSlots := Function.update w.routeSlots handle
          (writeSlot w.config.core conn.canaried write (w.routeSlots handle)) }

/-- Count a response against the route's own series, once a request. -/
def recordResponse (w : World) (conn : Conn) (status : Nat) : World × Conn :=
  if conn.counted then (w, conn)
  else
    let conn := { conn with counted := true }
    (writeRoute w conn fun totals => totals.recordResponse status, conn)

/-- Observe an upstream's response-header latency, where the request was dispatched. -/
def recordUpstreamLatency (w : World) (conn : Conn) : World :=
  match conn.dispatchedAt with
  | none => w
  | some started =>
      writeRoute w conn fun totals => totals.recordUpstreamLatency (w.clock - started)

/-- History: the first status queued for a request is its answer. -/
def answer (w : World) (conn : Conn) (status : Nat) : World :=
  if conn.book.current.all fun e => e.statuses.isEmpty then
    { w with ledger := w.ledger ++ [⟨conn.book.current.bind (·.rule), status⟩] }
  else w

end Counters

section Inflight

def U32_SIZE : Nat := 4294967296

/-- The counter of the endpoint the current attempt is against. -/
def heldCounter (conn : Conn) : Option Nat := do
  let table ← conn.snapshot
  let slot ← table.backendSlots[conn.statsIndex]?
  slot[conn.endpoint]?

/-- Count this request against its endpoint. -/
def holdInflight (w : World) (conn : Conn) : World × Conn :=
  if conn.inflightHeld then (w, conn)
  else
    match heldCounter conn with
    | none => (w, conn)
    | some handle =>
        ({ w with
            inflight := Function.update w.inflight handle ((w.inflight handle + 1) % U32_SIZE) },
          { conn with inflightHeld := true })

def releaseInflight (w : World) (conn : Conn) : World × Conn :=
  if conn.inflightHeld then
    let conn := { conn with inflightHeld := false }
    match heldCounter conn with
    | none => (w, conn)
    | some handle =>
        ({ w with
            inflight := Function.update w.inflight handle
              ((w.inflight handle + (U32_SIZE - 1)) % U32_SIZE) },
          conn)
  else (w, conn)

/-- What a selection reads of a backend's counters; other cores write to them too. -/
def reading (w : World) (snapshot : Snapshot) (backend : Backend) (cursor : Nat) :
    Option SlotReading :=
  (snapshot.backendSlots[backend.statsIndex]?).map fun slot =>
    ⟨cursor, fun i => match slot[i]? with
      | some handle => w.inflight handle + ans.foreign i
      | none => 0⟩

end Inflight

section Mirroring

/-- Decide where a sampled request's copy is going, and start assembling it. -/
def planMirror (w : World) (conn : Conn) (snapshot : Snapshot) (spec : Option MirrorSpec)
    (framing : Framing) : World × Conn :=
  let conn := { conn with mirror := none }
  let skipped : World := { w with mirrorSkipped := w.mirrorSkipped + 1 }
  let failed : World := { w with mirrorFailed := w.mirrorFailed + 1 }
  match spec with
  | none => (w, conn)
  | some spec =>
      if !w.config.mirror then (w, conn)
      else if framing == .chunked || framing == .untilClose then (skipped, conn)
      else
        match snapshot.table.backends[spec.backend]? with
        | none => (w, conn)
        | some backend =>
            if backend.endpoints.isEmpty then (failed, conn)
            else
              match selectEndpoint backend (reading ans w snapshot backend ans.mirrorCursor)
                  ans.mirrorPick with
              | none => (failed, conn)
              | some (_, endpoint) =>
                  if ans.mirrorable then
                    (w, { conn with mirror := some ⟨conn.requestHead, endpoint.addr, spec.host,
                      [], backend.protocol, false⟩ })
                  else (failed, conn)

/-- Keep a copy of request-body bytes on their way upstream. -/
def mirrorBody (config : Config) (conn : Conn) (bytes : Bytes) : Conn :=
  match conn.mirror with
  | none => conn
  | some copy =>
      if copy.tooLarge then conn
      else if config.mirrorMaxBody < copy.body.length + bytes.length then
        { conn with mirror := some { copy with body := [], tooLarge := true } }
      else { conn with mirror := some { copy with body := copy.body ++ bytes } }

/-- The request body is complete: hand the copy over, or count the skip. -/
def sendMirror (w : World) (conn : Conn) : World × Conn :=
  match conn.mirror with
  | none => (w, conn)
  | some copy =>
      let conn := { conn with mirror := none }
      if !w.config.mirror then (w, conn)
      else if copy.tooLarge then ({ w with mirrorSkipped := w.mirrorSkipped + 1 }, conn)
      else ({ w with mirrored := w.mirrored ++ [copy] }, conn)

end Mirroring

end Ramjet.Engine.Worker.Accounting
