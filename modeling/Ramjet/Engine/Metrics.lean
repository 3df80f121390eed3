/- digest: Counters of every core, summed for the page with those of the engine beside them. -/

import Ramjet.Proxy.Metrics

set_option autoImplicit false
set_option relaxedAutoImplicit false

namespace Ramjet.Engine.Metrics

open Ramjet.Base.Octets
open Ramjet.Proxy.Metrics

/-- One of the plain counters of a core. -/
inductive CoreSeries
  | connectFailures | retries | timeouts | routeMisses | tlsHandshakes | tlsHandshakeFailures
  | dispatchedHere | dispatchedAway | unsupportedH2c | unsupportedGrpc
  deriving DecidableEq, Repr

structure CoreMetrics where
  requests : Fin 6 → Counter := 0
  buckets : Fin 12 → Counter := 0
  sumNanos : Counter := 0
  latencyCount : Counter := 0
  active : Counter := 0
  counters : CoreSeries → Counter := 0

structure EngineMetrics where
  cores : List CoreMetrics
  peer : Option Metrics := none

namespace CoreMetrics

variable (c : CoreMetrics)

def response (status : Nat) : CoreMetrics :=
  { c with requests := increment c.requests (classOf status) }

def upstreamLatency (seconds : Seconds) (elapsed : Nat) : CoreMetrics :=
  { c with
    buckets :=
      match bucketOf seconds elapsed with
      | some i => increment c.buckets i
      | none => c.buckets
    sumNanos := c.sumNanos + nanosOf elapsed
    latencyCount := c.latencyCount + 1 }

def connectionOpened : CoreMetrics := { c with active := c.active + 1 }

def connectionClosed : CoreMetrics := { c with active := c.active - 1 }

/-- One of the counters is advanced by one. -/
def advance (s : CoreSeries) : CoreMetrics := { c with counters := increment c.counters s }

def connectFailure : CoreMetrics := c.advance .connectFailures

def retry : CoreMetrics := c.advance .retries

def timeout : CoreMetrics := c.advance .timeouts

def routeMiss : CoreMetrics := c.advance .routeMisses

def tlsHandshake : CoreMetrics := c.advance .tlsHandshakes

def tlsHandshakeFailure : CoreMetrics := c.advance .tlsHandshakeFailures

def dispatchedHere : CoreMetrics := c.advance .dispatchedHere

def dispatchedAway : CoreMetrics := c.advance .dispatchedAway

def unsupportedH2c : CoreMetrics := c.advance .unsupportedH2c

def unsupportedGrpc : CoreMetrics := c.advance .unsupportedGrpc

end CoreMetrics

namespace EngineMetrics

def new (cores : Nat) : EngineMetrics := { cores := List.replicate (max cores 1) {} }

def withPeer (cores : Nat) (peer : Metrics) : EngineMetrics :=
  { new cores with peer := some peer }

variable (e : EngineMetrics)

/-- The other side's numbers, or zeros where there is no other side. -/
def others : Totals := (e.peer.map totals).getD {}

def sum (pick : CoreMetrics → Counter) : Counter := (e.cores.map pick).sum

def activeConnections : Counter := e.sum (·.active)

/-- Names, help texts and values of the plain counters, in the order of the page. -/
def plain : List (Bytes × Bytes × Counter) :=
  let peer := e.others
  [(ascii "ramjet_tls_handshakes_total", ascii "TLS handshakes completed.",
      e.sum (·.counters .tlsHandshakes) + peer.counters .tlsHandshakes),
    (ascii "ramjet_tls_handshake_failures_total", ascii "TLS handshakes that failed.",
      e.sum (·.counters .tlsHandshakeFailures) + peer.counters .tlsHandshakeFailures),
    (ascii "ramjet_dispatch_uring_total",
      ascii "Connections the uring engine kept after reading what the client offered.",
      e.sum (·.counters .dispatchedHere) + peer.counters .dispatchUring),
    (ascii "ramjet_dispatch_hyper_total",
      ascii "Connections handed to the hyper engine because the client asked for HTTP/2.",
      e.sum (·.counters .dispatchedAway) + peer.counters .dispatchHyper),
    (ascii "ramjet_upstream_connect_failures_total",
      ascii "Failures to connect to an upstream endpoint.",
      e.sum (·.counters .connectFailures) + peer.counters .connectFailures),
    (ascii "ramjet_upstream_retries_total",
      ascii "Requests re-dispatched to a different endpoint.",
      e.sum (·.counters .retries) + peer.counters .retries),
    (ascii "ramjet_upstream_timeouts_total",
      ascii "Upstreams that did not send headers before the deadline.",
      e.sum (·.counters .timeouts) + peer.counters .timeouts),
    (ascii "ramjet_route_misses_total",
      ascii "Requests that matched no route and no default backend.",
      e.sum (·.counters .routeMisses) + peer.counters .routeMisses),
    (ascii "ramjet_h3_connections_total",
      ascii "HTTP/3 connections established on the QUIC listener.", peer.counters .h3Connections),
    (ascii "ramjet_h3_requests_total", ascii "Requests that arrived over HTTP/3.",
      peer.counters .h3Requests),
    (ascii "ramjet_h3_handshake_failures_total",
      ascii "QUIC connections that never became usable HTTP/3 connections.",
      peer.counters .h3HandshakeFailures),
    (ascii "ramjet_mirrored_total",
      ascii "Requests copied to a mirror backend, which accepted the copy.",
      peer.counters .mirrored),
    (ascii "ramjet_mirror_dropped_total",
      ascii "Copies discarded because a serving runtime's mirror queue was full.",
      peer.counters .mirrorDropped),
    (ascii "ramjet_mirror_skipped_total",
      ascii "Copies not attempted because the request body exceeded --mirror-max-body.",
      peer.counters .mirrorSkipped),
    (ascii "ramjet_mirror_failures_total",
      ascii "Copies a mirror backend refused, failed, or did not answer in time.",
      peer.counters .mirrorFailures),
    (ascii "ramjet_engine_unsupported_h2c_total",
      ascii ("Requests refused because the backend needs an HTTP/2 upstream this engine " ++
        "does not dial."), e.sum (·.counters .unsupportedH2c) + peer.counters .unsupportedH2c),
    (ascii "ramjet_engine_unsupported_grpc_total",
      ascii ("gRPC requests refused because the backend is not annotated " ++
        "backend-protocol: GRPC."),
      e.sum (·.counters .unsupportedGrpc) + peer.counters .unsupportedGrpc)]

def renderPrometheus (seconds : Seconds) (generation : Counter) (pinned : Bool) : Bytes :=
  let peer := e.others
  let name := ascii "ramjet_upstream_latency_seconds"
  let cumulative := running 0 ((List.finRange 12).map fun i =>
    e.sum (·.buckets i) + peer.latencyBuckets i)
  let count := e.sum (·.latencyCount) + peer.latencyCount
  ascii "# HELP ramjet_requests_total Responses served, by status class.\n" ++
    ascii "# TYPE ramjet_requests_total counter\n" ++
    (CLASSES.zip ((List.finRange 6).map fun i => e.sum (·.requests i) + peer.requests i)).flatMap
      (fun (class_, n) =>
        writeln [ascii "ramjet_requests_total\x7bcode=\"", class_, ascii "\"\x7d ", number n]) ++
    ascii ("# HELP ramjet_upstream_latency_seconds Time from upstream dispatch to response " ++
      "headers.\n") ++
    ascii "# TYPE ramjet_upstream_latency_seconds histogram\n" ++
    ((BUCKETS.zip cumulative).flatMap (fun (bound, n) =>
        writeln [name, ascii "_bucket\x7ble=\"", bound, ascii "\"\x7d ", number n]) ++
      writeln [name, ascii "_bucket\x7ble=\"+Inf\"\x7d ", number count] ++
      writeln [name, ascii "_sum ", seconds.text (e.sum (·.sumNanos) + peer.latencyNanos)] ++
      writeln [name, ascii "_count ", number count]) ++
    Proxy.Metrics.gauge (ascii "ramjet_active_connections")
      (ascii "Downstream connections currently being served.")
      (e.activeConnections + peer.activeConnections) ++
    Proxy.Metrics.gauge (ascii "ramjet_route_table_generation")
      (ascii "Generation of the currently published route table.") generation ++
    Proxy.Metrics.gauge (ascii "ramjet_pinned")
      (ascii "1 when a rollback is holding publication at a chosen generation.")
      (if pinned then 1 else 0) ++
    e.plain.flatMap fun (name, help, value) => counter name help value

end EngineMetrics

end Ramjet.Engine.Metrics
