/- digest: The hyper engine's counters and latency histogram, and the page they are scraped as. -/

import Mathlib.Data.BitVec
import Mathlib.Data.List.FinRange
import Ramjet.Base.Text

set_option autoImplicit false
set_option relaxedAutoImplicit false

namespace Ramjet.Proxy.Metrics

open Ramjet.Base.Octets
open Ramjet.Base.Text

/-- An `AtomicU64` or an `AtomicI64`: it wraps around. -/
abbrev Counter := BitVec 64

def U64_MAX : Nat := 18446744073709551615

/-- The bounds of the latency buckets in seconds, as `f64` displays them. -/
def BUCKETS : List Bytes :=
  [ascii "0.001", ascii "0.0025", ascii "0.005", ascii "0.01", ascii "0.025", ascii "0.05",
    ascii "0.1", ascii "0.25", ascii "0.5", ascii "1", ascii "5", ascii "10"]

def CLASSES : List Bytes :=
  [ascii "1xx", ascii "2xx", ascii "3xx", ascii "4xx", ascii "5xx", ascii "other"]

/-- What the floating-point seconds of a duration decide: whether so many nanoseconds are at most
the bound of a bucket, and how a sum of nanoseconds is written with six decimals. -/
structure Seconds where
  within : Nat → Fin 12 → Bool
  text : Counter → Bytes

/-- One of the counters that are a name, a help text and a number on the page. -/
inductive Series
  | tlsHandshakes | tlsHandshakeFailures | dispatchUring | dispatchHyper | connectFailures
  | retries | timeouts | routeMisses | h3Connections | h3Requests | h3HandshakeFailures
  | mirrored | mirrorDropped | mirrorSkipped | mirrorFailures | unsupportedH2c | unsupportedGrpc
  deriving DecidableEq, Repr

structure Histogram where
  buckets : Fin 12 → Counter := 0
  sumNanos : Counter := 0
  count : Counter := 0

/-- Every series of one engine, read out in one pass. -/
@[ext] structure Totals where
  requests : Fin 6 → Counter := 0
  latencyBuckets : Fin 12 → Counter := 0
  latencyNanos : Counter := 0
  latencyCount : Counter := 0
  activeConnections : Counter := 0
  counters : Series → Counter := 0

structure Metrics where
  requests : Fin 6 → Counter := 0
  upstreamLatency : Histogram := {}
  activeConnections : Counter := 0
  counters : Series → Counter := 0

/-- The class of a status, by its hundreds. -/
def classOf (status : Nat) : Fin 6 :=
  match status / 100 with
  | 1 => 0
  | 2 => 1
  | 3 => 2
  | 4 => 3
  | 5 => 4
  | _ => 5

/-- One place of an array counts one more. -/
def increment {ι : Type} [DecidableEq ι] (counts : ι → Counter) (i : ι) : ι → Counter :=
  Function.update counts i (counts i + 1)

/-- The bucket of a duration: the first whose bound it does not exceed. -/
def bucketOf (seconds : Seconds) (elapsed : Nat) : Option (Fin 12) :=
  (List.finRange 12).find? fun i => seconds.within elapsed i

/-- What a duration adds to the sum, in nanoseconds. -/
def nanosOf (elapsed : Nat) : Counter := BitVec.ofNat 64 (min elapsed U64_MAX)

def Histogram.observe (seconds : Seconds) (h : Histogram) (elapsed : Nat) : Histogram where
  buckets :=
    match bucketOf seconds elapsed with
    | some i => increment h.buckets i
    | none => h.buckets
  sumNanos := h.sumNanos + nanosOf elapsed
  count := h.count + 1

section Recording

variable (m : Metrics)

def recordResponse (status : Nat) : Metrics :=
  { m with requests := increment m.requests (classOf status) }

def recordUpstreamLatency (seconds : Seconds) (elapsed : Nat) : Metrics :=
  { m with upstreamLatency := m.upstreamLatency.observe seconds elapsed }

def connectionOpened : Metrics := { m with activeConnections := m.activeConnections + 1 }

/-- A `ConnectionGuard` is dropped. -/
def connectionDropped : Metrics := { m with activeConnections := m.activeConnections - 1 }

/-- One of the counters is advanced by one. -/
def advance (s : Series) : Metrics := { m with counters := increment m.counters s }

def recordTlsHandshake : Metrics := advance m .tlsHandshakes

def recordTlsHandshakeFailure : Metrics := advance m .tlsHandshakeFailures

def recordConnectFailure : Metrics := advance m .connectFailures

def recordRetry : Metrics := advance m .retries

def recordUpstreamTimeout : Metrics := advance m .timeouts

def recordRouteMiss : Metrics := advance m .routeMisses

def recordH3Connection : Metrics := advance m .h3Connections

def recordH3Request : Metrics := advance m .h3Requests

def recordH3HandshakeFailure : Metrics := advance m .h3HandshakeFailures

def recordMirrored : Metrics := advance m .mirrored

def recordMirrorDropped : Metrics := advance m .mirrorDropped

def recordMirrorSkipped : Metrics := advance m .mirrorSkipped

def recordMirrorFailure : Metrics := advance m .mirrorFailures

def recordUnsupportedGrpc : Metrics := advance m .unsupportedGrpc

def totals : Totals where
  requests := m.requests
  latencyBuckets := m.upstreamLatency.buckets
  latencyNanos := m.upstreamLatency.sumNanos
  latencyCount := m.upstreamLatency.count
  activeConnections := m.activeConnections
  counters := m.counters

end Recording

section Rendering

/-- `writeln!`. -/
def writeln (parts : List Bytes) : Bytes := parts.flatten ++ [10]

def number (n : Counter) : Bytes := decimal n.toNat

/-- The totals up to each of the counts. -/
def running (carried : Counter) : List Counter → List Counter
  | [] => []
  | n :: rest => (carried + n) :: running (carried + n) rest

def gauge (name help : Bytes) (value : Counter) : Bytes :=
  writeln [ascii "# HELP ", name, ascii " ", help] ++
    writeln [ascii "# TYPE ", name, ascii " gauge"] ++
    writeln [name, ascii " ", signedDecimal value.toInt]

def counter (name help : Bytes) (value : Counter) : Bytes :=
  writeln [ascii "# HELP ", name, ascii " ", help] ++
    writeln [ascii "# TYPE ", name, ascii " counter"] ++
    writeln [name, ascii " ", number value]

def Histogram.render (seconds : Seconds) (h : Histogram) (name : Bytes) : Bytes :=
  let cumulative := running 0 ((List.finRange 12).map h.buckets)
  (BUCKETS.zip cumulative).flatMap (fun (bound, n) =>
      writeln [name, ascii "_bucket\x7ble=\"", bound, ascii "\"\x7d ", number n]) ++
    writeln [name, ascii "_bucket\x7ble=\"+Inf\"\x7d ", number h.count] ++
    writeln [name, ascii "_sum ", seconds.text h.sumNanos] ++
    writeln [name, ascii "_count ", number h.count]

/-- Names, help texts and values of the plain counters, in the order of the page. -/
def plain (m : Metrics) : List (Bytes × Bytes × Counter) :=
  [(ascii "ramjet_tls_handshakes_total", ascii "TLS handshakes completed.",
      m.counters .tlsHandshakes),
    (ascii "ramjet_tls_handshake_failures_total", ascii "TLS handshakes that failed.",
      m.counters .tlsHandshakeFailures),
    (ascii "ramjet_dispatch_uring_total",
      ascii "Connections the uring engine kept after reading what the client offered.",
      m.counters .dispatchUring),
    (ascii "ramjet_dispatch_hyper_total",
      ascii "Connections handed to the hyper engine because the client asked for HTTP/2.",
      m.counters .dispatchHyper),
    (ascii "ramjet_upstream_connect_failures_total",
      ascii "Failures to connect to an upstream endpoint.", m.counters .connectFailures),
    (ascii "ramjet_upstream_retries_total",
      ascii "Requests re-dispatched to a different endpoint.", m.counters .retries),
    (ascii "ramjet_upstream_timeouts_total",
      ascii "Upstreams that did not send headers before the deadline.", m.counters .timeouts),
    (ascii "ramjet_route_misses_total",
      ascii "Requests that matched no route and no default backend.", m.counters .routeMisses),
    (ascii "ramjet_h3_connections_total",
      ascii "HTTP/3 connections established on the QUIC listener.", m.counters .h3Connections),
    (ascii "ramjet_h3_requests_total", ascii "Requests that arrived over HTTP/3.",
      m.counters .h3Requests),
    (ascii "ramjet_h3_handshake_failures_total",
      ascii "QUIC connections that never became usable HTTP/3 connections.",
      m.counters .h3HandshakeFailures),
    (ascii "ramjet_mirrored_total",
      ascii "Requests copied to a mirror backend, which accepted the copy.",
      m.counters .mirrored),
    (ascii "ramjet_mirror_dropped_total",
      ascii "Copies discarded because a serving runtime's mirror queue was full.",
      m.counters .mirrorDropped),
    (ascii "ramjet_mirror_skipped_total",
      ascii "Copies not attempted because the request body exceeded --mirror-max-body.",
      m.counters .mirrorSkipped),
    (ascii "ramjet_mirror_failures_total",
      ascii "Copies a mirror backend refused, failed, or did not answer in time.",
      m.counters .mirrorFailures),
    (ascii "ramjet_engine_unsupported_h2c_total",
      ascii ("Requests refused because the backend needs an HTTP/2 upstream this engine " ++
        "does not dial."), m.counters .unsupportedH2c),
    (ascii "ramjet_engine_unsupported_grpc_total",
      ascii ("gRPC requests refused because the backend is not annotated " ++
        "backend-protocol: GRPC."), m.counters .unsupportedGrpc)]

def renderPrometheus (seconds : Seconds) (m : Metrics) (generation : Counter) (pinned : Bool) :
    Bytes :=
  ascii "# HELP ramjet_requests_total Responses served, by status class.\n" ++
    ascii "# TYPE ramjet_requests_total counter\n" ++
    (CLASSES.zip ((List.finRange 6).map m.requests)).flatMap (fun (class_, n) =>
      writeln [ascii "ramjet_requests_total\x7bcode=\"", class_, ascii "\"\x7d ", number n]) ++
    ascii ("# HELP ramjet_upstream_latency_seconds Time from upstream dispatch to response " ++
      "headers.\n") ++
    ascii "# TYPE ramjet_upstream_latency_seconds histogram\n" ++
    m.upstreamLatency.render seconds (ascii "ramjet_upstream_latency_seconds") ++
    gauge (ascii "ramjet_active_connections")
      (ascii "Downstream connections currently being served.") m.activeConnections ++
    gauge (ascii "ramjet_route_table_generation")
      (ascii "Generation of the currently published route table.") generation ++
    gauge (ascii "ramjet_pinned")
      (ascii "1 when a rollback is holding publication at a chosen generation.")
      (if pinned then 1 else 0) ++
    (plain m).flatMap fun (name, help, value) => counter name help value

end Rendering

end Ramjet.Proxy.Metrics
