/- digest: The counters of a route: what every response adds, and what a scrape reads. -/

import Mathlib.Algebra.Ring.Nat
import Ramjet.Router.Table

set_option autoImplicit false
set_option relaxedAutoImplicit false

namespace Ramjet.Router.Stats

open Ramjet.Base.Octets
open Ramjet.Base.AssocMap
open Ramjet.Router.Rule
open Ramjet.Router.Table

def ROUTE_STAT_SHARDS : Nat := 4

def U64_SIZE : Nat := 18446744073709551616

/-- Addition of 64-bit counters, which wrap. -/
def addU64 (a b : Nat) : Nat := (a + b) % U64_SIZE

/-- One route's counters, in one shard or merged across all of them. -/
structure RouteTotals where
  requests : Nat := 0
  errors5xx : Nat := 0
  upstreamLatencyMicros : Nat := 0
  upstreamLatencyCount : Nat := 0
  deriving DecidableEq, Repr

def RouteTotals.add (a b : RouteTotals) : RouteTotals :=
  { requests := addU64 a.requests b.requests
    errors5xx := addU64 a.errors5xx b.errors5xx
    upstreamLatencyMicros := addU64 a.upstreamLatencyMicros b.upstreamLatencyMicros
    upstreamLatencyCount := addU64 a.upstreamLatencyCount b.upstreamLatencyCount }

/-- Field by field the difference, and zero where it would be negative. -/
def RouteTotals.saturatingSub (a b : RouteTotals) : RouteTotals :=
  { requests := a.requests - b.requests
    errors5xx := a.errors5xx - b.errors5xx
    upstreamLatencyMicros := a.upstreamLatencyMicros - b.upstreamLatencyMicros
    upstreamLatencyCount := a.upstreamLatencyCount - b.upstreamLatencyCount }

/-- A response in the 5xx class is counted wherever it came from. -/
def RouteTotals.recordResponse (counters : RouteTotals) (status : Nat) : RouteTotals :=
  { counters with
    requests := addU64 counters.requests 1
    errors5xx := if 500 ≤ status ∧ status < 600 then addU64 counters.errors5xx 1
      else counters.errors5xx }

def RouteTotals.recordUpstreamLatency (counters : RouteTotals) (micros : Nat) : RouteTotals :=
  { counters with
    upstreamLatencyMicros := addU64 counters.upstreamLatencyMicros (min micros (U64_SIZE - 1))
    upstreamLatencyCount := addU64 counters.upstreamLatencyCount 1 }

/-- Every shard of one route's counters, and of the share the canary took. -/
structure RouteSlot where
  shards : List RouteTotals := List.replicate ROUTE_STAT_SHARDS {}
  canaryShards : List RouteTotals := List.replicate ROUTE_STAT_SHARDS {}
  deriving DecidableEq, Repr

def sum (shards : List RouteTotals) : RouteTotals := shards.foldl RouteTotals.add {}

def RouteSlot.totals (slot : RouteSlot) : RouteTotals := sum slot.shards

def RouteSlot.canaryTotals (slot : RouteSlot) : RouteTotals := sum slot.canaryShards

/-- How a virtual host is keyed. -/
inductive RouteHost where
  | exact (name : Bytes)
  | wildcard (parent : Bytes)
  | catchAll
  deriving DecidableEq, Repr

def virtualHosts (t : RouteTable) : List (RouteHost × VirtualHost) :=
  t.hosts.map (fun e => (.exact e.1, e.2)) ++ t.wildcardHosts.map (fun e => (.wildcard e.1, e.2)) ++
    t.catchAll.toList.map fun vhost => (.catchAll, vhost)

/-- Every path rule in the table, with the host it is served under. -/
def routes (t : RouteTable) : List (RouteHost × PathRule) :=
  (virtualHosts t).flatMap fun e => e.2.routes.map fun rule => (e.1, rule)

end Ramjet.Router.Stats
