/- digest: What the dashboard makes of two polls: the rates of each route, in an order. -/

import Ramjet.Base.Comparison
import Ramjet.Base.Octets
import Ramjet.Base.Orders
import Ramjet.Top.Prom

set_option autoImplicit false
set_option relaxedAutoImplicit false

namespace Ramjet.Top.Model

open Ramjet.Base.AssocMap
open Ramjet.Base.Comparison
open Ramjet.Base.Octets
open Ramjet.Base.Orders
open Ramjet.Top.Prom

/-- A text by its characters. -/
abbrev Text := List Char

/-- What the dashboard asks of `f64`, of a length of time and of the case of letters. -/
structure Arithmetic (F : Type) where
  ofCount : Nat → F
  sub : F → F → F
  mul : F → F → F
  div : F → F → F
  zero : F
  isFinite : F → Bool
  positive : F → Bool
  totalCmp : F → F → Ordering
  /-- Seconds of a length of time in nanoseconds. -/
  seconds : Nat → F
  /-- Rounded to a count, and below zero to none. -/
  rounded : F → Nat
  lowercase : Text → Text

/-- How the server says that a path is matched. -/
inductive PathType where
  | exact
  | prefixed
  | implementationSpecific
  | other (name : Text)
  deriving DecidableEq

def PathType.asStr : PathType → Text
  | .exact => "Exact".toList
  | .prefixed => "Prefix".toList
  | .implementationSpecific => "ImplementationSpecific".toList
  | .other name => name

structure Canary where
  backend : Text
  weightPercent : Nat

structure CanaryStats (F : Type) where
  requestsTotal : Nat
  errors5xxTotal : Nat
  upstreamLatencyMsSum : F
  upstreamLatencyCount : Nat

/-- A route as the server lists it. -/
structure RouteEntry (F : Type) where
  host : Text
  path : Text
  pathType : PathType
  backend : Text
  endpoints : Nat
  requestsTotal : Nat
  errors5xxTotal : Nat
  upstreamLatencyMsSum : F
  upstreamLatencyCount : Nat
  canary : Option Canary := none
  canaryStats : Option (CanaryStats F) := none

/-- What makes two rows of two polls the same route. -/
structure RouteKey where
  host : Text
  path : Text
  pathType : Text
  deriving DecidableEq

structure CanaryCounters (F : Type) where
  requestsTotal : Nat
  errors5xxTotal : Nat
  latencyMsSum : F
  latencyCount : Nat

structure RouteCounters (F : Type) where
  requestsTotal : Nat
  errors5xxTotal : Nat
  latencyMsSum : F
  latencyCount : Nat
  canary : CanaryCounters F

/-- One row of the table. -/
structure RouteRow (F : Type) where
  host : Text
  path : Text
  pathType : PathType
  backend : Text
  endpoints : Nat
  requestsTotal : Nat
  errors5xxTotal : Nat
  rps : Option F
  errorRatePercent : Option F
  avgLatencyMs : Option F
  canary : Option Canary
  canaryErrorRatePercent : Option F
  canaryAvgLatencyMs : Option F
  isNew : Bool

/-- The column that orders the table. -/
inductive SortColumn where
  | rps
  | errors
  | latency
  | host
  deriving DecidableEq

def SortColumn.fromKey : Char → Option SortColumn
  | 'r' => some .rps
  | 'e' => some .errors
  | 'l' => some .latency
  | 'h' => some .host
  | _ => none

def SortColumn.defaultsToDescending (sort : SortColumn) : Bool := !(sort matches .host)

/-- The numbers of the header. -/
structure GlobalStats (F : Type) where
  rps : Option F := none
  errorRatePercent : Option F := none
  avgLatencyMs : Option F := none
  activeConnections : Option Int := none

def RouteKey.of {F : Type} (entry : RouteEntry F) : RouteKey :=
  { host := entry.host, path := entry.path, pathType := entry.pathType.asStr }

abbrev CounterBaseline (F : Type) := Map RouteKey (RouteCounters F)

/-- A delta of two counters that cannot be negative. -/
def counterDelta (now before : Nat) : Nat := now - before

section Rates

variable {F : Type} (A : Arithmetic F)

def RouteCounters.of (entry : RouteEntry F) : RouteCounters F :=
  { requestsTotal := entry.requestsTotal, errors5xxTotal := entry.errors5xxTotal
    latencyMsSum := entry.upstreamLatencyMsSum, latencyCount := entry.upstreamLatencyCount
    canary :=
      match entry.canaryStats with
      | some split =>
          { requestsTotal := split.requestsTotal, errors5xxTotal := split.errors5xxTotal
            latencyMsSum := split.upstreamLatencyMsSum
            latencyCount := split.upstreamLatencyCount }
      | none =>
          { requestsTotal := 0, errors5xxTotal := 0, latencyMsSum := A.zero, latencyCount := 0 } }

/-- What a poll leaves behind for the next one; of two routes under one key the later stays. -/
def baselineOf (routes : List (RouteEntry F)) : CounterBaseline F :=
  collect (routes.map fun entry => (RouteKey.of entry, RouteCounters.of A entry))

def sumDelta (now before : F) : F :=
  let delta := A.sub now before
  if A.isFinite delta && A.positive delta then delta else A.zero

/-- What to divide by, where two polls did not land in one tick of the clock. -/
def usableSeconds (elapsed : Nat) : Option F :=
  let seconds := A.seconds elapsed
  if A.isFinite seconds && A.positive seconds then some seconds else none

/-- A share in percent, of something. -/
def percentOf (part whole : Nat) : Option F :=
  if 0 < whole then
    some (A.div (A.mul (A.ofCount part) (A.ofCount 100)) (A.ofCount whole))
  else none

def meanOf (sum : F) (count : Nat) : Option F :=
  if 0 < count then some (A.div sum (A.ofCount count)) else none

/-- The rates of one route over one interval. -/
structure Rates (F : Type) where
  rps : F
  errorRate : Option F
  avgLatency : Option F
  canaryErrorRate : Option F
  canaryAvgLatency : Option F

def ratesOf (counters before : RouteCounters F) (seconds : F) : Rates F :=
  let requests := counterDelta counters.requestsTotal before.requestsTotal
  let canaryRequests := counterDelta counters.canary.requestsTotal before.canary.requestsTotal
  { rps := A.div (A.ofCount requests) seconds
    errorRate :=
      percentOf A (counterDelta counters.errors5xxTotal before.errors5xxTotal) requests
    avgLatency :=
      meanOf A (sumDelta A counters.latencyMsSum before.latencyMsSum)
        (counterDelta counters.latencyCount before.latencyCount)
    canaryErrorRate :=
      percentOf A (counterDelta counters.canary.errors5xxTotal before.canary.errors5xxTotal)
        canaryRequests
    canaryAvgLatency :=
      meanOf A (sumDelta A counters.canary.latencyMsSum before.canary.latencyMsSum)
        (counterDelta counters.canary.latencyCount before.canary.latencyCount) }

def computeRow (baseline : Option (CounterBaseline F)) (elapsed : Nat) (entry : RouteEntry F) :
    RouteRow F :=
  let previous := baseline.bind fun b => get b (RouteKey.of entry)
  let counters := RouteCounters.of A entry
  let rates := previous.bind fun before =>
    (usableSeconds A elapsed).map fun seconds => ratesOf A counters before seconds
  { host := entry.host, path := entry.path, pathType := entry.pathType, backend := entry.backend
    endpoints := entry.endpoints, requestsTotal := counters.requestsTotal
    errors5xxTotal := counters.errors5xxTotal, rps := rates.map (·.rps)
    errorRatePercent := rates.bind (·.errorRate), avgLatencyMs := rates.bind (·.avgLatency)
    canary := entry.canary, canaryErrorRatePercent := rates.bind (·.canaryErrorRate)
    canaryAvgLatencyMs := rates.bind (·.canaryAvgLatency)
    isNew := baseline.isSome && previous.isNone }

/-- The rows of one poll, against what the poll before left behind. -/
def computeRows (routes : List (RouteEntry F)) (baseline : Option (CounterBaseline F))
    (elapsed : Nat) : List (RouteRow F) :=
  routes.map (computeRow A baseline elapsed)

/-- The header from two scrapes. -/
def computeGlobal (now : MetricsSnapshot F) (before : Option (MetricsSnapshot F))
    (elapsed : Nat) : GlobalStats F :=
  let stats : GlobalStats F := { activeConnections := now.activeConnections }
  match before, usableSeconds A elapsed with
  | some before, some seconds =>
      let requests := counterDelta now.requestsTotal before.requestsTotal
      let latencySum := sumDelta A now.latencySumSeconds before.latencySumSeconds
      { stats with
        rps := some (A.div (A.ofCount requests) seconds)
        errorRatePercent :=
          percentOf A (counterDelta now.errors5xxTotal before.errors5xxTotal) requests
        avgLatencyMs :=
          meanOf A (A.mul latencySum (A.ofCount 1000))
            (counterDelta now.latencyCount before.latencyCount) }
  | _, _ => stats

end Rates

section Sorting

variable {F : Type} (A : Arithmetic F)

/-- Two optional numbers, what is absent last in either direction. -/
def compareOptional (descending : Bool) : Option F → Option F → Ordering
  | some a, some b =>
      let ordering := A.totalCmp a b
      if descending then ordering.swap else ordering
  | some _, none => .lt
  | none, some _ => .gt
  | none, none => .eq

def compareHosts (a b : RouteRow F) : Ordering :=
  (compare a.host b.host).then (compare a.path b.path)

def compareRows (sort : SortColumn) (descending : Bool) (a b : RouteRow F) : Ordering :=
  let directed :=
    match sort with
    | .host => if descending then (compareHosts a b).swap else compareHosts a b
    | .rps => compareOptional A descending a.rps b.rps
    | .errors => compareOptional A descending a.errorRatePercent b.errorRatePercent
    | .latency => compareOptional A descending a.avgLatencyMs b.avgLatencyMs
  (directed.then (compare a.host b.host)).then (compare a.path b.path)

def sortRows (rows : List (RouteRow F)) (sort : SortColumn) (descending : Bool) :
    List (RouteRow F) :=
  rows.insertionSort fun a b => compareRows A sort descending a b ≠ .gt

/-- No row stands before one that belongs above it. -/
abbrev Ordered (sort : SortColumn) (descending : Bool) (rows : List (RouteRow F)) : Prop :=
  Sorted (compareRows A sort descending) rows

variable {A}

theorem transCmp_optional [Std.TransCmp A.totalCmp] (descending : Bool) :
    Std.TransCmp (compareOptional A descending) := by
  have hlastly : compareOptional A descending =
      lastly fun a b => if descending then (A.totalCmp a b).swap else A.totalCmp a b := by
    ext a b
    cases a <;> cases b <;> rfl
  have hdirected : Std.TransCmp fun a b =>
      if descending then (A.totalCmp a b).swap else A.totalCmp a b := by
    cases descending
    · assumption
    · exact transCmp_swap A.totalCmp
  rw [hlastly]
  exact transCmp_lastly _

theorem transCmp_rows [Std.TransCmp A.totalCmp] (sort : SortColumn) (descending : Bool) :
    Std.TransCmp (compareRows A sort descending) := by
  have hhost : Std.TransCmp fun a b : RouteRow F => compare a.host b.host :=
    transCmp_on compare RouteRow.host
  have hpath : Std.TransCmp fun a b : RouteRow F => compare a.path b.path :=
    transCmp_on compare RouteRow.path
  have hhosts : Std.TransCmp (compareHosts (F := F)) := transCmp_then _ _
  have hnumber := transCmp_optional (A := A) descending
  have hties : ∀ directed : RouteRow F → RouteRow F → Ordering, Std.TransCmp directed →
      Std.TransCmp fun a b =>
        ((directed a b).then (compare a.host b.host)).then (compare a.path b.path) := by
    intro directed hdirected
    have hhosted := transCmp_then directed fun a b => compare a.host b.host
    exact transCmp_then _ _
  cases sort with
  | rps => exact hties _ (transCmp_on (compareOptional A descending) RouteRow.rps)
  | errors => exact hties _ (transCmp_on (compareOptional A descending) RouteRow.errorRatePercent)
  | latency => exact hties _ (transCmp_on (compareOptional A descending) RouteRow.avgLatencyMs)
  | host =>
      cases descending
      · exact hties _ hhosts
      · exact hties _ (transCmp_swap compareHosts)

/-- Sorted rows are in order. -/
theorem ordered_sortRows [Std.TransCmp A.totalCmp] (rows : List (RouteRow F)) (sort : SortColumn)
    (descending : Bool) : Ordered A sort descending (sortRows A rows sort descending) :=
  have := transCmp_rows (A := A) sort descending
  sorted_insertionSort _ rows

end Sorting

section Filtering

variable {F : Type} (A : Arithmetic F)

def RouteRow.haystack (row : RouteRow F) : Text :=
  row.host ++ ' ' :: (row.path ++ ' ' :: (row.backend ++ ' ' :: row.pathType.asStr))

/-- Whether a row survives a filter. -/
def RouteRow.matches (row : RouteRow F) (needle : Text) : Bool :=
  needle.isEmpty || (findSub (A.lowercase needle) (A.lowercase row.haystack)).isSome

end Filtering

/-- Whole numbers for `f64`: exact where no division leaves a remainder, over ASCII letters. -/
def whole : Arithmetic Int where
  ofCount n := n
  sub a b := a - b
  mul a b := a * b
  div a b := a / b
  zero := 0
  isFinite _ := true
  positive a := 0 < a
  totalCmp := compare
  seconds nanos := (nanos / 1000000000 : Nat)
  rounded := Int.toNat
  lowercase text := text.map Char.toLower

end Ramjet.Top.Model
