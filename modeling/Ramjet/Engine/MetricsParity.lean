/- digest: Wherever its events are counted, a process is scraped as the same page. -/

import Ramjet.Base.Shards
import Ramjet.Engine.Metrics

set_option autoImplicit false
set_option relaxedAutoImplicit false

namespace Ramjet.Engine.MetricsParity

open Ramjet.Base.Shards
open Ramjet.Proxy.Metrics
open Ramjet.Engine.Metrics

section Reading

instance : Zero Totals := ⟨{}⟩

/-- Two pages of numbers are added series by series. -/
instance : Add Totals where
  add a b :=
    { requests := a.requests + b.requests, latencyBuckets := a.latencyBuckets + b.latencyBuckets
      latencyNanos := a.latencyNanos + b.latencyNanos
      latencyCount := a.latencyCount + b.latencyCount
      activeConnections := a.activeConnections + b.activeConnections
      counters := a.counters + b.counters }

instance : AddCommMonoid Totals where
  add_assoc _ _ _ := Totals.ext (add_assoc ..) (add_assoc ..) (add_assoc ..) (add_assoc ..)
    (add_assoc ..) (add_assoc ..)
  zero_add _ := Totals.ext (zero_add _) (zero_add _) (zero_add _) (zero_add _) (zero_add _)
    (zero_add _)
  add_zero _ := Totals.ext (add_zero _) (add_zero _) (add_zero _) (add_zero _) (add_zero _)
    (add_zero _)
  add_comm _ _ := Totals.ext (add_comm ..) (add_comm ..) (add_comm ..) (add_comm ..) (add_comm ..)
    (add_comm ..)
  nsmul := nsmulRec

/-- Which of a core's counters a series of the page reads. -/
def coreSeries : Series → Option CoreSeries
  | .tlsHandshakes => some .tlsHandshakes
  | .tlsHandshakeFailures => some .tlsHandshakeFailures
  | .dispatchUring => some .dispatchedHere
  | .dispatchHyper => some .dispatchedAway
  | .connectFailures => some .connectFailures
  | .retries => some .retries
  | .timeouts => some .timeouts
  | .routeMisses => some .routeMisses
  | .unsupportedH2c => some .unsupportedH2c
  | .unsupportedGrpc => some .unsupportedGrpc
  | _ => none

/-- The series of the page that reads a counter. -/
def pageSeries : CoreSeries → Series
  | .connectFailures => .connectFailures
  | .retries => .retries
  | .timeouts => .timeouts
  | .routeMisses => .routeMisses
  | .tlsHandshakes => .tlsHandshakes
  | .tlsHandshakeFailures => .tlsHandshakeFailures
  | .dispatchedHere => .dispatchUring
  | .dispatchedAway => .dispatchHyper
  | .unsupportedH2c => .unsupportedH2c
  | .unsupportedGrpc => .unsupportedGrpc

theorem coreSeries_iff (s : Series) (x : CoreSeries) :
    coreSeries s = some x ↔ s = pageSeries x := by
  constructor
  · intro h
    cases s <;> cases h <;> rfl
  · rintro rfl
    cases x <;> rfl

/-- A core's counters as those of an engine of their own. -/
def asHyper (c : CoreMetrics) : Metrics where
  requests := c.requests
  upstreamLatency := { buckets := c.buckets, sumNanos := c.sumNanos, count := c.latencyCount }
  activeConnections := c.active
  counters s := ((coreSeries s).map c.counters).getD 0

/-- A core's numbers, series by series. -/
def coreTotals (c : CoreMetrics) : Totals := totals (asHyper c)

/-- The numbers of a whole process. -/
def merged (e : EngineMetrics) : Totals := readAll coreTotals e.cores + e.others

/-- What a page says of one number, it says of the sum. -/
theorem read_cores (pick : Totals → Counter) (hzero : pick 0 = 0)
    (hadd : ∀ a b, pick (a + b) = pick a + pick b) (e : EngineMetrics) :
    (e.cores.map fun c => pick (coreTotals c)).sum = pick (readAll coreTotals e.cores) := by
  unfold readAll
  induction e.cores with
  | nil => exact hzero.symm
  | cons c rest ih =>
      rw [List.map_cons, List.sum_cons, ih, List.map_cons, List.sum_cons, hadd]

theorem read_merged (pick : Totals → Counter) (hzero : pick 0 = 0)
    (hadd : ∀ a b, pick (a + b) = pick a + pick b) (e : EngineMetrics) :
    e.sum (fun c => pick (coreTotals c)) + pick e.others = pick (merged e) := by
  unfold merged EngineMetrics.sum
  rw [read_cores pick hzero hadd, hadd]

/-- A series that no core has is the other side's. -/
theorem read_others {s : Series} (h : coreSeries s = none) (e : EngineMetrics) :
    e.others.counters s = (merged e).counters s := by
  have hnone : ∀ c, (coreTotals c).counters s = 0 := by
    intro c
    show ((coreSeries s).map c.counters).getD 0 = 0
    rw [h]
    rfl
  have hsum := read_merged (fun t => t.counters s) rfl (fun _ _ => rfl) e
  rw [← hsum]
  unfold EngineMetrics.sum
  simp only [hnone, List.map_const', List.sum_replicate, nsmul_zero, zero_add]

end Reading

section Events

/-- What both engines count. -/
inductive Shared
  | response (status : Nat)
  | latency (elapsed : Nat)
  | opened
  | closed
  | tlsHandshake
  | tlsHandshakeFailure
  | connectFailure
  | retry
  | timeout
  | routeMiss
  | unsupportedGrpc

/-- What only the tokio side counts, whichever engine serves. -/
inductive Beside
  | h3Connection
  | h3Request
  | h3HandshakeFailure
  | mirrored
  | mirrorDropped
  | mirrorSkipped
  | mirrorFailure

/-- An event and where it is counted when the uring engine serves: on a core or beside the cores. -/
inductive Placed (cores : Nat)
  | core (i : Fin (max cores 1)) (e : Shared)
  | peer (e : Shared)
  | beside (e : Beside)

variable (seconds : Seconds)

def onCore (c : CoreMetrics) : Shared → CoreMetrics
  | .response status => c.response status
  | .latency elapsed => c.upstreamLatency seconds elapsed
  | .opened => c.connectionOpened
  | .closed => c.connectionClosed
  | .tlsHandshake => c.tlsHandshake
  | .tlsHandshakeFailure => c.tlsHandshakeFailure
  | .connectFailure => c.connectFailure
  | .retry => c.retry
  | .timeout => c.timeout
  | .routeMiss => c.routeMiss
  | .unsupportedGrpc => c.unsupportedGrpc

def onHyper (m : Metrics) : Shared → Metrics
  | .response status => recordResponse m status
  | .latency elapsed => recordUpstreamLatency m seconds elapsed
  | .opened => connectionOpened m
  | .closed => connectionDropped m
  | .tlsHandshake => recordTlsHandshake m
  | .tlsHandshakeFailure => recordTlsHandshakeFailure m
  | .connectFailure => recordConnectFailure m
  | .retry => recordRetry m
  | .timeout => recordUpstreamTimeout m
  | .routeMiss => recordRouteMiss m
  | .unsupportedGrpc => recordUnsupportedGrpc m

def onTokio (m : Metrics) : Beside → Metrics
  | .h3Connection => recordH3Connection m
  | .h3Request => recordH3Request m
  | .h3HandshakeFailure => recordH3HandshakeFailure m
  | .mirrored => recordMirrored m
  | .mirrorDropped => recordMirrorDropped m
  | .mirrorSkipped => recordMirrorSkipped m
  | .mirrorFailure => recordMirrorFailure m

/-- The events, counted by the hyper engine alone. -/
def alone {cores : Nat} (m : Metrics) : Placed cores → Metrics
  | .core _ e => onHyper seconds m e
  | .peer e => onHyper seconds m e
  | .beside e => onTokio m e

/-- The events, counted where they are placed. -/
def spread {cores : Nat} (e : EngineMetrics) : Placed cores → EngineMetrics
  | .core i event => { e with cores := e.cores.modify i fun c => onCore seconds c event }
  | .peer event => { e with peer := e.peer.map fun m => onHyper seconds m event }
  | .beside event => { e with peer := e.peer.map fun m => onTokio m event }

end Events

section Shares

variable (seconds : Seconds)

theorem increment_add {ι : Type} [DecidableEq ι] (counts : ι → Counter) (i : ι) :
    increment counts i = counts + increment 0 i := by
  unfold increment
  ext1 j
  by_cases hj : j = i
  · subst hj
    simp
  · simp [hj]

/-- What an event adds to the numbers of whoever counts it. -/
def share (e : Shared) : Totals := totals (onHyper seconds {} e)

theorem bucket_add {counts : Fin 12 → Counter} (elapsed : Nat) :
    (match bucketOf seconds elapsed with
      | some i => increment counts i
      | none => counts) = counts + (match bucketOf seconds elapsed with
      | some i => increment 0 i
      | none => 0) := by
  cases bucketOf seconds elapsed with
  | none => exact (add_zero _).symm
  | some i => exact increment_add counts i

theorem advance_add (m : Metrics) (s : Series) :
    totals (advance m s) = totals m + totals (advance {} s) :=
  Totals.ext (add_zero _).symm (add_zero _).symm (add_zero _).symm (add_zero _).symm
    (add_zero _).symm (increment_add m.counters s)

theorem advance_asHyper (c : CoreMetrics) (x : CoreSeries) :
    asHyper (c.advance x) = advance (asHyper c) (pageSeries x) := by
  have hcounters : (asHyper (c.advance x)).counters =
      increment (asHyper c).counters (pageSeries x) := by
    ext1 s
    show ((coreSeries s).map (increment c.counters x)).getD 0 = _
    unfold increment
    by_cases hs : s = pageSeries x
    · have hread := (coreSeries_iff s x).mpr hs
      subst hs
      rw [hread, Function.update_self]
      show Function.update c.counters x (c.counters x + 1) x =
        ((coreSeries (pageSeries x)).map c.counters).getD 0 + 1
      rw [hread, Function.update_self]
      rfl
    · have hother : coreSeries s ≠ some x := fun hread => hs ((coreSeries_iff s x).mp hread)
      rw [Function.update_of_ne hs]
      show _ = ((coreSeries s).map c.counters).getD 0
      cases hread : coreSeries s with
      | none => rfl
      | some y =>
          rw [hread] at hother
          exact Function.update_of_ne (fun heq => hother (congrArg some heq)) _ _
  exact congrArg (fun counters => { asHyper c with counters := counters }) hcounters

/-- A core counts what the other engine counts. -/
theorem onCore_asHyper (c : CoreMetrics) (e : Shared) :
    asHyper (onCore seconds c e) = onHyper seconds (asHyper c) e := by
  cases e with
  | response | latency | opened | closed => rfl
  | _ => exact advance_asHyper ..

theorem hyper_adds (m : Metrics) (e : Shared) :
    totals (onHyper seconds m e) = totals m + share seconds e := by
  cases e with
  | response status =>
      exact Totals.ext (increment_add ..) (add_zero _).symm (add_zero _).symm (add_zero _).symm
        (add_zero _).symm (add_zero _).symm
  | latency elapsed =>
      exact Totals.ext (add_zero _).symm (bucket_add seconds elapsed)
        (congrArg (m.upstreamLatency.sumNanos + ·) (zero_add _).symm) rfl (add_zero _).symm
        (add_zero _).symm
  | opened =>
      exact Totals.ext (add_zero _).symm (add_zero _).symm (add_zero _).symm (add_zero _).symm
        rfl (add_zero _).symm
  | closed =>
      exact Totals.ext (add_zero _).symm (add_zero _).symm (add_zero _).symm (add_zero _).symm
        (sub_eq_add_neg ..) (add_zero _).symm
  | _ => exact advance_add ..

theorem core_adds (c : CoreMetrics) (e : Shared) :
    coreTotals (onCore seconds c e) = coreTotals c + share seconds e := by
  unfold coreTotals
  rw [onCore_asHyper]
  exact hyper_adds seconds (asHyper c) e

/-- What an event adds to the numbers of the process. -/
def placedShare {cores : Nat} : Placed cores → Totals
  | .core _ e => share seconds e
  | .peer e => share seconds e
  | .beside e => totals (onTokio {} e)

theorem tokio_adds (m : Metrics) (e : Beside) :
    totals (onTokio m e) = totals m + totals (onTokio {} e) := by
  cases e <;> exact advance_add ..

theorem alone_adds (cores : Nat) : Adds (fun _ => True) (alone seconds) totals
    (placedShare seconds : Placed cores → Totals) := by
  intro m p _
  refine ⟨trivial, ?_⟩
  cases p with
  | core _ e => exact hyper_adds seconds m e
  | peer e => exact hyper_adds seconds m e
  | beside e => exact tokio_adds m e

/-- A process of so many cores, with an engine beside them. -/
structure Whole (cores : Nat) (e : EngineMetrics) : Prop where
  size : e.cores.length = max cores 1
  peer : e.peer ≠ none

theorem spread_adds (cores : Nat) : Adds (Whole cores) (spread seconds) merged
    (placedShare seconds : Placed cores → Totals) := by
  intro e p hwhole
  obtain ⟨m, hm⟩ := Option.ne_none_iff_exists'.mp hwhole.peer
  have hothers : ∀ f : Metrics → Metrics, ∀ t, totals (f m) = totals m + t →
      merged { e with peer := e.peer.map f } = merged e + t := by
    intro f t ht
    have hbefore : e.others = totals m := by
      unfold EngineMetrics.others
      rw [hm]
      rfl
    have hafter : EngineMetrics.others { e with peer := e.peer.map f } = totals (f m) := by
      unfold EngineMetrics.others
      rw [hm]
      rfl
    unfold merged
    rw [hafter, ht, hbefore, add_assoc]
  cases p with
  | core i event =>
      have hi : i < e.cores.length := by
        rw [hwhole.size]
        exact i.isLt
      refine ⟨⟨(List.length_modify ..).trans hwhole.size, hwhole.peer⟩, ?_⟩
      have hcores := readAll_modify (fun c => core_adds seconds c event) e.cores hi
      show readAll coreTotals (e.cores.modify i fun c => onCore seconds c event) + e.others = _
      rw [hcores, add_right_comm]
      rfl
  | peer event =>
      refine ⟨⟨hwhole.size, ?_⟩, hothers _ _ (hyper_adds seconds m event)⟩
      rw [spread, hm]
      nofun
  | beside event =>
      refine ⟨⟨hwhole.size, ?_⟩, hothers _ _ (tokio_adds m event)⟩
      rw [spread, hm]
      nofun

end Shares

section Pages

/-- The page of a process is that of an engine with its numbers. -/
theorem render_merged (seconds : Seconds) {e : EngineMetrics} {m : Metrics}
    (h : merged e = totals m) (generation : Counter) (pinned : Bool) :
    e.renderPrometheus seconds generation pinned =
      renderPrometheus seconds m generation pinned := by
  have hread : ∀ pick : Totals → Counter, pick 0 = 0 →
      (∀ a b, pick (a + b) = pick a + pick b) →
      e.sum (fun c => pick (coreTotals c)) + pick e.others = pick (totals m) := by
    intro pick hzero hadd
    rw [read_merged pick hzero hadd, h]
  have hrequests : ∀ i, e.sum (·.requests i) + e.others.requests i = m.requests i :=
    fun i => hread (fun t => t.requests i) rfl fun _ _ => rfl
  have hbuckets : ∀ i, e.sum (·.buckets i) + e.others.latencyBuckets i =
      m.upstreamLatency.buckets i :=
    fun i => hread (fun t => t.latencyBuckets i) rfl fun _ _ => rfl
  have hnanos : e.sum (·.sumNanos) + e.others.latencyNanos = m.upstreamLatency.sumNanos :=
    hread (fun t => t.latencyNanos) rfl fun _ _ => rfl
  have hcount : e.sum (·.latencyCount) + e.others.latencyCount = m.upstreamLatency.count :=
    hread (fun t => t.latencyCount) rfl fun _ _ => rfl
  have hactive : e.activeConnections + e.others.activeConnections = m.activeConnections :=
    hread (fun t => t.activeConnections) rfl fun _ _ => rfl
  have hplain : ∀ x s, pageSeries x = s →
      e.sum (·.counters x) + e.others.counters s = m.counters s := by
    rintro x _ rfl
    have hpick : ∀ c : CoreMetrics, c.counters x = (coreTotals c).counters (pageSeries x) := by
      intro c
      show _ = ((coreSeries (pageSeries x)).map c.counters).getD 0
      rw [(coreSeries_iff _ x).mpr rfl]
      rfl
    simp only [hpick]
    exact hread (fun t => t.counters (pageSeries x)) rfl fun _ _ => rfl
  have hothers : ∀ s, coreSeries s = none → e.others.counters s = m.counters s := by
    intro s hs
    rw [read_others hs, h]
    rfl
  have hrows : e.plain = plain m := by
    unfold EngineMetrics.plain plain
    dsimp only
    rw [hplain .tlsHandshakes .tlsHandshakes rfl,
      hplain .tlsHandshakeFailures .tlsHandshakeFailures rfl,
      hplain .dispatchedHere .dispatchUring rfl, hplain .dispatchedAway .dispatchHyper rfl,
      hplain .connectFailures .connectFailures rfl, hplain .retries .retries rfl,
      hplain .timeouts .timeouts rfl, hplain .routeMisses .routeMisses rfl,
      hothers .h3Connections rfl, hothers .h3Requests rfl, hothers .h3HandshakeFailures rfl,
      hothers .mirrored rfl, hothers .mirrorDropped rfl, hothers .mirrorSkipped rfl,
      hothers .mirrorFailures rfl, hplain .unsupportedH2c .unsupportedH2c rfl,
      hplain .unsupportedGrpc .unsupportedGrpc rfl]
  unfold EngineMetrics.renderPrometheus renderPrometheus Histogram.render
  simp only [hrequests, hbuckets, hnanos, hcount, hactive, hrows]

/-- However the events of a process are spread over its cores and what is beside them, it is
scraped as the page of one engine that counted all of them. -/
theorem scraped_alike (seconds : Seconds) (cores : Nat) (events : List (Placed cores))
    (generation : Counter) (pinned : Bool) :
    (events.foldl (spread seconds) (.withPeer cores {})).renderPrometheus seconds generation
        pinned =
      renderPrometheus seconds (events.foldl (alone seconds) {}) generation pinned := by
  have hwhole : Whole cores (.withPeer cores {}) := ⟨List.length_replicate .., nofun⟩
  have hblank : merged (.withPeer cores {}) = totals {} := by
    have hfresh : coreTotals {} = 0 := by
      refine Totals.ext rfl rfl rfl rfl rfl ?_
      ext1 s
      show ((coreSeries s).map (0 : CoreSeries → Counter)).getD 0 = 0
      cases coreSeries s <;> rfl
    show readAll coreTotals (List.replicate (max cores 1) {}) + totals {} = totals {}
    unfold readAll
    rw [List.map_replicate, List.sum_replicate, hfresh, nsmul_zero, zero_add]
  exact render_merged seconds
    ((spread_adds seconds cores).agree (alone_adds seconds cores) hwhole trivial hblank events)
    generation pinned

end Pages

end Ramjet.Engine.MetricsParity
