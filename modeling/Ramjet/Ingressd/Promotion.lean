/- digest: Stepping a canary's weight up on evidence, and pulling it to zero when it turns. -/

import Ramjet.Controller.Config
import Ramjet.Router.Stats

set_option autoImplicit false
set_option relaxedAutoImplicit false

namespace Ramjet.Ingressd.Promotion

open Ramjet.Base.Octets
open Ramjet.Base.AssocMap
open Ramjet.Router.Rule
open Ramjet.Router.Table
open Ramjet.Router.Stats
open Ramjet.Controller.Objects
open Ramjet.Controller.Annotations
open Ramjet.Controller.Config

section Deciding

def STATUS_PROMOTED : Bytes := ascii "promoted"

/-- The floating-point arithmetic the gates are computed with. -/
structure Rates (F : Type) where
  ofCount : Nat → F
  zero : F
  hundred : F
  thousand : F
  mul : F → F → F
  div : F → F → F
  lt : F → F → Bool
  /-- The number with one decimal. -/
  fixed1 : F → Bytes
  /-- The number with two decimals. -/
  fixed2 : F → Bytes

variable {F : Type} (rates : Rates F)

/-- 5xx as a percentage of requests, absent with no requests to divide by. -/
def errorPercent (totals : RouteTotals) : Option F :=
  if 0 < totals.requests then
    some (rates.div (rates.mul (rates.ofCount totals.errors5xx) rates.hundred)
      (rates.ofCount totals.requests))
  else none

/-- Mean upstream latency in milliseconds, absent with no observations. -/
def avgLatencyMs (totals : RouteTotals) : Option F :=
  if 0 < totals.upstreamLatencyCount then
    some (rates.div (rates.div (rates.ofCount totals.upstreamLatencyMicros) rates.thousand)
      (rates.ofCount totals.upstreamLatencyCount))
  else none

/-- One interval's traffic, both sides of the split. -/
structure Window where
  canary : RouteTotals := {}
  stable : RouteTotals := {}
  deriving DecidableEq, Repr

/-- What one pass decided for one canary. -/
inductive Verdict where
  | hold (canary stable : Nat)
  | step (toWeight : Nat)
  | promote
  | rollBack (reason : Bytes)
  deriving DecidableEq, Repr

/-- The next weight after `weight`, absent once the last step is reached. -/
def nextStep (policy : PromotionAnnotations F) (weight : Nat) : Option Nat :=
  policy.steps.find? fun step => weight < step

/-- Why the errors of a window are too many, if they are. -/
def errorBreach (policy : PromotionAnnotations F) (window : Window) : Option Bytes :=
  match errorPercent rates window.canary with
  | some percent =>
      if rates.lt policy.max5xxPercent percent then
        some (ascii "5xx " ++ rates.fixed2 percent ++ ascii "% over " ++
          rates.fixed2 policy.max5xxPercent ++ ascii "%")
      else none
  | none => none

/-- Why the canary of a window is too slow, if it is. -/
def latencyBreach (policy : PromotionAnnotations F) (window : Window) : Option Bytes :=
  match avgLatencyMs rates window.canary, avgLatencyMs rates window.stable with
  | some canary, some stable =>
      let ceiling := rates.mul stable policy.maxLatencyFactor
      if rates.lt ceiling canary then
        some (ascii "latency " ++ rates.fixed1 canary ++ ascii "ms over " ++
          rates.fixed1 ceiling ++ ascii "ms (" ++ rates.fixed1 stable ++ ascii "ms x " ++
          rates.fixed2 policy.maxLatencyFactor ++ ascii ")")
      else none
  | _, _ => none

/-- Decides what to do with one canary, given one window. -/
def decide (policy : PromotionAnnotations F) (weight : Nat) (window : Window) : Verdict :=
  if window.canary.requests < policy.minRequests ∨ window.stable.requests < policy.minRequests then
    .hold window.canary.requests window.stable.requests
  else
    match errorBreach rates policy window with
    | some reason => .rollBack reason
    | none =>
        match latencyBreach rates policy window with
        | some reason => .rollBack reason
        | none =>
            match nextStep policy weight with
            | some toWeight => .step toWeight
            | none => .promote

def rolledBack (policy : PromotionAnnotations F) : Bool :=
  policy.status.any fun status => STATUS_ROLLED_BACK.isPrefixOf status

/-- Whether this canary is finished, one way or the other. -/
def isFinished (policy : PromotionAnnotations F) : Bool :=
  rolledBack policy || policy.status == some STATUS_PROMOTED

end Deciding

section Reading

/-- Whether a compiled host entry is the one a promotion target named. -/
def hostMatches (host : RouteHost) (wanted : Bytes) : Bool :=
  match host with
  | .exact name => wanted == name
  | .wildcard parent => wanted.take 2 == ascii "*." && wanted.drop 2 == parent
  | .catchAll => wanted == ascii "*"

/-- Counters as of the end of a pass, of one canary. -/
structure Baseline where
  totals : RouteTotals := {}
  canary : RouteTotals := {}
  deriving DecidableEq, Repr

/-- What the totals have left once the canary's share is taken out. -/
def Baseline.stable (b : Baseline) : RouteTotals := b.totals.saturatingSub b.canary

/-- The published table and its counters, as they stand when they are read. -/
structure Scrape where
  table : RouteTable
  slots : List RouteSlot

/-- The counter blocks of the routes a canary shadows. -/
def shadowed (scrape : Scrape) (wanted : List PromotionRoute) : List RouteSlot :=
  (routes scrape.table).filterMap fun e =>
    if wanted.any fun w => hostMatches e.1 w.host && w.path == e.2.path && w.pathType == e.2.pathType
    then scrape.slots[e.2.statsIndex]?
    else none

/-- Sums the counters of every route this canary shadows. -/
def read (scrape : Scrape) (wanted : List PromotionRoute) : Option Baseline :=
  match shadowed scrape wanted with
  | [] => none
  | found => some (found.foldl
      (fun reading slot =>
        ⟨reading.totals.add slot.totals, reading.canary.add slot.canaryTotals⟩) {})

/-- The traffic between two readings. -/
def windowOf (reading previous : Baseline) : Window :=
  { canary := reading.canary.saturatingSub previous.canary
    stable := reading.stable.saturatingSub previous.stable }

end Reading

section Acting

variable {F : Type} (rates : Rates F)

inductive AuditReason where
  | canaryStepped
  | canaryPromoted
  | canaryRolledBack
  deriving DecidableEq, Repr

/-- What the audit trail is told about a decision that was carried out. -/
structure CanaryDecision (F : Type) where
  reason : AuditReason
  ingress : Bytes
  subject : Option (ObjectKey × Bytes)
  fromWeight : Nat
  toWeight : Nat
  detail : Bytes
  window : Window
  canary5xxPercent : F
  canaryLatencyMs : F
  stable5xxPercent : F
  stableLatencyMs : F

/-- What a verdict asks to be written, and how it is told. -/
structure Order where
  reason : AuditReason
  detail : Bytes
  toWeight : Nat
  annotations : List (Bytes × Bytes)
  deriving DecidableEq, Repr

def orderOf (weight : Nat) : Verdict → Option Order
  | .hold _ _ => none
  | .step toWeight => some
      { reason := .canaryStepped
        detail := ascii "canary healthy; weight " ++ decimal weight ++ ascii " -> " ++ decimal toWeight
        toWeight := toWeight
        annotations := [(ANNOTATION_CANARY_WEIGHT, decimal toWeight)] }
  | .promote => some
      { reason := .canaryPromoted
        detail := ascii "canary healthy at " ++ decimal weight ++
          ascii "%, the last step; swap the production backend when ready"
        toWeight := weight
        annotations := [(ANNOTATION_AUTO_PROMOTE_STATUS, STATUS_PROMOTED)] }
  | .rollBack reason => some
      { reason := .canaryRolledBack
        detail := ascii "rolled back from " ++ decimal weight ++ ascii "%: " ++ reason
        toWeight := 0
        annotations := [(ANNOTATION_CANARY_WEIGHT, ascii "0"),
          (ANNOTATION_AUTO_PROMOTE, ascii "false"),
          (ANNOTATION_AUTO_PROMOTE_STATUS, STATUS_ROLLED_BACK ++ ascii ": " ++ reason)] }

def Verdict.terminal : Verdict → Bool
  | .promote => true
  | .rollBack _ => true
  | _ => false

/-- A patch that was sent to one Ingress, and what came back. -/
structure Patch where
  ingress : ObjectKey
  annotations : List (Bytes × Bytes)
  outcome : Except Bytes Unit

/-- What the loop keeps between passes. -/
structure Promoter where
  baselines : Map ObjectKey Baseline := []
  due : Map ObjectKey Nat := []
  finished : List ObjectKey := []
  pinnedReported : Bool := false

/-- A target a pass comes to: the counters it would read, and how a patch of it would end. -/
structure Visit (F : Type) where
  target : PromotionTarget F
  scrape : Scrape
  patched : Except Bytes Unit

/-- What happened to one target in one pass. -/
structure Report (F : Type) where
  target : PromotionTarget F
  reading : Option Baseline
  previous : Option Baseline := none
  verdict : Option Verdict := none
  patch : Option Patch := none
  audited : Option (CanaryDecision F) := none

/-- Writes what the verdict asks for, and says so. -/
def apply (p : Promoter) (visit : Visit F) (window : Window) (verdict : Verdict) :
    Promoter × Option Patch × Option (CanaryDecision F) :=
  let target := visit.target
  match orderOf target.weight verdict with
  | none => (p, none, none)
  | some order =>
      let patch : Patch := ⟨target.ingress, order.annotations, visit.patched⟩
      match visit.patched with
      | .error _ => (p, some patch, none)
      | .ok () =>
          (if verdict.terminal then { p with finished := target.ingress :: p.finished } else p,
            some patch,
            some
              { reason := order.reason
                ingress := target.ingress.display
                subject := target.uid.map fun uid => (target.ingress, uid)
                fromWeight := target.weight
                toWeight := order.toWeight
                detail := order.detail
                window := window
                canary5xxPercent := (errorPercent rates window.canary).getD rates.zero
                canaryLatencyMs := (avgLatencyMs rates window.canary).getD rates.zero
                stable5xxPercent := (errorPercent rates window.stable).getD rates.zero
                stableLatencyMs := (avgLatencyMs rates window.stable).getD rates.zero })

/-- Reads one canary's window and acts on it. -/
def evaluate (p : Promoter) (visit : Visit F) : Promoter × Report F :=
  let target := visit.target
  match read visit.scrape target.routes with
  | none => (p, { target := target, reading := none })
  | some reading =>
      let kept := { p with baselines := insert p.baselines target.ingress reading }
      match get p.baselines target.ingress with
      | none => (kept, { target := target, reading := some reading })
      | some previous =>
          let window := windowOf reading previous
          let verdict := decide rates target.policy target.weight window
          let (p, patch, audited) := apply rates kept visit window verdict
          (p, ⟨target, some reading, some previous, some verdict, patch, audited⟩)

end Acting

section Passes

variable {F : Type} (rates : Rates F)

def NANOS : Nat := 1000000000

/-- How long the loop sleeps while a rollback pin is holding it. -/
def IDLE_POLL : Nat := 30 * NANOS

/-- Shortest gap between passes. -/
def MIN_TICK : Nat := NANOS

/-- How far a pass has come. -/
structure Progress (F : Type) where
  promoter : Promoter
  next : Nat := IDLE_POLL
  reports : List (Report F) := []

/-- One target of a pass. -/
def passOver (now : Nat) (g : Progress F) (visit : Visit F) : Progress F :=
  let key := visit.target.ingress
  if isFinished visit.target.policy || g.promoter.finished.contains key then g
  else
    let deadline := (get g.promoter.due key).getD now
    if now < deadline then
      { g with
        promoter := { g.promoter with due := insert g.promoter.due key deadline }
        next := min g.next (deadline - now) }
    else
      -- Instants are unbounded here; the source aborts where this sum leaves its clock.
      let interval := visit.target.policy.interval * NANOS
      let due := insert g.promoter.due key (now + interval)
      let (promoter, report) := evaluate rates { g.promoter with due := due } visit
      { promoter := promoter, next := min g.next interval, reports := g.reports ++ [report] }

def liveKeys (visits : List (Visit F)) : List ObjectKey := visits.map (·.target.ingress)

/-- Forgets the canaries that have gone. -/
def Promoter.forget (p : Promoter) (live : List ObjectKey) : Promoter :=
  { p with
    baselines := retain p.baselines fun key => live.contains key
    due := retain p.due fun key => live.contains key
    finished := p.finished.filter fun key => live.contains key }

/-- One pass over every candidate, with how long to sleep afterwards. -/
def pass (pinned : Bool) (now : Nat) (p : Promoter) (visits : List (Visit F)) :
    Promoter × Nat × List (Report F) :=
  if pinned then ({ p with pinnedReported := true }, IDLE_POLL, [])
  else
    let p := { p with pinnedReported := false }
    let g := visits.foldl (passOver rates now) ⟨p.forget (liveKeys visits), IDLE_POLL, []⟩
    (g.promoter, max g.next MIN_TICK, g.reports)

/-- A generation the loop takes up: its targets, whether a pin is held, and the time. -/
structure Turn (F : Type) where
  visits : List (Visit F)
  pinned : Bool
  now : Nat

/-- With nobody opted in the loop waits for the next generation; otherwise it makes a pass. -/
def turn (p : Promoter) (t : Turn F) : Promoter × List (Report F) :=
  if t.visits.isEmpty then (p, [])
  else
    let done := pass rates t.pinned t.now p t.visits
    (done.1, done.2.2)

/-- The promoter after a run of turns. -/
def runTurns (p : Promoter) (turns : List (Turn F)) : Promoter :=
  turns.foldl (fun p t => (turn rates p t).1) p

/-- Everything that was reported along a run. -/
def reportsOf (p : Promoter) : List (Turn F) → List (Report F)
  | [] => []
  | t :: turns => (turn rates p t).2 ++ reportsOf (turn rates p t).1 turns

end Passes

end Ramjet.Ingressd.Promotion
