/- digest: The mirror lane of a core, and that only a connection moved on is copied to it. -/

import Ramjet.Engine.Worker.Turns

set_option autoImplicit false
set_option relaxedAutoImplicit false

namespace Ramjet.Engine.Worker.Lanes

open Ramjet.Base.Octets
open Ramjet.Base.Net
open Ramjet.Engine.Codec.BodyFraming
open Ramjet.Engine.IdlePool
open Ramjet.Engine.Route
open Ramjet.Engine.Worker.Accounting
open Ramjet.Engine.Worker.Connection
open Ramjet.Engine.Worker.Core
open Ramjet.Engine.Worker.Serving
open Ramjet.Engine.Worker.Requests
open Ramjet.Engine.Worker.Handlers
open Ramjet.Engine.Worker.Loop
open Ramjet.Router.Stats

/-- What a core has counted of its mirror lane, beside what it was set up with. -/
structure Lane where
  config : Config
  mirrored : List MirrorCopy
  skipped : Nat
  failed : Nat

def lane (w : World) : Lane := ⟨w.config, w.mirrored, w.mirrorSkipped, w.mirrorFailed⟩

/-- A copy is skipped. -/
def Lane.skip (l : Lane) : Lane := { l with skipped := l.skipped + 1 }

/-- A copy has nowhere to go. -/
def Lane.fail (l : Lane) : Lane := { l with failed := l.failed + 1 }

/-- A copy is queued. -/
def Lane.send (l : Lane) (copy : MirrorCopy) : Lane := { l with mirrored := l.mirrored ++ [copy] }

/-- A copy whose body is complete is handed over, or skipped for its size. -/
def Lane.hand (l : Lane) (copy : MirrorCopy) : Lane :=
  if !l.config.mirror then l else if copy.tooLarge then l.skip else l.send copy

variable (env : Outside) (ans : Answers)

section Primitives

variable (w : World) (fd up : Fd) (c : Conn)

@[simp] theorem lane_setSlot (s : Slot) : lane (w.setSlot fd s) = lane w := rfl

@[simp] theorem lane_setClient : lane (w.setClient fd c) = lane w := rfl

@[simp] theorem lane_remember (m : Moment) : lane (w.remember m) = lane w := rfl

@[simp] theorem lane_bump : lane (w.bumpGeneration fd) = lane w := rfl

@[simp] theorem lane_submit (k : Kind) (payload : Bytes) :
    lane (w.submit k fd payload) = lane w := rfl

@[simp] theorem lane_opening : lane (w.opening fd) = lane w := rfl

@[simp] theorem lane_sysClose : lane (w.sysClose fd) = lane w := rfl

@[simp] theorem lane_retire (op : Op) (outcome : Outcome) :
    lane (w.retire op outcome) = lane w := rfl

@[simp] theorem lane_close : lane (w.close ans fd) = lane w := by
  unfold World.close World.countOff
  dsimp only
  split <;> split <;> rfl

@[simp] theorem lane_closeAll (fds : List Fd) : lane (World.closeAll ans w fds) = lane w := by
  induction fds generalizing w with
  | nil => rfl
  | cons f rest ih => exact (ih (w.close ans f)).trans (lane_close ans w f)

@[simp] theorem lane_writeRoute (write : RouteTotals → RouteTotals) :
    lane (writeRoute w c write) = lane w := by
  unfold writeRoute
  split <;> rfl

@[simp] theorem lane_recordResponse (status : Nat) :
    lane (recordResponse w c status).1 = lane w := by
  unfold recordResponse
  split
  · rfl
  · exact lane_writeRoute ..

@[simp] theorem lane_recordUpstreamLatency : lane (recordUpstreamLatency w c) = lane w := by
  unfold recordUpstreamLatency
  split
  · rfl
  · exact lane_writeRoute ..

@[simp] theorem lane_answer (status : Nat) : lane (answer w c status) = lane w := by
  unfold answer
  split <;> rfl

@[simp] theorem lane_holdInflight : lane (holdInflight w c).1 = lane w := by
  unfold holdInflight
  split
  · rfl
  · split <;> rfl

@[simp] theorem lane_releaseInflight : lane (releaseInflight w c).1 = lane w := by
  unfold releaseInflight
  dsimp only
  split
  · split <;> rfl
  · rfl

end Primitives

section Exchanges

variable {env} {ans} (w : World) (fd : Fd) (c : Conn)

@[simp] theorem lane_letGo : lane (letGo ans w c) = lane w := by
  unfold letGo
  split
  · rfl
  · split <;> simp

@[simp] theorem lane_lose : lane (lose ans w c) = lane w := by
  unfold lose
  split <;> simp

@[simp] theorem lane_failUnsupported (status : Nat) (body : Bytes) (close : Bool)
    (unsupported : Option Bytes) :
    lane (failUnsupported env ans w fd status body close unsupported) = lane w := by
  unfold failUnsupported
  split
  · simp [refuse]
  · rfl

@[simp] theorem lane_fail (status : Nat) (body : Bytes) (close : Bool) :
    lane (fail env ans w fd status body close) = lane w := lane_failUnsupported ..

@[simp] theorem lane_releaseUpstream (up : Fd) : lane (releaseUpstream ans w c up) = lane w := by
  unfold releaseUpstream
  dsimp only
  split
  · split
    · split
      · rfl
      · split
        · rfl
        · exact lane_close ..
    · exact lane_close ..
  · exact lane_close ..

@[simp] theorem lane_finishResponse : lane (finishResponse ans w fd) = lane w := by
  unfold finishResponse
  split
  · dsimp only
    split <;> simp
  · rfl

@[simp] theorem lane_handOff : lane (handOff w fd).1 = lane w := by
  unfold handOff
  split
  · split <;> rfl
  · rfl

@[simp] theorem lane_flushDown : lane (flushDown ans w fd) = lane w := by
  unfold flushDown
  split
  · dsimp only
    split
    · split <;> rfl
    · rfl
  · rfl

@[simp] theorem lane_flushUp : lane (flushUp ans w fd) = lane w := by
  unfold flushUp
  split
  · split
    · rfl
    · dsimp only
      split
      · split <;> rfl
      · rfl
  · rfl

@[simp] theorem lane_readUp : lane (readUp ans w fd) = lane w := by
  unfold readUp
  split
  · split
    · rfl
    · split <;> rfl
  · rfl

@[simp] theorem lane_readDown : lane (readDown ans w fd) = lane w := by
  unfold readDown
  split
  · split <;> rfl
  · rfl

@[simp] theorem lane_settle : lane (settle ans w fd) = lane w := by
  unfold settle
  split
  · split <;> simp
  · rfl

@[simp] theorem lane_drive : lane (drive ans w fd).1 = lane w := by
  unfold drive
  split
  · split <;> simp
  · rfl

@[simp] theorem lane_exhausted : lane (exhausted env ans w fd).1 = lane w := by
  simp [exhausted]

@[simp] theorem lane_lease : lane (lease w fd) = lane w := rfl

@[simp] theorem lane_openUpstream : lane (openUpstream env ans w fd).1 = lane w := by
  unfold openUpstream
  split
  · rename_i conn _
    split
    · exact lane_exhausted ..
    · have hheld := lane_holdInflight w
        { conn with dispatchedAt := some w.clock
                    deadline := some (w.clock + w.config.responseTimeout) }
      dsimp only
      split
      · exact hheld
      · split
        · exact hheld
        · split
          · exact hheld
          · split <;> exact hheld
  · rfl

@[simp] theorem lane_retryOrFail : lane (retryOrFail env ans w fd).1 = lane w := by
  unfold retryOrFail
  split
  · dsimp only
    split <;> simp
  · rfl

@[simp] theorem lane_upstreamFailed : lane (upstreamFailed env ans w fd).1 = lane w := by
  unfold upstreamFailed
  split
  · dsimp only
    split <;> simp
  · rfl

@[simp] theorem lane_upstreamGarbage : lane (upstreamGarbage env ans w fd).1 = lane w := by
  unfold upstreamGarbage
  split
  · dsimp only
    split <;> simp
  · rfl

@[simp] theorem lane_beginTunnel : lane (beginTunnel env ans w fd).1 = lane w := by
  unfold beginTunnel
  split
  · split
    · simp
    · simp [tunnelled]
  · rfl

@[simp] theorem lane_pumpTunnel : lane (pumpTunnel ans w fd).1 = lane w := by
  unfold pumpTunnel
  split <;> rfl

@[simp] theorem lane_relayHead (framing : Framing) :
    lane (relayHead env w c framing).1 = lane w := by
  simp [relayHead]

@[simp] theorem lane_relayBody : lane (relayBody env ans w fd c).1 = lane w := by
  unfold relayBody
  split
  · split
    · simp
    · dsimp only
      split <;> simp
  · split <;> simp

@[simp] theorem lane_parseResponse : lane (parseResponse env ans w fd).1 = lane w := by
  unfold parseResponse
  split
  · split
    · rfl
    · split
      · simp
      · dsimp only
        split
        · rfl
        · simp
        · split
          · simp
          · split <;> simp
  · rfl

end Exchanges

section Completions

variable {env} {ans} (w : World) (fd up : Fd)

@[simp] theorem lane_arm (k : Kind) : lane (arm ans w k fd) = lane w := by
  unfold arm
  split <;> rfl

@[simp] theorem lane_startClient (tls : Bool) : lane (startClient ans w fd tls).1 = lane w := by
  unfold startClient
  split
  · rfl
  · simp

@[simp] theorem lane_onClientRead (outcome : Outcome) :
    lane (onClientRead env ans w fd outcome).1 = lane w := by
  unfold onClientRead
  split <;> rfl

@[simp] theorem lane_onClientWrite (outcome : Outcome) :
    lane (onClientWrite w fd outcome).1 = lane w := by
  unfold onClientWrite
  split <;> rfl

@[simp] theorem lane_onUpstreamEof : lane (onUpstreamEof env ans w fd).1 = lane w := by
  unfold onUpstreamEof
  split
  · split
    · rfl
    · split <;> simp
  · rfl

@[simp] theorem lane_onUpstreamRead (outcome : Outcome) (stamps : List Nat) :
    lane (onUpstreamRead env ans w up outcome stamps).1 = lane w := by
  unfold onUpstreamRead
  split
  · exact lane_close ..
  · split
    · dsimp only
      split <;> simp
    · rfl
  · rfl

@[simp] theorem lane_onUpstreamWrite (payload : Bytes) (outcome : Outcome) :
    lane (onUpstreamWrite env ans w up payload outcome).1 = lane w := by
  unfold onUpstreamWrite
  split
  · split
    · split <;> simp
    · rfl
  · rfl

@[simp] theorem lane_onConnected (ok : Bool) : lane (onConnected env ans w up ok).1 = lane w := by
  unfold onConnected
  dsimp only
  split
  · split
    · split
      · rfl
      · exact (lane_retryOrFail ..).trans rfl
    · rfl
  · rfl

@[simp] theorem lane_onTick : lane (onTick ans w).1 = lane w := by
  unfold onTick
  dsimp only
  split
  · rfl
  · exact (lane_closeAll ..).trans rfl

@[simp] theorem lane_sweepClient (now : Nat) : lane (sweepClient env ans w fd now).1 = lane w := by
  unfold sweepClient
  split
  · split
    · split <;> simp
    · rfl
  · rfl

@[simp] theorem lane_driveAdmin : lane (driveAdmin ans w fd) = lane w := by
  unfold driveAdmin
  split
  · split
    · split <;> rfl
    · split <;> rfl
  · rfl

@[simp] theorem lane_startAdmin : lane (startAdmin ans w fd) = lane w := by
  unfold startAdmin
  split
  · rfl
  · simp

@[simp] theorem lane_onAdminRead (outcome : Outcome) :
    lane (onAdminRead env ans w fd outcome) = lane w := by
  unfold onAdminRead
  split
  · dsimp only
    split <;> simp
  · rfl

@[simp] theorem lane_onAdminWrite (outcome : Outcome) :
    lane (onAdminWrite ans w fd outcome) = lane w := by
  unfold onAdminWrite
  split
  · split <;> simp
  · rfl

@[simp] theorem lane_onAccept (outcome : Outcome) (k : Kind) :
    lane (onAccept ans w fd outcome k).1 = lane w := by
  cases outcome with
  | accepted connection =>
      unfold onAccept
      dsimp only
      split
      · rfl
      · split
        · exact lane_arm ..
        · split
          · exact (lane_startAdmin ..).trans (lane_arm ..)
          · exact (lane_startClient ..).trans (lane_arm ..)
  | failed transient =>
      unfold onAccept
      cases transient with
      | true =>
          dsimp only
          split
          · rfl
          · exact lane_arm ..
      | false => rfl
  | _ => rfl

/-- Descriptors that are closed as they come leave the lane alone. -/
theorem lane_turnedAway (fds : List Fd) :
    lane (fds.foldl (fun w fd => (w.opening fd).sysClose fd) w) = lane w := by
  induction fds generalizing w with
  | nil => rfl
  | cons f rest ih => exact ih _

@[simp] theorem lane_onIntake (outcome : Outcome) (tls : Bool) :
    lane (onIntake w fd outcome tls).1 = lane w := by
  unfold onIntake
  split
  · dsimp only
    split
    · split
      · exact lane_turnedAway ..
      · exact (lane_turnedAway ..).trans rfl
    · split <;> rfl
  · rfl

@[simp] theorem lane_deal (tls : Bool) (ready : List Fd) :
    lane (deal ans w fd tls ready).1 = lane w := by
  unfold deal
  split
  · simp [armIntake]
  · simp

@[simp] theorem lane_onNotify (outcome : Outcome) : lane (onNotify w outcome).1 = lane w := by
  unfold onNotify
  split <;> rfl

@[simp] theorem lane_notes : lane (notes env ans w).1 = lane w := by
  unfold notes
  split <;> simp [armNotify]

@[simp] theorem lane_dropStale (op : Op) (outcome : Outcome) :
    lane (dropStale w op outcome) = lane w := by
  unfold dropStale
  split <;> rfl

theorem lane_deliver (op : Op) (outcome : Outcome) (stamps : List Nat) :
    lane (deliver env ans w op outcome stamps).1 = lane w := by
  unfold deliver
  dsimp only
  split <;> simp

/-- No completion reaches the lane by itself. -/
theorem lane_dispatch (op : Op) (outcome : Outcome) :
    lane (dispatch env ans w op outcome).1 = lane w := by
  unfold dispatch
  dsimp only
  split
  · rw [lane_dropStale, lane_retire]
  · rw [lane_deliver, lane_retire]

theorem lane_drainSlot : lane (drainSlot ans w fd) = lane w := by
  unfold drainSlot
  split
  · unfold drainClient
    dsimp only
    split
    · rfl
    · exact lane_close ..
  · unfold drainAdmin
    split
    · rfl
    · exact lane_close ..
  · rfl

theorem lane_drainSlots (fds : List Fd) : lane (fds.foldl (drainSlot ans) w) = lane w := by
  induction fds generalizing w with
  | nil => rfl
  | cons f rest ih => exact (ih _).trans (lane_drainSlot w f)

theorem lane_beginDrain : lane (beginDrain ans w) = lane w := by
  unfold beginDrain
  extract_lets w₁ w₂ w₃ w₄ idle w₅
  calc lane ((allFds w₅).foldl (drainSlot ans) w₅) = lane w₅ := lane_drainSlots w₅ _
    _ = lane w₄ := lane_closeAll ans _ _
    _ = lane w₂ := lane_closeAll ans _ _
    _ = lane w := lane_closeAll ans _ _

end Completions

end Ramjet.Engine.Worker.Lanes
