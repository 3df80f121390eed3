/- digest: The state of one serving core, the reactor and the kernel around it. -/

import Ramjet.Engine.Worker.Connection

set_option autoImplicit false
set_option relaxedAutoImplicit false

namespace Ramjet.Engine.Worker.Core

open Ramjet.Base.Octets
open Ramjet.Base.Net
open Ramjet.Base.AssocMap
open Ramjet.Engine.Headers
open Ramjet.Engine.Limits
open Ramjet.Engine.IdlePool
open Ramjet.Engine.Tls
open Ramjet.Engine.Worker.Connection
open Ramjet.Router.Rule
open Ramjet.Router.Stats

/-- Completion tag kinds. -/
inductive Kind where
  | accept
  | adminAccept
  | intake
  | notify
  | downRead
  | downWrite
  | upRead
  | upWrite
  | adminRead
  | adminWrite
  | close
  | acceptTls
  | intakeTls
  deriving DecidableEq, Repr

def Kind.code : Kind → Nat
  | .accept => 1
  | .adminAccept => 2
  | .intake => 3
  | .notify => 4
  | .downRead => 5
  | .downWrite => 6
  | .upRead => 7
  | .upWrite => 8
  | .adminRead => 9
  | .adminWrite => 10
  | .close => 11
  | .acceptTls => 12
  | .intakeTls => 13

def Kind.all : List Kind :=
  [.accept, .adminAccept, .intake, .notify, .downRead, .downWrite, .upRead, .upWrite,
    .adminRead, .adminWrite, .close, .acceptTls, .intakeTls]

section Tags

def GENERATIONS : Nat := 16777216

/-- A kind, a generation and a descriptor in the 64 bits a completion carries back. -/
def tag (k : Kind) (generation : Nat) (fd : Fd) : Nat :=
  k.code * 2 ^ 56 + generation % GENERATIONS * 2 ^ 32 + fd.val

def tagKind (user : Nat) : Option Kind := Kind.all.find? fun k => k.code == user / 2 ^ 56

def tagGeneration (user : Nat) : Nat := user / 2 ^ 32 % GENERATIONS

def tagFd (user : Nat) : Fd := Fin.ofNat _ (user % 2 ^ 32)

theorem tag_kind (k : Kind) (generation : Nat) (fd : Fd) :
    tagKind (tag k generation fd) = some k := by
  have hfd := fd.isLt
  have hg : generation % GENERATIONS < GENERATIONS := Nat.mod_lt _ (by decide)
  have hdiv : tag k generation fd / 2 ^ 56 = k.code := by
    unfold tag GENERATIONS at *
    omega
  unfold tagKind
  rw [hdiv]
  cases k <;> rfl

theorem tag_generation (k : Kind) (generation : Nat) (fd : Fd) :
    tagGeneration (tag k generation fd) = generation % GENERATIONS := by
  have hfd := fd.isLt
  have hg : generation % GENERATIONS < GENERATIONS := Nat.mod_lt _ (by decide)
  unfold tagGeneration tag GENERATIONS at *
  omega

theorem tag_fd (k : Kind) (generation : Nat) (fd : Fd) :
    tagFd (tag k generation fd) = fd := by
  have hfd := fd.isLt
  have hg : generation % GENERATIONS < GENERATIONS := Nat.mod_lt _ (by decide)
  apply Fin.ext
  unfold tagFd tag GENERATIONS at *
  simp only [Fin.ofNat]
  omega

end Tags

/-- An operation in flight. The last two fields are history: how often the generation of the
descriptor had been bumped, and which opening of the number the operation was submitted on. -/
structure Op where
  kind : Kind
  fd : Fd
  user : Nat
  payload : Bytes := []
  bumps : Nat
  epoch : Nat
  deriving DecidableEq, Repr

/-- How an operation ended. A write that succeeded wrote its whole buffer. -/
inductive Outcome where
  | read (bytes : Bytes)
  | wrote
  | accepted (fd : Fd)
  | failed (transient : Bool)
  deriving DecidableEq, Repr

/-- What a read returned. -/
def Outcome.bytes : Outcome → Bytes
  | .read bytes => bytes
  | _ => []

/-- What the helper thread tells a core. -/
inductive Note where
  | tick
  | connected (fd : Fd) (ok : Bool)
  deriving DecidableEq, Repr

/-- Where connections come from: a listener, or a channel an acceptor thread deals over. -/
structure Intake where
  fd : Fd
  channel : Bool
  tls : Bool
  deriving DecidableEq, Repr

structure Config where
  core : Nat
  proxyProtocol : Option Nat
  connectTimeout : Nat
  responseTimeout : Nat
  maxConnectAttempts : Nat
  readBufSize : Nat
  mirrorMaxBody : Nat
  shutdownGrace : Nat
  tls : Bool
  dispatch : Bool
  mirror : Bool
  deriving DecidableEq, Repr

/-- What a PROXY protocol header parser makes of the bytes so far. -/
inductive ProxyHeader where
  | incomplete
  | done (consumed : Nat) (client : Option IpAddr)
  | refused
  deriving DecidableEq

/-- The libraries the core calls and the pages its admin listener serves. -/
structure Outside where
  rx : RegexEngine
  enc : Encoder
  proxyHeader : Bytes → ProxyHeader
  adminResponse : AdminConn → Bytes

/-- What the world around the core answers while one function of it runs. -/
structure Answers where
  submits : Kind → Fd → Bool := fun _ _ => true
  nonblocking : Bool := true
  peer : IpAddr := .v4 ⟨#[0, 0, 0, 0], rfl⟩
  connect : Option (Fd × Bool) := none
  watch : Bool := true
  note : Option Note := none
  pick : Nat := 0
  mirrorPick : Nat := 0
  mirrorWord : Nat := 0
  canaryWord : Nat := 0
  cursor : Nat := 0
  mirrorCursor : Nat := 0
  foreign : Nat → Nat := fun _ => 0
  mirrorable : Bool := true
  requestId : HexId
  rustls : Rustls := {}

/-- One answer to a request: the counter block of the rule it matched, whether the canary took
it, and the status. -/
structure Tally where
  rule : Option (Nat × Bool)
  status : Nat
  deriving DecidableEq, Repr

/-- Moments worth remembering, each with the connection as it stood just before. -/
inductive Moment where
  | relayed (conn : Conn)
  | finished (conn : Conn)
  | pooled (up : Fd) (conn : Conn)
  | rejected (conn : Conn)
  | failed (conn : Conn)
  | refused (conn : Conn)
  | leased (up : Fd) (clean : Bool)
  | handedOff (conn : Conn) (replayed : Bytes) (inFlight : List Kind)

/-- One serving core with the reactor, the helper and the kernel it works against. -/
structure World where
  config : Config
  slots : Fd → Slot
  generations : Fd → Nat
  highWater : Nat
  pool : Pool
  intakes : List Intake
  admin : Option Fd
  notify : Fd
  intakePartial : Map Fd Bytes
  drainDeadline : Option Nat
  drainInflight : Nat
  drainExpired : Bool
  shutdown : Bool
  broken : Bool
  routes : Snapshot
  clock : Nat
  /- Counters that outlive every table. -/
  routeSlots : Nat → RouteSlot
  inflight : Nat → Nat
  mirrored : List MirrorCopy
  mirrorSkipped : Nat
  mirrorFailed : Nat
  /- The reactor, the kernel and the helper. -/
  ops : List Op
  opened : Fd → Bool
  borrowed : List Fd
  unread : Fd → List (Nat × UInt8)
  /- History, read by no branch. -/
  bumps : Fd → Nat
  epochs : Fd → Nat
  turns : Fd → Nat
  ledger : List Tally
  moments : List Moment
  archive : List Conn

section Primitives

variable (ans : Answers)

def World.setSlot (w : World) (fd : Fd) (s : Slot) : World :=
  { w with
    slots := Function.update w.slots fd s
    highWater := max w.highWater (fd.val + 1) }

def World.setClient (w : World) (fd : Fd) (conn : Conn) : World := w.setSlot fd (.client conn)

def World.remember (w : World) (m : Moment) : World := { w with moments := w.moments ++ [m] }

def World.bumpGeneration (w : World) (fd : Fd) : World :=
  { w with
    generations := Function.update w.generations fd ((w.generations fd + 1) % GENERATIONS)
    bumps := Function.update w.bumps fd (w.bumps fd + 1) }

/-- An operation accepted by the reactor, tagged with the descriptor's generation. -/
def World.submit (w : World) (k : Kind) (fd : Fd) (payload : Bytes) : World :=
  { w with
    ops := w.ops ++ [⟨k, fd, tag k (w.generations fd) fd, payload, w.bumps fd, w.epochs fd⟩] }

/-- The operations on a descriptor that were submitted since its generation was last bumped. -/
def World.current (w : World) (fd : Fd) : List Op :=
  w.ops.filter fun op => op.fd == fd && op.bumps == w.bumps fd && op.kind != .close

/-- The kernel hands out a number: a new socket, with nothing received on it. -/
def World.opening (w : World) (fd : Fd) : World :=
  { w with
    opened := Function.update w.opened fd true
    epochs := Function.update w.epochs fd (w.epochs fd + 1)
    unread := Function.update w.unread fd [] }

/-- A descriptor closed behind the reactor's back. -/
def World.sysClose (w : World) (fd : Fd) : World :=
  { w with opened := Function.update w.opened fd false }

/-- A descriptor leaves the core: its generation is bumped and its slot emptied. -/
def World.vacate (w : World) (fd : Fd) : World :=
  let left := (w.slots fd).leaves
  ({ w.bumpGeneration fd with archive := w.archive ++ left }.setSlot fd .empty).sysClose fd

/-- A connection a drain was waiting for is no longer one. -/
def World.countOff (w : World) (fd : Fd) : World :=
  if (w.slots fd).drainCounted then { w with drainInflight := w.drainInflight - 1 } else w

/-- Close a descriptor through the reactor and forget everything about it. -/
def World.close (w : World) (fd : Fd) : World :=
  let w := (w.countOff fd).vacate fd
  if ans.submits .close fd then w.submit .close fd [] else w

/-- An operation is over: it leaves the reactor, and a read takes what it returns off the
socket. -/
def World.retire (w : World) (op : Op) (outcome : Outcome) : World :=
  { w with
    ops := w.ops.erase op
    unread :=
      match op.kind, outcome with
      | .upRead, .read bytes =>
          if op.epoch = w.epochs op.fd then
            Function.update w.unread op.fd ((w.unread op.fd).drop bytes.length)
          else w.unread
      | _, _ => w.unread }

def World.closeAll (w : World) (fds : List Fd) : World := fds.foldl (World.close ans) w

end Primitives

/-- The work left to do before the next completion is waited for. Where a function of the source
calls itself through others, the call waits here for its turn. -/
inductive Task where
  | deal (channel : Fd) (tls : Bool) (ready : List Fd)
  | notes
  | sweep (rest : List Fd) (now : Nat)
  | advance (fd : Fd)
  | drive (fd : Fd)
  | retryOrFail (fd : Fd)
  deriving DecidableEq, Repr

end Ramjet.Engine.Worker.Core
