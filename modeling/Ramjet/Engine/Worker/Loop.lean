/- digest: The completion loop of one core as a guarded step function. -/

import Ramjet.Base.Machine
import Ramjet.Engine.Worker.Handlers

set_option autoImplicit false
set_option relaxedAutoImplicit false

namespace Ramjet.Engine.Worker.Loop

open Ramjet.Base.Octets
open Ramjet.Base.AssocMap
open Ramjet.Engine.IdlePool
open Ramjet.Engine.Worker.Connection
open Ramjet.Engine.Worker.Core
open Ramjet.Engine.Worker.Serving
open Ramjet.Engine.Worker.Requests
open Ramjet.Engine.Worker.Handlers
open Ramjet.Router.Stats

variable (env : Outside)

section Start

/-- The descriptors a core is born with: no two of them are one. -/
structure Fixtures where
  intakes : List Intake
  admin : Option Fd
  notify : Fd
  distinct : (intakes.map (·.fd) ++ admin.toList ++ [notify]).Nodup

def Fixtures.all (f : Fixtures) : List Fd := f.intakes.map (·.fd) ++ f.admin.toList ++ [f.notify]

/-- The first operation on an intake: an accept, or a read of its channel. -/
def Intake.kind (i : Intake) : Kind :=
  match i.channel, i.tls with
  | true, true => .intakeTls
  | true, false => .intake
  | false, true => .acceptTls
  | false, false => .accept

/-- The operations submitted before the loop is entered. -/
def Fixtures.armed (f : Fixtures) : List (Kind × Fd) :=
  (.notify, f.notify) :: f.intakes.map (fun i => (Intake.kind i, i.fd)) ++
    f.admin.toList.map fun fd => (.adminAccept, fd)

/-- A core before its first completion, over counters that another table may already have used. -/
def initial (config : Config) (fixtures : Fixtures) (pool : Nat × Nat) (routes : Snapshot)
    (routeSlots : Nat → RouteSlot) (inflight : Nat → Nat) : World where
  config := config
  slots := fun _ => .empty
  generations := fun _ => 0
  highWater := 0
  pool := Pool.new pool.1 pool.2
  intakes := fixtures.intakes
  admin := fixtures.admin
  notify := fixtures.notify
  intakePartial := (fixtures.intakes.filter (·.channel)).map fun i => (i.fd, [])
  drainDeadline := none
  drainInflight := 0
  drainExpired := false
  shutdown := false
  broken := false
  routes := routes
  clock := 0
  routeSlots := routeSlots
  inflight := inflight
  mirrored := []
  mirrorSkipped := 0
  mirrorFailed := 0
  ops := fixtures.armed.map fun p => ⟨p.1, p.2, tag p.1 0 p.2, [], 0, 0⟩
  opened := fun fd => fixtures.all.contains fd
  borrowed := []
  unread := fun _ => []
  bumps := fun _ => 0
  epochs := fun _ => 0
  turns := fun _ => 0
  ledger := []
  moments := []
  archive := []

end Start

section Steps

/-- A core between two pieces of work. -/
structure Machine where
  world : World
  tasks : List Task := []

/-- What happens next: the core goes on, an operation completes, the stop flag is noticed, or the
world outside moves. -/
inductive Act where
  | turn (ans : Answers)
  | complete (op : Op) (outcome : Outcome) (ans : Answers)
  | drain (ans : Answers)
  | stop
  | publish (routes : Snapshot)
  | elapse (time : Nat)
  | send (up : Fd) (bytes : Bytes)

def Kind.reads : Kind → Bool
  | .downRead | .upRead | .adminRead | .intake | .intakeTls | .notify => true
  | _ => false

def Kind.writes : Kind → Bool
  | .downWrite | .upWrite | .adminWrite => true
  | _ => false

/-- Whether the kernel may end an operation so: an accept makes a number no one has, and a read
returns no more than its buffer and only what was sent. -/
def Outcome.fits (w : World) (op : Op) : Outcome → Bool
  | .read bytes =>
      Kind.reads op.kind && bytes.length ≤ w.config.readBufSize &&
        (op.kind != .upRead || op.epoch != w.epochs op.fd ||
          bytes.isPrefixOf ((w.unread op.fd).map (·.2)))
  | .wrote => Kind.writes op.kind || op.kind == .close
  | .accepted fd => Kind.accepts op.kind && !w.opened fd
  | .failed _ => true

/-- Whether the kernel and the helper may answer so: a socket gets a number no one has, and a
connect is reported once. -/
def Answers.fits (w : World) (ans : Answers) : Bool :=
  (ans.connect.all fun c => !w.opened c.1) &&
    match ans.note with
    | some (.connected up _) => w.borrowed.contains up
    | _ => true

/-- A dealt descriptor is one the kernel has just made. -/
def Task.fits (w : World) : Task → Bool
  | .deal _ _ (fd :: _) => !w.opened fd
  | _ => true

def runTask (ans : Answers) (w : World) : Task → World × List Task
  | .deal channel tls ready => deal ans w channel tls ready
  | .notes => notes env ans w
  | .sweep [] _ => (w, [])
  | .sweep (fd :: rest) now =>
      let swept := sweepClient env ans w fd now
      (swept.1, swept.2 ++ [.sweep rest now])
  | .advance fd => advance env ans w fd
  | .drive fd => drive ans w fd
  | .retryOrFail fd => retryOrFail env ans w fd

/-- What upstreams send is marked with the hold it was sent in. -/
def World.sent (w : World) (up : Fd) (bytes : Bytes) : World :=
  { w with
    unread := Function.update w.unread up
      (w.unread up ++ bytes.map fun byte => (w.turns up, byte)) }

def step (m : Machine) : Act → Option Machine
  | .turn ans =>
      match m.tasks with
      | [] => none
      | task :: rest =>
          if !m.world.broken && Answers.fits m.world ans && Task.fits m.world task then
            let ran := runTask env ans m.world task
            some ⟨ran.1, ran.2 ++ rest⟩
          else none
  | .complete op outcome ans =>
      if !m.world.broken && m.tasks.isEmpty && m.world.ops.contains op
          && Outcome.fits m.world op outcome && Answers.fits m.world ans then
        let ran := dispatch env ans m.world op outcome
        some ⟨ran.1, ran.2⟩
      else none
  | .drain ans =>
      if !m.world.broken && m.tasks.isEmpty && m.world.shutdown && m.world.drainDeadline.isNone then
        some ⟨beginDrain ans m.world, []⟩
      else none
  | .stop => some { m with world := { m.world with shutdown := true } }
  | .publish routes => some { m with world := { m.world with routes := routes } }
  | .elapse time => some { m with world := { m.world with clock := m.world.clock + time } }
  | .send up bytes =>
      if m.world.opened up then some { m with world := World.sent m.world up bytes } else none

end Steps

end Ramjet.Engine.Worker.Loop
