/- digest: A completion reaches a handler only on the connection its operation was submitted for. -/

import Ramjet.Engine.Worker.Coherence

set_option autoImplicit false
set_option relaxedAutoImplicit false

namespace Ramjet.Engine.Worker.Deliveries

open Ramjet.Base.Octets
open Ramjet.Base.Net
open Ramjet.Base.Machine
open Ramjet.Engine.IdlePool
open Ramjet.Engine.Worker.Connection
open Ramjet.Engine.Worker.Core
open Ramjet.Engine.Worker.Serving
open Ramjet.Engine.Worker.Handlers
open Ramjet.Engine.Worker.Loop
open Ramjet.Engine.Worker.Descriptors
open Ramjet.Engine.Worker.Ownership
open Ramjet.Engine.Worker.Events
open Ramjet.Engine.Worker.Keeping
open Ramjet.Engine.Worker.Arrivals
open Ramjet.Engine.Worker.Handling
open Ramjet.Engine.Worker.Coherence
open Ramjet.Router.Stats

variable {env : Outside} {ans : Answers} {s : Bool} {w : World} {op : Op} {k : Kind} {fd : Fd}
  {outcome : Outcome}

section Occupants

/-- The slot of a descriptor is with whom an operation of this kind is submitted for; a read of an
upstream may be the one parked while the pool had it. Once a drain has begun, a tunnel that it cut
off may have left its upstream behind. -/
def Expects (w : World) (fd : Fd) : Kind → Prop
  | .downRead => ∃ c, w.slots fd = .client c ∧ c.reading = true
  | .downWrite => ∃ c, w.slots fd = .client c ∧ c.writing = true
  | .adminRead => ∃ a, w.slots fd = .admin a ∧ a.reading = true
  | .adminWrite => ∃ a, w.slots fd = .admin a ∧ a.writing = true
  | .upRead => w.drainDeadline = none →
      (∃ addr, w.slots fd = .idle addr ∧ (addr, fd) ∈ w.pool.held) ∨
        ∃ d c, w.slots fd = .upstream d ∧ w.slots d = .client c
  | .upWrite => w.drainDeadline = none → ∃ d c, w.slots fd = .upstream d ∧ w.slots d = .client c
  | .notify => fd = w.notify
  | .accept | .acceptTls | .adminAccept | .intake | .intakeTls =>
      fd ∈ w.intakes.map (·.fd) ++ w.admin.toList
  | .close => True

end Occupants

section Deliveries

/-- The dispatcher hands a completion to the handler of its kind. -/
def Handed (w : World) (op : Op) (outcome : Outcome) : Prop :=
  op.kind ≠ .close ∧ stale (w.retire op outcome) op = false

/-- An operation of the connection that has its descriptor: the tag names its kind and its
descriptor, the socket it was submitted on is the one that still has that number, whom it was
submitted for has it, and a client that is acted on for it is the one attached to it. -/
structure Delivered (w : World) (op : Op) : Prop where
  kind : tagKind op.user = some op.kind
  fd : tagFd op.user = op.fd
  opening : op.epoch = w.epochs op.fd
  occupant : Expects w op.fd op.kind
  attached : ∀ d c, op.kind = .upRead ∨ op.kind = .upWrite → w.slots op.fd = .upstream d →
    w.slots d = .client c → c.upstream = some op.fd ∧ (tiesOf c).up op.kind = 1

/-- A completion that is dropped: the operation is over and nothing else changes, but that a
connection it brings is opened and closed. -/
structure Discarded (w : World) (op : Op) (outcome : Outcome) (ran : World × List Task) : Prop where
  nothing : ran.2 = []
  frame : ∃ opened epochs unread, ran.1 = { w with
    ops := w.ops.erase op, opened := opened, epochs := epochs, unread := unread }
  accepted : ∀ fd, Kind.accepts op.kind = true → outcome = .accepted fd →
    ran.1.opened fd = false ∧ ran.1.epochs fd = w.epochs fd + 1
  others : ∀ fd, outcome ≠ .accepted fd →
    ran.1.opened fd = w.opened fd ∧ ran.1.epochs fd = w.epochs fd

/-- Every completion that may come next, if it comes in time, is delivered to whom it is for or
dropped. -/
def Safe (env : Outside) (m : Machine) : Prop := ∀ op ∈ m.world.ops, ∀ outcome ans,
  m.world.bumps op.fd < op.bumps + GENERATIONS →
    (Handed m.world op outcome → Delivered m.world op) ∧
    (¬ Handed m.world op outcome →
      Discarded m.world op outcome (dispatch env ans m.world op outcome))

attribute [local instance] fdRoom

end Deliveries

end Ramjet.Engine.Worker.Deliveries
