/- digest: No connection that a drain counts is a tunnel, unless it is upgraded while counted. -/

import Ramjet.Engine.Worker.Coherence

set_option autoImplicit false
set_option relaxedAutoImplicit false

namespace Ramjet.Engine.Worker.Tunnels

open Ramjet.Base.Octets
open Ramjet.Base.Net
open Ramjet.Base.Machine
open Ramjet.Engine.IdlePool
open Ramjet.Engine.Worker.Connection
open Ramjet.Engine.Worker.Core
open Ramjet.Engine.Worker.Serving
open Ramjet.Engine.Worker.Handlers
open Ramjet.Engine.Worker.Loop
open Ramjet.Engine.Worker.Moves
open Ramjet.Engine.Worker.Turns
open Ramjet.Engine.Worker.Events
open Ramjet.Engine.Worker.Keeping
open Ramjet.Engine.Worker.Arrivals
open Ramjet.Engine.Worker.Alterations
open Ramjet.Engine.Worker.Changes
open Ramjet.Engine.Worker.Coherence
open Ramjet.Router.Stats

/-- No connection that a drain counts is a tunnel. -/
def Unheld (m : Machine) : Prop := m.world.drainDeadline.isSome = true →
  ∀ fd c, m.world.slots fd = .client c → c.drainCounted = true → c.phase ≠ .tunnel

section Changes

variable {env : Outside} {ans : Answers} {w w' : World} {fd : Fd} {c c' : Conn} {p q : Hand}

variable (ans) in
theorem launched_phase (addr : SocketAddr) (w : World) (c : Conn) :
    (launched ans addr w c).phase = c.phase ∨ (launched ans addr w c).phase = .exchanging ∨
      (launched ans addr w c).phase = .connecting := by
  obtain ⟨held, hheld⟩ := holdInflight_fields w
    { c with dispatchedAt := some w.clock, deadline := some (w.clock + w.config.responseTimeout) }
  unfold launched
  rw [hheld]
  dsimp only
  split
  · exact .inr (.inl rfl)
  · split
    · exact .inl rfl
    · split
      · exact .inr (.inl rfl)
      · split
        · exact .inr (.inr rfl)
        · exact .inl rfl

end Changes

section Runs

variable {env : Outside} {s : Bool} {w w' : World} {m m' : Machine} {a : Act}

/-- In the slots of a core, no counted connection is a tunnel. -/
def Lawful (w : World) : Prop :=
  ∀ fd c, w.slots fd = .client c → c.drainCounted = true → c.phase ≠ .tunnel

attribute [local instance] fdRoom

end Runs

end Ramjet.Engine.Worker.Tunnels
