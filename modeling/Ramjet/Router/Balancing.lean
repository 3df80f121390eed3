/- digest: Backends, their weighted rotation, and the choice of an endpoint. -/

import Mathlib.Algebra.Ring.Nat
import Ramjet.Base.Net

set_option autoImplicit false
set_option relaxedAutoImplicit false

namespace Ramjet.Router.Balancing

open Ramjet.Base.Octets
open Ramjet.Base.Net

/-- Index of a backend within a route table. -/
abbrev BackendId := Nat

/-- An upstream address and its relative share of traffic. -/
structure Endpoint where
  addr : SocketAddr
  weight : Nat
  deriving DecidableEq

inductive BackendProtocol where
  | http1
  | h2c
  deriving DecidableEq, Repr

def BackendProtocol.asStr : BackendProtocol → Bytes
  | .http1 => ascii "http"
  | .h2c => ascii "h2c"

inductive LbPolicy where
  | roundRobin
  | random
  | leastConn
  deriving DecidableEq, Repr

/-- Everything about a backend that is not its name or its endpoints. -/
structure BackendOptions where
  policy : LbPolicy := .roundRobin
  protocol : BackendProtocol := .http1
  deriving DecidableEq, Repr

def MAX_RING : Nat := 4096

/-- The slots one endpoint gets, scaled down but never rounded to none. -/
def ringScale (total w : Nat) : Nat :=
  if w = 0 then 0
  else if total ≤ MAX_RING then w
  else max (w * MAX_RING / total) 1

/-- One pass over the endpoints: the indices it emits, and the slots left to each. -/
def ringRound (remaining : List Nat) : List Nat × List Nat :=
  ((remaining.zipIdx.filter fun p => 0 < p.1).map (·.2), remaining.map (· - 1))

/-- Passes are repeated until every slot is emitted, or a pass emits nothing. -/
def ringLoop (slots : Nat) (remaining ring : List Nat) : List Nat :=
  if ring.length < slots then
    let round := ringRound remaining
    if round.1.isEmpty then ring
    else ringLoop slots round.2 (ring ++ round.1)
  else ring
termination_by slots - ring.length
decreasing_by
  rename_i hlt hne
  have hpos : 0 < (ringRound remaining).1.length := by
    rw [List.length_pos_iff]
    simpa using hne
  rw [List.length_append]
  omega

/-- The weighted rotation of a set of endpoints, absent where a remainder does as well. -/
def buildRing (endpoints : List Endpoint) : Option (List Nat) :=
  match endpoints with
  | [] => none
  | first :: _ =>
      if endpoints.all fun e => e.weight == first.weight then none
      else
        let total := (endpoints.map (·.weight)).sum
        if total = 0 then none
        else
          let remaining := endpoints.map fun e => ringScale total e.weight
          let slots := remaining.sum
          if slots = 0 then none else some (ringLoop slots remaining [])

/-- A named group of endpoints and the policy for choosing between them. -/
structure Backend where
  name : Bytes
  endpoints : List Endpoint
  policy : LbPolicy
  protocol : BackendProtocol
  statsIndex : Nat
  ring : Option (List Nat)
  deriving DecidableEq

def Backend.new (name : Bytes) (endpoints : List Endpoint) (policy : LbPolicy)
    (protocol : BackendProtocol) (statsIndex : Nat) : Backend :=
  ⟨name, endpoints, policy, protocol, statsIndex, buildRing endpoints⟩

/-- One reading of a backend's counters: the rotation cursor and the requests in flight. -/
structure SlotReading where
  cursor : Nat
  inflight : Nat → Nat

/-- The least loaded endpoint so far, carried along the rest of the list. -/
def leastConn (slot : SlotReading) : List Endpoint → Nat → Nat → Nat → Nat → Nat
  | [], _, best, _, _ => best
  | ep :: rest, i, best, bestN, bestW =>
      let n := slot.inflight i
      let w := max ep.weight 1
      if n * bestW < bestN * w then leastConn slot rest (i + 1) i n w
      else leastConn slot rest (i + 1) best bestN bestW

/-- Chooses an endpoint; `rng` is a caller-supplied random word. -/
def selectEndpoint (backend : Backend) (slot : Option SlotReading) (rng : Nat) :
    Option (Nat × Endpoint) :=
  let len := backend.endpoints.length
  if len = 0 then none
  else do
    let index ←
      match backend.policy with
      | .roundRobin => do
          let slot ← slot
          match backend.ring with
          | some ring => ring[slot.cursor % ring.length]?
          | none => some (slot.cursor % len)
      | .random =>
          match backend.ring with
          | some ring => ring[rng % ring.length]?
          | none => some (rng % len)
      | .leastConn => do
          let slot ← slot
          let first ← backend.endpoints.head?
          some (leastConn slot backend.endpoints.tail 1 0 (slot.inflight 0) (max first.weight 1))
    let ep ← backend.endpoints[index]?
    return (index, ep)

end Ramjet.Router.Balancing
