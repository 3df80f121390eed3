/- digest: Counters that outlive the table they are reached through, and the guards that hold them. -/

import Mathlib.Data.List.Basic
import Ramjet.Base.Machine
import Ramjet.Router.Builder
import Ramjet.Router.Stats

set_option autoImplicit false
set_option relaxedAutoImplicit false

namespace Ramjet.Router.Counters

open Ramjet.Base.Octets
open Ramjet.Base.AssocMap
open Ramjet.Base.Net
open Ramjet.Router.Rule
open Ramjet.Router.Table
open Ramjet.Router.Builder
open Ramjet.Router.Stats

/-- Where a shared counter lives: the position it was allocated at. -/
abbrev Ref := Nat

/-- Everything the tables share: in-flight counters, round-robin cursors, route counter blocks. -/
structure Arena where
  inflight : List Nat := []
  cursors : List Nat := []
  blocks : List RouteSlot := []
  deriving DecidableEq

/-- Selection state of one backend. -/
structure BackendSlot where
  cursor : Ref
  inflight : List Ref
  addrs : List SocketAddr
  deriving DecidableEq

structure BackendStats where
  slots : List BackendSlot := []
  byName : Map Bytes BackendSlot := []
  deriving DecidableEq

structure RouteStats where
  slots : List Ref := []
  byIdentity : Map RouteIdentity Ref := []
  deriving DecidableEq

section Rebuilding

/-- The counter an address had in the slot of the previous table. -/
def carriedCounter (old : Option BackendSlot) (addr : SocketAddr) : Option Ref :=
  old.bind fun prev => (prev.addrs.idxOf? addr).bind fun i => prev.inflight[i]?

/-- A counter for each address: the one that survived, or a fresh one at zero. -/
def carryCounters (old : Option BackendSlot) : List SocketAddr → List Nat → List Ref × List Nat
  | [], cells => ([], cells)
  | addr :: rest, cells =>
      match carriedCounter old addr with
      | some r =>
          let (refs, after) := carryCounters old rest cells
          (r :: refs, after)
      | none =>
          let (refs, after) := carryCounters old rest (cells ++ [0])
          (cells.length :: refs, after)

/-- A slot for an endpoint list that moved: surviving counters, and the cursor's value copied. -/
def movedSlot (old : Option BackendSlot) (addrs : List SocketAddr) (a : Arena) :
    BackendSlot × Arena :=
  let (refs, cells) := carryCounters old addrs a.inflight
  let cursor := (old.bind fun prev => a.cursors[prev.cursor]?).getD 0
  (⟨a.cursors.length, refs, addrs⟩, { a with inflight := cells, cursors := a.cursors ++ [cursor] })

/-- The slot of one backend: the whole of it where its endpoints did not move. -/
def rebuildSlot (old : Option BackendSlot) (addrs : List SocketAddr) (a : Arena) :
    BackendSlot × Arena :=
  match old with
  | some prev => if prev.addrs = addrs then (prev, a) else movedSlot old addrs a
  | none => movedSlot old addrs a

def rebuildSlots (previous : Option BackendStats) :
    List (Bytes × List SocketAddr) → BackendStats → Arena → BackendStats × Arena
  | [], stats, a => (stats, a)
  | (name, addrs) :: rest, stats, a =>
      let (slot, after) := rebuildSlot (previous.bind fun p => get p.byName name) addrs a
      rebuildSlots previous rest
        ⟨stats.slots ++ [slot], insert stats.byName name slot⟩ after

/-- `BackendStats::rebuild`. -/
def BackendStats.rebuild (specs : List (Bytes × List SocketAddr)) (previous : Option BackendStats)
    (a : Arena) : BackendStats × Arena := rebuildSlots previous specs {} a

def rebuildBlocks (previous : Option RouteStats) :
    List RouteIdentity → RouteStats → List RouteSlot → RouteStats × List RouteSlot
  | [], stats, blocks => (stats, blocks)
  | identity :: rest, stats, blocks =>
      match previous.bind fun p => get p.byIdentity identity with
      | some r =>
          rebuildBlocks previous rest
            ⟨stats.slots ++ [r], insert stats.byIdentity identity r⟩ blocks
      | none =>
          rebuildBlocks previous rest
            ⟨stats.slots ++ [blocks.length], insert stats.byIdentity identity blocks.length⟩
            (blocks ++ [{}])

/-- `RouteStats::rebuild`. -/
def RouteStats.rebuild (identities : List RouteIdentity) (previous : Option RouteStats)
    (blocks : List RouteSlot) : RouteStats × List RouteSlot :=
  rebuildBlocks previous identities {} blocks

end Rebuilding

/-- A table and the state it selects through. -/
structure Generation where
  table : RouteTable
  stats : BackendStats
  routeStats : RouteStats
  deriving DecidableEq

/-- The tables built so far, oldest first, and the in-flight guards not yet released. -/
structure World where
  arena : Arena := {}
  tables : List Generation := []
  guards : List Ref := []
  deriving DecidableEq

inductive Action where
  | rebuild (calls : List BuilderCall)
  | acquire (generation slot index : Nat)
  | release (guard : Nat)
  | nextCursor (generation slot : Nat)
  | respond (generation route shard status : Nat)
  deriving DecidableEq

/-- `AtomicU32::fetch_add` of one. -/
def increment (n : Nat) : Nat := (n + 1) % U32_SIZE

/-- `AtomicU32::fetch_sub` of one. -/
def decrement (n : Nat) : Nat := (n + U32_SIZE - 1) % U32_SIZE

variable (rx : RegexEngine)

/-- The builder of the next table, which carries the counters of the last one forward. -/
def World.builder (w : World) : RouteTableBuilder :=
  match w.tables.getLast? with
  | none => {}
  | some last => RouteTableBuilder.fromPrevious last.table

/-- The next table over rebuilt counters. -/
def World.freeze (w : World) (t : RouteTable) : World :=
  let last := w.tables.getLast?
  let (stats, arena) := BackendStats.rebuild t.statsSpecs (last.map (·.stats)) w.arena
  let (routeStats, blocks) :=
    RouteStats.rebuild t.identities (last.map (·.routeStats)) arena.blocks
  { w with
    arena := { arena with blocks := blocks }
    tables := w.tables ++ [⟨t, stats, routeStats⟩] }

/-- The counter behind an endpoint of a slot, in any table built so far. -/
def World.counter (w : World) (generation slot index : Nat) : Option Ref := do
  let g ← w.tables[generation]?
  let s ← g.stats.slots[slot]?
  s.inflight[index]?

/-- One step, absent where the table is refused or has no such counter. -/
def step (w : World) : Action → Option World
  | .rebuild calls =>
      match (w.builder.calls rx calls).build with
      | .error _ => none
      | .ok t => some (w.freeze t)
  | .acquire generation slot index =>
      (w.counter generation slot index).map fun r =>
        { w with
          arena := { w.arena with inflight := w.arena.inflight.modify r increment }
          guards := w.guards ++ [r] }
  | .release guard =>
      w.guards[guard]?.map fun r =>
        { w with
          arena := { w.arena with inflight := w.arena.inflight.modify r decrement }
          guards := w.guards.eraseIdx guard }
  | .nextCursor generation slot => do
      let g ← w.tables[generation]?
      let s ← g.stats.slots[slot]?
      return { w with
        arena := { w.arena with cursors := w.arena.cursors.modify s.cursor increment } }
  | .respond generation route shard status => do
      let g ← w.tables[generation]?
      let r ← g.routeStats.slots[route]?
      return { w with
        arena := { w.arena with
          blocks := w.arena.blocks.modify r fun block =>
            { block with
              shards := block.shards.modify (shard % ROUTE_STAT_SHARDS)
                (·.recordResponse status) } } }

/-- No backend of a table to be built repeats an address. -/
def DistinctAddrs (w : World) : Action → Prop
  | .rebuild calls => ∀ t, (w.builder.calls rx calls).build = .ok t →
      ∀ spec ∈ t.statsSpecs, spec.2.Nodup
  | _ => True

end Ramjet.Router.Counters
