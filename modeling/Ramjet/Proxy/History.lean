/- digest: The ring of applied generations, and the pin that holds publication. -/

import Ramjet.Proxy.Tls

set_option autoImplicit false
set_option relaxedAutoImplicit false

namespace Ramjet.Proxy.History

open Ramjet.Router.Table
open Ramjet.Proxy.Tls

variable {Key Diff : Type}

def DEFAULT_HISTORY_SIZE : Nat := 10

/-- One compiled generation, as it was applied. -/
structure GenerationRecord (Key Diff : Type) where
  generation : Nat
  appliedAt : Nat
  published : Bool
  digest : Nat
  diff : Diff
  table : RouteTable
  keys : CertKeys Key

/-- Why a rollback was refused. -/
inductive PinError where
  | unknown (generation : Nat)
  | alreadyPinned (generation : Nat)
  deriving DecidableEq, Repr

/-- What a pin just did, for the audit trail. -/
inductive PinChange where
  | pinned (generation replaced : Nat)
  | resumed (generation : Nat)
  deriving DecidableEq, Repr

/-- What the lock protects: the ring, newest last, and the pinned generation. -/
structure State (Key Diff : Type) where
  ring : List (GenerationRecord Key Diff) := []
  pinned : Option Nat := none

def State.push (s : State Key Diff) (record : GenerationRecord Key Diff) (capacity : Nat) :
    State Key Diff :=
  let ring := s.ring.filter (fun held => held.generation != record.generation) ++ [record]
  { s with ring := ring.drop (ring.length - capacity) }

def State.markPublished (s : State Key Diff) (generation : Nat) : State Key Diff :=
  { s with ring := s.ring.map fun record =>
      if record.generation = generation then { record with published := true } else record }

/-- The operations of a history. -/
inductive Op (Key Diff : Type) where
  | record (generation digest : Nat) (diff : Diff) (table : RouteTable) (keys : CertKeys Key)
      (now : Nat)
  | pin (generation : Nat)
  | unpin

/-- What an operation hands back to its caller. -/
inductive Outcome where
  | recorded (live : Bool)
  | pinned (result : Except PinError Unit)
  | unpinned (generation : Option Nat)

/-- What an operation does under the lock: what it applies, and how it leaves the state. -/
structure Plan (Key Diff : Type) where
  applied : Option (CertKeys Key × RouteTable)
  state : State Key Diff
  outcome : Outcome
  announced : Option PinChange

/-- Records a generation, and publishes it unless a pin is holding the gate. -/
def planRecord (capacity : Nat) (s : State Key Diff) (generation digest : Nat) (diff : Diff)
    (table : RouteTable) (keys : CertKeys Key) (now : Nat) : Plan Key Diff :=
  let publish := s.pinned.isNone
  { applied := if publish then some (keys, table) else none
    state := s.push ⟨generation, now, publish, digest, diff, table, keys⟩ capacity
    outcome := .recorded publish
    announced := none }

/-- Republishes a generation and holds publication there. -/
def planPin (serving : Nat) (s : State Key Diff) (generation : Nat) : Plan Key Diff :=
  match s.pinned with
  | some current => ⟨none, s, .pinned (.error (.alreadyPinned current)), none⟩
  | none =>
      match s.ring.find? fun record => record.generation == generation with
      | none => ⟨none, s, .pinned (.error (.unknown generation)), none⟩
      | some record =>
          { applied := some (record.keys, record.table)
            state := { s with pinned := some generation }.markPublished generation
            outcome := .pinned (.ok ())
            announced := some (.pinned generation serving) }

/-- Releases the pin and publishes the newest generation recorded. -/
def planUnpin (s : State Key Diff) : Plan Key Diff :=
  match s.pinned with
  | none => ⟨none, s, .unpinned none, none⟩
  | some _ =>
      let released := { s with pinned := none }
      match s.ring.getLast? with
      | none => ⟨none, released, .unpinned none, none⟩
      | some latest =>
          { applied := some (latest.keys, latest.table)
            state := released.markPublished latest.generation
            outcome := .unpinned (some latest.generation)
            announced := some (.resumed latest.generation) }

def plan (capacity serving : Nat) (s : State Key Diff) : Op Key Diff → Plan Key Diff
  | .record generation digest diff table keys now =>
      planRecord capacity s generation digest diff table keys now
  | .pin generation => planPin serving s generation
  | .unpin => planUnpin s

end Ramjet.Proxy.History
