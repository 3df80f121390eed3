/- digest: A run watched from outside: which requests were sampled, received whole and counted. -/

import Ramjet.Engine.Worker.Mirroring

set_option autoImplicit false
set_option relaxedAutoImplicit false

namespace Ramjet.Engine.Worker.MirrorBooks

open Ramjet.Base.Octets
open Ramjet.Base.Net
open Ramjet.Base.Machine
open Ramjet.Engine.Codec.BodyFraming
open Ramjet.Engine.IdlePool
open Ramjet.Engine.Worker.Connection
open Ramjet.Engine.Worker.Core
open Ramjet.Engine.Worker.Requests
open Ramjet.Engine.Worker.Handlers
open Ramjet.Engine.Worker.Loop
open Ramjet.Engine.Worker.Keeping
open Ramjet.Engine.Worker.Alterations
open Ramjet.Engine.Worker.Lanes
open Ramjet.Engine.Worker.Effects
open Ramjet.Engine.Worker.Continuity
open Ramjet.Engine.Worker.Mirroring

section Watching

/-- One request of a run: the descriptor it came on, how many connections had begun there, and how
many requests of its own connection were over. -/
structure Request where
  fd : Fd
  connection : Nat
  number : Nat
  deriving DecidableEq

/-- What was counted for a request: a copy enqueued, beside its exchange as it then stood, or a
skip, or a failure. -/
inductive Fate where
  | enqueued (copy : MirrorCopy) (exchange : Option Exchange)
  | skipped
  | failed

def Fate.copy : Fate → Option MirrorCopy
  | .enqueued copy _ => some copy
  | _ => none

def Fate.isSkip : Fate → Bool
  | .skipped => true
  | _ => false

def Fate.isFailure : Fate → Bool
  | .failed => true
  | _ => false

/-- A request that its rule's mirror sampled, and what there was to be done for it. -/
structure Sampled where
  request : Request
  plan : Plan

/-- What an observer has seen of a run: how many connections have begun on each descriptor, the
requests sampled, those whose body was received whole, and what was counted for which. -/
structure Watch where
  connections : Fd → Nat := fun _ => 0
  sampled : List Sampled := []
  whole : List Request := []
  counted : List (Request × Fate) := []

structure Watched where
  machine : Machine
  watch : Watch := {}

/-- All of a request's body is there that its framing declares. -/
def Exchange.whole (e : Exchange) : Bool :=
  match e.framing with
  | .empty => e.body.isEmpty
  | .length n => e.body.length == n
  | _ => false

/-- Whether a connection has come to be on a descriptor that had none. -/
def appears (w w' : World) (fd : Fd) : Bool :=
  match w.slots fd, w'.slots fd with
  | .client _, _ => false
  | _, .client _ => true
  | _, _ => false

/-- The connection that a step moves on, where it is a turn that moves one on. -/
def movedOn (m : Machine) : Act → Option (Answers × Fd × Conn)
  | .turn ans =>
      match m.tasks with
      | .advance fd :: _ =>
          match m.world.slots fd with
          | .client c => some (ans, fd, c)
          | _ => none
      | _ => none
  | _ => none

/-- What the mirror lane counted over a step. -/
def fates (l l' : Lane) (e : Option Exchange) : List Fate :=
  (l'.mirrored.drop l.mirrored.length).map (fun copy => .enqueued copy e) ++
    List.replicate (l'.skipped - l.skipped) .skipped ++
    List.replicate (l'.failed - l.failed) .failed

/-- What is noted of the request a step was about. -/
def Watch.note (s : Watch) (r : Request) (plan : Option Plan) (e : Option Exchange)
    (counted : List Fate) : Watch :=
  { s with
    sampled := s.sampled ++ (plan.map fun p => ⟨r, p⟩).toList
    whole := if e.any Exchange.whole then s.whole ++ [r] else s.whole
    counted := s.counted ++ counted.map fun fate => (r, fate) }

variable (env : Outside)

/-- What is noted of a step: the connections that begin over it, and the request of the connection
it moves on. -/
def Watch.next (s : Watch) (m : Machine) (a : Act) (m' : Machine) : Watch :=
  let s' := { s with
    connections := fun fd => s.connections fd + if appears m.world m'.world fd then 1 else 0 }
  match movedOn m a with
  | none => s'
  | some (ans, fd, c) =>
      let e := (after m'.world fd).bind fun c' => c'.book.exchanges[c.book.past.length]?
      s'.note ⟨fd, s.connections fd, c.book.past.length⟩ (sampling env ans m.world c) e
        (fates (lane m.world) (lane m'.world) e)

/-- One step of a core, and of what is seen of it. -/
def observe (o : Watched) (a : Act) : Option Watched :=
  (step env o.machine a).map fun m' => ⟨m', o.watch.next env o.machine a m'⟩

/-- A request the observer has noted. -/
def Watch.Knows (s : Watch) (r : Request) : Prop := r ∈ s.sampled.map (·.request) ∨ r ∈ s.whole

/-- Whether a sampled request is to be counted by now: a copy of it was planned, and is settled or
has had its body received whole. -/
def Due (s : Watch) (p : Sampled) : Prop :=
  p.plan.planned = true ∧ (p.plan.settled = true ∨ p.request ∈ s.whole)

end Watching

section Books

/-- A copy that was enqueued has all of its request's body, and no more than is allowed. -/
def Fate.Faithful (most : Nat) : Fate → Prop
  | .enqueued copy e => ∃ e₁, e = some e₁ ∧ copy.body = e₁.body ∧ Exchange.whole e₁ = true ∧
      copy.body.length ≤ most
  | _ => True

/-- What is noted of a run agrees with the lane's own counters: each count is a sampled request's,
none is counted twice, and those are counted that are due. -/
structure Booked (l : Lane) (s : Watch) : Prop where
  copies : l.mirrored = s.counted.filterMap (·.2.copy)
  skips : l.skipped = s.counted.countP (·.2.isSkip)
  failures : l.failed = s.counted.countP (·.2.isFailure)
  once : (s.counted.map (·.1)).Nodup
  origin : ∀ r ∈ s.counted.map (·.1), r ∈ s.sampled.map (·.request)
  distinct : (s.sampled.map (·.request)).Nodup
  due : ∀ p ∈ s.sampled, p.request ∈ s.counted.map (·.1) ↔ Due s p
  faithful : ∀ p ∈ s.counted, p.2.Faithful l.config.mirrorMaxBody

/-- How the lane is moved by what is counted for one request. -/
def Lane.count (l : Lane) : Option Fate → Lane
  | none => l
  | some (.enqueued copy _) => l.send copy
  | some .skipped => l.skip
  | some .failed => l.fail

variable {l : Lane} {s : Watch} {r : Request} {plan : Option Plan} {e : Option Exchange}

theorem fates_count (l : Lane) (f : Option Fate) (e : Option Exchange)
    (h : ∀ copy e₁, f = some (.enqueued copy e₁) → e₁ = e) :
    fates l (Lane.count l f) e = f.toList := by
  unfold fates
  cases f with
  | none => simp [Lane.count]
  | some fate =>
      cases fate with
      | enqueued copy e₁ => simp [Lane.count, Lane.send, h copy e₁ rfl]
      | skipped => simp [Lane.count, Lane.skip]
      | failed => simp [Lane.count, Lane.fail]

theorem fates_none (l : Lane) (e : Option Exchange) : fates l l e = [] :=
  fates_count l none e fun _ _ h => absurd h (Option.some_ne_none _).symm

theorem fates_skip (l : Lane) (e : Option Exchange) : fates l l.skip e = [.skipped] :=
  fates_count l (some .skipped) e fun _ _ h => Fate.noConfusion (Option.some.inj h)

theorem fates_fail (l : Lane) (e : Option Exchange) : fates l l.fail e = [.failed] :=
  fates_count l (some .failed) e fun _ _ h => Fate.noConfusion (Option.some.inj h)

theorem fates_send (l : Lane) (copy : MirrorCopy) (e : Option Exchange) :
    fates l (l.send copy) e = [.enqueued copy e] :=
  fates_count l (some (.enqueued copy e)) e fun _ _ h =>
    (Fate.enqueued.inj (Option.some.inj h)).2.symm

theorem count_config (l : Lane) (f : Option Fate) : (Lane.count l f).config = l.config := by
  cases f with
  | none => rfl
  | some fate => cases fate <;> rfl

/-- One request more is noted, and at most one count of it. -/
theorem Booked.note (h : Booked l s) {f : Option Fate}
    (hfresh : plan.isSome = true → r ∉ s.sampled.map (·.request))
    (hcounted : f.isSome = true → r ∉ s.counted.map (·.1))
    (hdue : ∀ p ∈ (s.note r plan e f.toList).sampled, p.request = r →
      (r ∈ (s.note r plan e f.toList).counted.map (·.1) ↔ Due (s.note r plan e f.toList) p))
    (hsampled : f.isSome = true → r ∈ (s.note r plan e f.toList).sampled.map (·.request))
    (hfaithful : ∀ fate ∈ f, fate.Faithful l.config.mirrorMaxBody) :
    Booked (Lane.count l f) (s.note r plan e f.toList) := by
  have hcounts : ∀ r', r' ∈ (s.note r plan e f.toList).counted.map (·.1) ↔
      r' ∈ s.counted.map (·.1) ∨ (r' = r ∧ f.isSome = true) := by
    intro r'
    simp only [Watch.note, List.map_append, List.map_map, List.mem_append]
    cases f <;> simp
  constructor
  · simp only [Watch.note, List.filterMap_append, ← h.copies]
    cases f with
    | none => simp [Lane.count]
    | some fate => cases fate <;> simp [Lane.count, Lane.send, Lane.skip, Lane.fail, Fate.copy]
  · simp only [Watch.note, List.countP_append, ← h.skips]
    cases f with
    | none => simp [Lane.count]
    | some fate => cases fate <;> simp [Lane.count, Lane.send, Lane.skip, Lane.fail, Fate.isSkip]
  · simp only [Watch.note, List.countP_append, ← h.failures]
    cases f with
    | none => simp [Lane.count]
    | some fate =>
        cases fate <;> simp [Lane.count, Lane.send, Lane.skip, Lane.fail, Fate.isFailure]
  · simp only [Watch.note, List.map_append, List.map_map]
    refine List.nodup_append.mpr ⟨h.once, ?_, ?_⟩
    · cases f <;> simp
    · intro r₁ hr₁ r₂ hr₂ heq
      cases f with
      | none => simp at hr₂
      | some fate =>
          have hsame : r₂ = r := by simpa using hr₂
          exact hcounted rfl (by rw [← hsame, ← heq]; exact hr₁)
  · intro r' hr'
    rcases (hcounts r').mp hr' with hold | ⟨rfl, hsome⟩
    · simp only [Watch.note, List.map_append]
      exact List.mem_append_left _ (h.origin r' hold)
    · exact hsampled hsome
  · simp only [Watch.note, List.map_append]
    refine List.nodup_append.mpr ⟨h.distinct, ?_, ?_⟩
    · cases plan <;> simp
    · intro r₁ hr₁ r₂ hr₂ heq
      cases plan with
      | none => simp at hr₂
      | some p =>
          have hsame : r₂ = r := by simpa using hr₂
          exact hfresh rfl (by rw [← hsame, ← heq]; exact hr₁)
  · intro p hp
    by_cases hsame : p.request = r
    · rw [hsame]
      exact hdue p hp hsame
    · have hold : p ∈ s.sampled := by
        rcases List.mem_append.mp hp with hold | hnew
        · exact hold
        · cases plan with
          | none => cases hnew
          | some q =>
              rw [Option.map_some, Option.toList_some, List.mem_singleton] at hnew
              rw [hnew] at hsame
              exact absurd rfl hsame
      have hwhole : p.request ∈ (s.note r plan e f.toList).whole ↔ p.request ∈ s.whole := by
        unfold Watch.note
        dsimp only
        split
        · simp [hsame]
        · rfl
      unfold Due
      rw [hcounts, hwhole]
      have hnot : ¬ (p.request = r ∧ f.isSome = true) := fun hboth => hsame hboth.1
      rw [or_iff_left hnot]
      exact h.due p hold
  · intro p hp
    rw [count_config]
    rcases List.mem_append.mp hp with hold | hnew
    · exact h.faithful p hold
    · obtain ⟨fate, hfate, rfl⟩ := List.mem_map.mp hnew
      exact hfaithful fate (Option.mem_toList.mp hfate)

end Books

end Ramjet.Engine.Worker.MirrorBooks
