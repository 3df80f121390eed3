/- digest: A history used one operation at a time, from its first recording on. -/

import Mathlib.Data.List.Nodup
import Ramjet.Base.Recency
import Ramjet.Proxy.PublishOrder

set_option autoImplicit false
set_option relaxedAutoImplicit false

namespace Ramjet.Proxy.Operations

open Ramjet.Base.Machine
open Ramjet.Base.Recency
open Ramjet.Router.Table
open Ramjet.Proxy.Tls
open Ramjet.Proxy.History
open Ramjet.Proxy.PublishOrder

variable {Key Diff : Type}

section Calls

/-- What the lock holder decides to do. -/
def planned (w : World Key Diff) (op : Op Key Diff) : Plan Key Diff :=
  plan w.capacity w.routes.table.generation w.state op

/-- Certificates first, then the table that names them. -/
def apply (w : World Key Diff) : Option (CertKeys Key × RouteTable) → World Key Diff
  | some (keys, table) => { w with certs := w.certs.publish keys, routes := ⟨table, keys⟩ }
  | none => w

/-- One operation from taking the lock to releasing it. -/
def perform (w : World Key Diff) (op : Op Key Diff) : World Key Diff :=
  { apply w (planned w op).applied with
    state := (planned w op).state
    outcomes := w.outcomes ++ [(planned w op).outcome]
    changes :=
      if w.notify then w.changes ++ (planned w op).announced.toList else w.changes }

/-- The atomic steps an operation takes when no other is under way. -/
def actions (w : World Key Diff) (op : Op Key Diff) : List (Action Key Diff) :=
  match (planned w op).applied with
  | some _ => [.call op, .publishCerts, .storeRoutes, .release]
  | none => [.call op, .release]

/-- An operation that has the lock to itself does in its atomic steps what it does as a whole. -/
theorem run_actions (w : World Key Diff) (op : Op Key Diff) (hidle : w.underway = none) :
    run step w (actions w op) = some (perform w op) := by
  obtain ⟨capacity, routes, certs, state, notify, underway, lookups, answers, outcomes, changes⟩ :=
    w
  subst hidle
  cases happlied : (plan capacity routes.table.generation state op).applied with
  | none => simp [actions, perform, apply, planned, run, step, firstStage, happlied]
  | some pair => simp [actions, perform, apply, planned, run, step, firstStage, happlied]

def performAll (w : World Key Diff) (ops : List (Op Key Diff)) : World Key Diff :=
  ops.foldl perform w

theorem World.capacity_new_pos (table : RouteTable) (certs : CertStore Key) (capacity : Nat)
    (notify : Bool) : 0 < (World.new table certs capacity notify : World Key Diff).capacity :=
  Nat.lt_of_lt_of_le Nat.zero_lt_one (Nat.le_max_right capacity 1)

/-- The certificates and the table on the wire. -/
def served (w : World Key Diff) : CertKeys Key × RouteTable := (w.certs.inner, w.routes.table)

theorem state_perform (w : World Key Diff) (op : Op Key Diff) :
    (perform w op).state = (planned w op).state := rfl

theorem served_perform (w : World Key Diff) (op : Op Key Diff) :
    served (perform w op) = (planned w op).applied.getD (served w) := by
  unfold served perform
  rcases (planned w op).applied with _ | ⟨keys, table⟩
  · rfl
  · rfl

@[simp] theorem capacity_perform (w : World Key Diff) (op : Op Key Diff) :
    (perform w op).capacity = w.capacity := by
  unfold perform
  rcases (planned w op).applied with _ | ⟨keys, table⟩
  · rfl
  · rfl

@[simp] theorem performAll_nil (w : World Key Diff) : performAll w [] = w := rfl

theorem performAll_concat (w : World Key Diff) (ops : List (Op Key Diff)) (op : Op Key Diff) :
    performAll w (ops ++ [op]) = perform (performAll w ops) op := by
  simp [performAll]

@[simp] theorem capacity_performAll (w : World Key Diff) (ops : List (Op Key Diff)) :
    (performAll w ops).capacity = w.capacity := by
  induction ops using List.reverseRecOn with
  | nil => rfl
  | append_singleton ops op ih => rw [performAll_concat, capacity_perform, ih]

end Calls

section Ring

variable {s : State Key Diff} {record held : GenerationRecord Key Diff} {capacity : Nat}

theorem mem_ring_push (h : held ∈ (s.push record capacity).ring) :
    held = record ∨ (held ∈ s.ring ∧ held.generation ≠ record.generation) := by
  rcases List.mem_append.mp (List.mem_of_mem_drop h) with h | h
  · obtain ⟨hmem, hne⟩ := List.mem_filter.mp h
    exact .inr ⟨hmem, by simpa using hne⟩
  · exact .inl (List.mem_singleton.mp h)

@[simp] theorem pinned_push : (s.push record capacity).pinned = s.pinned := rfl

/-- The record just pushed is the newest one held. -/
theorem getLast_push (hcapacity : 0 < capacity) :
    (s.push record capacity).ring.getLast? = some record := by
  unfold State.push
  simp only
  rw [List.getLast?_drop, if_neg, List.getLast?_concat]
  rw [List.length_append, List.length_singleton]
  omega

theorem length_push : (s.push record capacity).ring.length ≤ capacity := by
  unfold State.push
  simp only [List.length_drop]
  omega

theorem mem_ring_markPublished {generation : Nat}
    (h : held ∈ (s.markPublished generation).ring) :
    ∃ entry ∈ s.ring, (entry.generation = generation ∧ held = { entry with published := true }) ∨
      (entry.generation ≠ generation ∧ held = entry) := by
  obtain ⟨entry, hmem, rfl⟩ := List.mem_map.mp h
  by_cases hsame : entry.generation = generation
  · exact ⟨entry, hmem, .inl ⟨hsame, by rw [if_pos hsame]⟩⟩
  · exact ⟨entry, hmem, .inr ⟨hsame, by rw [if_neg hsame]⟩⟩

@[simp] theorem pinned_markPublished (generation : Nat) :
    (s.markPublished generation).pinned = s.pinned := rfl

/-- Marking a record published leaves the order and the numbers of the ring alone. -/
@[simp] theorem generations_markPublished (generation : Nat) :
    (s.markPublished generation).ring.map (·.generation) = s.ring.map (·.generation) := by
  unfold State.markPublished
  rw [List.map_map]
  apply List.map_congr_left
  intro entry _
  simp only [Function.comp_apply]
  split <;> rfl

/-- In the order of its numbers the ring moves what is recorded to the end. -/
theorem generations_push : (s.push record capacity).ring.map (·.generation) =
    touch capacity (s.ring.map (·.generation)) record.generation := by
  have hfilter : (s.ring.filter fun held => held.generation != record.generation).map
      (·.generation) =
        (s.ring.map (·.generation)).filter (fun generation => generation != record.generation) := by
    rw [List.filter_map]
    rfl
  unfold State.push touch newest
  simp only
  rw [List.map_drop, List.map_append, hfilter, List.map_singleton]
  congr 2
  rw [← List.length_map (f := (·.generation)), List.map_append, hfilter, List.map_singleton]

/-- Where the numbers are unique, a record is found by its number. -/
theorem eq_of_generation (hunique : (s.ring.map (·.generation)).Nodup) (hrecord : record ∈ s.ring)
    (hheld : held ∈ s.ring) (hsame : record.generation = held.generation) : record = held :=
  List.inj_on_of_nodup_map hunique hrecord hheld hsame

end Ring

section Effects

/-- What an operation may do, with everything it leaves behind. -/
inductive Effect (w : World Key Diff) : Op Key Diff → Plan Key Diff → Prop
  | live (generation digest : Nat) (diff : Diff) (table : RouteTable) (keys : CertKeys Key)
      (now : Nat) (hpinned : w.state.pinned = none) :
      Effect w (.record generation digest diff table keys now)
        ⟨some (keys, table),
          w.state.push ⟨generation, now, true, digest, diff, table, keys⟩ w.capacity,
          .recorded true, none⟩
  | heldBack (generation digest : Nat) (diff : Diff) (table : RouteTable) (keys : CertKeys Key)
      (now current : Nat) (hpinned : w.state.pinned = some current) :
      Effect w (.record generation digest diff table keys now)
        ⟨none, w.state.push ⟨generation, now, false, digest, diff, table, keys⟩ w.capacity,
          .recorded false, none⟩
  | refused (generation : Nat) (error : PinError) :
      Effect w (.pin generation) ⟨none, w.state, .pinned (.error error), none⟩
  | pinned (record : GenerationRecord Key Diff) (hpinned : w.state.pinned = none)
      (hmem : record ∈ w.state.ring) :
      Effect w (.pin record.generation)
        ⟨some (record.keys, record.table),
          { w.state with pinned := some record.generation }.markPublished record.generation,
          .pinned (.ok ()), some (.pinned record.generation w.routes.table.generation)⟩
  | unheld (hpinned : w.state.pinned = none) :
      Effect w .unpin ⟨none, w.state, .unpinned none, none⟩
  | emptied (current : Nat) (hpinned : w.state.pinned = some current)
      (hempty : w.state.ring = []) :
      Effect w .unpin ⟨none, { w.state with pinned := none }, .unpinned none, none⟩
  | resumed (current : Nat) (latest : GenerationRecord Key Diff)
      (hpinned : w.state.pinned = some current) (hlatest : w.state.ring.getLast? = some latest) :
      Effect w .unpin
        ⟨some (latest.keys, latest.table),
          { w.state with pinned := none }.markPublished latest.generation,
          .unpinned (some latest.generation), some (.resumed latest.generation)⟩

/-- Every operation does one of these. -/
theorem effect_planned (w : World Key Diff) (op : Op Key Diff) : Effect w op (planned w op) := by
  cases op with
  | record generation digest diff table keys now =>
      change Effect w _ (planRecord w.capacity w.state generation digest diff table keys now)
      unfold planRecord
      cases hpinned : w.state.pinned with
      | none => exact .live generation digest diff table keys now hpinned
      | some current => exact .heldBack generation digest diff table keys now current hpinned
  | pin generation =>
      change Effect w _ (planPin w.routes.table.generation w.state generation)
      unfold planPin
      cases hpinned : w.state.pinned with
      | some current => exact .refused generation _
      | none =>
          cases hfound : w.state.ring.find? fun record => record.generation == generation with
          | none => exact .refused generation _
          | some record =>
              have hmem := List.mem_of_find?_eq_some hfound
              have hsame : record.generation = generation := by
                simpa using List.find?_some hfound
              subst hsame
              exact .pinned record hpinned hmem
  | unpin =>
      change Effect w _ (planUnpin w.state)
      unfold planUnpin
      cases hpinned : w.state.pinned with
      | none => exact .unheld hpinned
      | some current =>
          cases hlatest : w.state.ring.getLast? with
          | none => exact .emptied current hpinned (List.getLast?_eq_none_iff.mp hlatest)
          | some latest => exact .resumed current latest hpinned hlatest

theorem exists_effect (w : World Key Diff) (op : Op Key Diff) :
    ∃ p, planned w op = p ∧ Effect w op p := ⟨_, rfl, effect_planned w op⟩

end Effects

end Ramjet.Proxy.Operations
