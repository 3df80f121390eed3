/- digest: Counters that only add, kept whole or in shards, read the same for the same events. -/

import Mathlib.Algebra.BigOperators.Group.List.Basic

set_option autoImplicit false
set_option relaxedAutoImplicit false

namespace Ramjet.Base.Shards

variable {σ τ ε M : Type} [AddCommMonoid M]

/-- Every event adds its own share to what is read, whatever was counted before. -/
def Adds (inv : σ → Prop) (step : σ → ε → σ) (reading : σ → M) (share : ε → M) : Prop :=
  ∀ s e, inv s → inv (step s e) ∧ reading (step s e) = reading s + share e

/-- What all shards are read as. -/
def readAll (reading : σ → M) (shards : List σ) : M := (shards.map reading).sum

section Shards

variable {inv : σ → Prop} {inv' : τ → Prop} {step : σ → ε → σ} {step' : τ → ε → τ}
  {reading : σ → M} {reading' : τ → M} {share : ε → M}

theorem Adds.foldl (h : Adds inv step reading share) (events : List ε) {s : σ} (hs : inv s) :
    reading (events.foldl step s) = reading s + (events.map share).sum := by
  induction events generalizing s with
  | nil => exact (add_zero _).symm
  | cons e rest ih =>
      obtain ⟨hnext, hread⟩ := h s e hs
      rw [List.foldl_cons, ih hnext, hread, List.map_cons, List.sum_cons, add_assoc]

/-- A shard that is given more gives more to all of them. -/
theorem readAll_modify {f : σ → σ} {m : M} (h : ∀ s, reading (f s) = reading s + m)
    (shards : List σ) {i : Nat} (hi : i < shards.length) :
    readAll reading (shards.modify i f) = readAll reading shards + m := by
  unfold readAll
  induction shards generalizing i with
  | nil => cases hi
  | cons s rest ih =>
      cases i with
      | zero => simp only [List.modify_zero_cons, List.map_cons, List.sum_cons, h, add_right_comm]
      | succ i =>
          rw [List.modify_succ_cons, List.map_cons, List.sum_cons, List.map_cons, List.sum_cons,
            ih (Nat.lt_of_succ_lt_succ hi), add_assoc]

/-- Two ways of counting that add the same for every event read the same after the same events. -/
theorem Adds.agree (h : Adds inv step reading share) (h' : Adds inv' step' reading' share) {s : σ}
    {s' : τ} (hs : inv s) (hs' : inv' s') (hstart : reading s = reading' s') (events : List ε) :
    reading (events.foldl step s) = reading' (events.foldl step' s') := by
  rw [h.foldl events hs, h'.foldl events hs', hstart]

end Shards

end Ramjet.Base.Shards
