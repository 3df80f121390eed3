/- digest: The weighted rotation: what the interleaving loop emits, and how long the ring grows. -/

import Mathlib.Algebra.Order.BigOperators.Group.List
import Mathlib.Algebra.Order.Ring.Nat
import Ramjet.Router.Stats

set_option autoImplicit false
set_option relaxedAutoImplicit false

namespace Ramjet.Router.Rotation

open Ramjet.Base.Octets
open Ramjet.Base.Net
open Ramjet.Router.Balancing
open Ramjet.Router.Rule (U32_SIZE)
open Ramjet.Router.Stats (U64_SIZE)

section Rounds

/-- What one pass emits when its first endpoint has index `k`. -/
private abbrev emitted (remaining : List Nat) (k : Nat) : List Nat :=
  ((remaining.zipIdx k).filter fun p => 0 < p.1).map (·.2)

private theorem emitted_cons (n : Nat) (remaining : List Nat) (k : Nat) :
    emitted (n :: remaining) k =
      if 0 < n then k :: emitted remaining (k + 1) else emitted remaining (k + 1) := by
  simp only [emitted, List.zipIdx_cons, List.filter_cons, decide_eq_true_eq]
  split <;> rfl

private theorem count_emitted_of_lt (remaining : List Nat) {j k : Nat} (hlt : j < k) :
    (emitted remaining k).count j = 0 := by
  induction remaining generalizing k with
  | nil => rfl
  | cons n remaining ih =>
      rw [emitted_cons]
      split
      · rw [List.count_cons_of_ne (by omega), ih (by omega)]
      · exact ih (by omega)

private theorem count_emitted (remaining : List Nat) (i k : Nat) :
    (emitted remaining k).count (k + i) = min (remaining[i]?.getD 0) 1 := by
  induction remaining generalizing i k with
  | nil => rfl
  | cons n remaining ih =>
      rw [emitted_cons]
      cases i with
      | zero =>
          have hrest := count_emitted_of_lt remaining (Nat.lt_succ_self k)
          split
          · simp only [Nat.add_zero, List.count_cons_self, hrest, List.getElem?_cons_zero,
              Option.getD_some]
            omega
          · simp only [Nat.add_zero, hrest, List.getElem?_cons_zero, Option.getD_some]
            omega
      | succ i =>
          have hnext := ih i (k + 1)
          rw [show k + 1 + i = k + (i + 1) by omega] at hnext
          split
          · rw [List.count_cons_of_ne (by omega), hnext, List.getElem?_cons_succ]
          · rw [hnext, List.getElem?_cons_succ]

private theorem length_emitted (remaining : List Nat) (k : Nat) :
    (emitted remaining k).length + (remaining.map (· - 1)).sum = remaining.sum := by
  induction remaining generalizing k with
  | nil => rfl
  | cons n remaining ih =>
      have hrest := ih (k + 1)
      rw [emitted_cons]
      simp only [List.map_cons, List.sum_cons]
      split
      · rw [List.length_cons]
        omega
      · omega

private theorem sum_eq_zero_of_emitted_nil {remaining : List Nat} {k : Nat}
    (hnil : emitted remaining k = []) : remaining.sum = 0 := by
  induction remaining generalizing k with
  | nil => rfl
  | cons n remaining ih =>
      rw [emitted_cons] at hnil
      split at hnil
      · cases hnil
      · rw [List.sum_cons, ih hnil]
        omega

/-- A pass gives each endpoint with slots left one of them. -/
theorem count_ringRound (remaining : List Nat) (i : Nat) :
    (ringRound remaining).1.count i + (ringRound remaining).2[i]?.getD 0 =
      remaining[i]?.getD 0 := by
  have hemitted := count_emitted remaining i 0
  rw [Nat.zero_add] at hemitted
  have hleft : (ringRound remaining).2[i]?.getD 0 = remaining[i]?.getD 0 - 1 := by
    simp only [ringRound, List.getElem?_map]
    cases remaining[i]? <;> rfl
  have hround : (ringRound remaining).1.count i = min (remaining[i]?.getD 0) 1 := hemitted
  omega

theorem length_ringRound (remaining : List Nat) :
    (ringRound remaining).1.length + (ringRound remaining).2.sum = remaining.sum :=
  length_emitted remaining 0

/-- The loop stops with the ring full: the early exit is never taken. -/
theorem length_ringLoop {slots : Nat} {remaining ring : List Nat}
    (hslots : ring.length + remaining.sum = slots) :
    (ringLoop slots remaining ring).length = slots := by
  fun_induction ringLoop slots remaining ring with
  | case1 remaining ring hlt round hnil =>
      have hzero := sum_eq_zero_of_emitted_nil (List.isEmpty_iff.mp hnil)
      omega
  | case2 remaining ring hlt round hsome ih =>
      refine ih ?_
      have hround : round.1.length + round.2.sum = remaining.sum := length_ringRound remaining
      rw [List.length_append]
      omega
  | case3 remaining ring hfull => omega

/-- Over the whole loop each endpoint is emitted as often as it has slots. -/
theorem count_ringLoop {slots : Nat} {remaining ring : List Nat}
    (hslots : ring.length + remaining.sum = slots) (i : Nat) :
    (ringLoop slots remaining ring).count i = ring.count i + remaining[i]?.getD 0 := by
  fun_induction ringLoop slots remaining ring with
  | case1 remaining ring hlt round hnil =>
      have hzero := sum_eq_zero_of_emitted_nil (List.isEmpty_iff.mp hnil)
      omega
  | case2 remaining ring hlt round hsome ih =>
      have hround : round.1.length + round.2.sum = remaining.sum := length_ringRound remaining
      have hcount : round.1.count i + round.2[i]?.getD 0 = remaining[i]?.getD 0 :=
        count_ringRound remaining i
      rw [ih (by rw [List.length_append]; omega), List.count_append]
      omega
  | case3 remaining ring hfull =>
      have hzero : remaining.sum = 0 := by omega
      have hnone : remaining[i]?.getD 0 = 0 := by
        cases hget : remaining[i]? with
        | none => rfl
        | some n =>
            exact (List.sum_eq_zero_iff_forall_eq_nat.mp hzero) n (List.mem_of_getElem? hget)
      omega

end Rounds

section Scaling

variable (total : Nat)

/-- What the minimum of one slot adds to the endpoints whose share is less than a slot. -/
def roundedUp (weights : List Nat) : Nat :=
  ((weights.filter fun w => 0 < w && w * MAX_RING < total).map
    fun w => total - w * MAX_RING).sum

/-- What truncation takes from the endpoints whose share is a slot or more. -/
def roundedDown (weights : List Nat) : Nat :=
  ((weights.filter fun w => decide (total ≤ w * MAX_RING)).map
    fun w => w * MAX_RING % total).sum

private theorem roundedUp_cons (w : Nat) (weights : List Nat) :
    roundedUp total (w :: weights) =
      (if 0 < w ∧ w * MAX_RING < total then total - w * MAX_RING else 0) +
        roundedUp total weights := by
  simp only [roundedUp, List.filter_cons, Bool.and_eq_true, decide_eq_true_eq]
  split
  · rw [List.map_cons, List.sum_cons]
  · rw [Nat.zero_add]

private theorem roundedDown_cons (w : Nat) (weights : List Nat) :
    roundedDown total (w :: weights) =
      (if total ≤ w * MAX_RING then w * MAX_RING % total else 0) +
        roundedDown total weights := by
  simp only [roundedDown, List.filter_cons, decide_eq_true_eq]
  split
  · rw [List.map_cons, List.sum_cons]
  · rw [Nat.zero_add]

variable {total}

/-- One endpoint's slots against its exact share, in units of a slot's `total`. -/
private theorem ringScale_share (hlarge : MAX_RING < total) (w : Nat) :
    total * ringScale total w + (if total ≤ w * MAX_RING then w * MAX_RING % total else 0) =
      w * MAX_RING +
        (if 0 < w ∧ w * MAX_RING < total then total - w * MAX_RING else 0) := by
  have htotal : 0 < total := Nat.lt_of_le_of_lt (Nat.zero_le _) hlarge
  rcases Nat.eq_zero_or_pos w with rfl | hpos
  · simp [ringScale, htotal]
  · have hne : w ≠ 0 := Nat.pos_iff_ne_zero.mp hpos
    rw [ringScale, if_neg hne, if_neg (by omega)]
    rcases Nat.lt_or_ge (w * MAX_RING) total with hstarved | hfed
    · rw [Nat.div_eq_of_lt hstarved, if_neg (by omega), if_pos ⟨hpos, hstarved⟩]
      simp only [Nat.zero_le, Nat.max_eq_right, Nat.mul_one]
      omega
    · have hone : 1 ≤ w * MAX_RING / total := (Nat.one_le_div_iff htotal).mpr hfed
      rw [Nat.max_eq_left hone, if_pos hfed, if_neg (by omega), Nat.add_zero]
      exact Nat.div_add_mod _ _

/-- Over all endpoints the slots differ from `MAX_RING` by what was rounded up and down. -/
theorem ringScale_sum (hlarge : MAX_RING < total) (weights : List Nat) :
    total * (weights.map (ringScale total)).sum + roundedDown total weights =
      weights.sum * MAX_RING + roundedUp total weights := by
  induction weights with
  | nil => simp [roundedUp, roundedDown]
  | cons w weights ih =>
      have hshare := ringScale_share hlarge w
      rw [roundedUp_cons, roundedDown_cons, List.map_cons, List.sum_cons, List.sum_cons,
        Nat.mul_add, Nat.add_mul]
      omega

theorem ringScale_small {w : Nat} (hsmall : total ≤ MAX_RING) : ringScale total w = w := by
  rw [ringScale, if_pos hsmall]
  split <;> omega

theorem ringScale_pos {w : Nat} (hpos : 0 < w) : 1 ≤ ringScale total w := by
  rw [ringScale, if_neg (by omega)]
  split
  · exact hpos
  · exact Nat.le_max_right _ _

theorem ringScale_le {w : Nat} (hw : w ≤ total) : ringScale total w ≤ MAX_RING := by
  unfold ringScale
  split
  · exact Nat.zero_le _
  · rename_i hne
    split
    · omega
    · refine Nat.max_le.mpr ⟨?_, by decide⟩
      rw [Nat.div_le_iff_le_mul_add_pred (by omega)]
      have hmul := Nat.mul_le_mul_right MAX_RING hw
      omega

end Scaling

section Ring

/-- The weights of a list of endpoints. -/
abbrev weights (endpoints : List Endpoint) : List Nat := endpoints.map (·.weight)

/-- Where a ring is built it is the loop run from nothing, over weights that are not all zero. -/
theorem buildRing_eq_some {endpoints : List Endpoint} {ring : List Nat}
    (hring : buildRing endpoints = some ring) :
    0 < (weights endpoints).sum ∧
      ring = ringLoop ((weights endpoints).map (ringScale (weights endpoints).sum)).sum
        ((weights endpoints).map (ringScale (weights endpoints).sum)) [] := by
  unfold buildRing at hring
  split at hring
  · cases hring
  · split at hring
    · cases hring
    · simp only at hring
      split at hring
      · cases hring
      · rename_i hne
        split at hring
        · cases hring
        · refine ⟨Nat.pos_iff_ne_zero.mpr hne, ?_⟩
          rw [← Option.some.inj hring]
          simp only [weights, List.map_map, Function.comp_def]

theorem ring_length {endpoints : List Endpoint} {ring : List Nat}
    (hring : buildRing endpoints = some ring) :
    ring.length = ((weights endpoints).map (ringScale (weights endpoints).sum)).sum := by
  obtain ⟨-, hloop⟩ := buildRing_eq_some hring
  rw [hloop]
  exact length_ringLoop (by simp)

/-- An endpoint stands in the ring as often as it was given slots. -/
theorem ring_count {endpoints : List Endpoint} {ring : List Nat}
    (hring : buildRing endpoints = some ring) {i : Nat} {ep : Endpoint}
    (hep : endpoints[i]? = some ep) :
    ring.count i = ringScale (weights endpoints).sum ep.weight := by
  obtain ⟨-, hloop⟩ := buildRing_eq_some hring
  rw [hloop, count_ringLoop (by simp)]
  simp [weights, hep]

/-- The ring names nothing but endpoints. -/
theorem ring_index {endpoints : List Endpoint} {ring : List Nat}
    (hring : buildRing endpoints = some ring) {i : Nat} (hmem : i ∈ ring) :
    i < endpoints.length := by
  by_contra hout
  obtain ⟨-, hloop⟩ := buildRing_eq_some hring
  have hcount : ring.count i = 0 := by
    rw [hloop, count_ringLoop (by simp)]
    simp [weights, Nat.le_of_not_lt hout]
  exact (List.count_eq_zero.mp hcount) hmem

/-- A drained endpoint has no place in the ring. -/
theorem ring_weight {endpoints : List Endpoint} {ring : List Nat}
    (hring : buildRing endpoints = some ring) {i : Nat} (hmem : i ∈ ring) {ep : Endpoint}
    (hep : endpoints[i]? = some ep) : 0 < ep.weight := by
  have hcount := ring_count hring hep
  have hpos : 0 < ring.count i := List.count_pos_iff.mpr hmem
  by_contra hzero
  rw [show ep.weight = 0 by omega] at hcount
  simp [ringScale] at hcount
  omega

/-- Every number the construction forms fits the type the code keeps it in. -/
structure InRange (endpoints : List Endpoint) : Prop where
  totals : ∀ k, ((weights endpoints).take k).sum < U64_SIZE
  products : ∀ w ∈ weights endpoints, w * MAX_RING < U64_SIZE
  scaled : ∀ w ∈ weights endpoints, ringScale (weights endpoints).sum w < U32_SIZE
  slots : ∀ k,
    (((weights endpoints).map (ringScale (weights endpoints).sum)).take k).sum < U64_SIZE
  indices : endpoints.length ≤ U32_SIZE

/-- What a built ring has whatever the weights are. -/
structure Placed (endpoints : List Endpoint) (ring : List Nat) : Prop where
  live : ∀ i ep, endpoints[i]? = some ep → 0 < ep.weight → 1 ≤ ring.count i
  drained : ∀ i ep, endpoints[i]? = some ep → ep.weight = 0 → ring.count i = 0
  exact : (weights endpoints).sum ≤ MAX_RING →
    ∀ i ep, endpoints[i]? = some ep → ring.count i = ep.weight
  full : ring.length = ((weights endpoints).map (ringScale (weights endpoints).sum)).sum

theorem placed_of_built {endpoints : List Endpoint} {ring : List Nat}
    (hring : buildRing endpoints = some ring) : Placed endpoints ring where
  live i ep hep hpos := by
    rw [ring_count hring hep]
    exact ringScale_pos hpos
  drained i ep hep hzero := by
    rw [ring_count hring hep, hzero]
    rfl
  exact hsmall i ep hep := by
    rw [ring_count hring hep, ringScale_small hsmall]
  full := ring_length hring

private theorem sum_lt_of_bounded {xs : List Nat} {bound : Nat} (hxs : ∀ x ∈ xs, x < bound)
    (hlength : xs.length ≤ MAX_RING) (hbound : bound ≤ U32_SIZE) (k : Nat) :
    (xs.take k).sum < U64_SIZE := by
  have hsum : (xs.take k).sum ≤ (xs.take k).length * bound := by
    refine List.sum_le_card_nsmul _ _ ?_
    intro x hx
    exact (hxs x (List.mem_of_mem_take hx)).le
  have hlen : (xs.take k).length ≤ MAX_RING := by
    rw [List.length_take]
    omega
  have hmul := Nat.mul_le_mul hlen hbound
  have hroom : MAX_RING * U32_SIZE < U64_SIZE := by decide
  omega

theorem inRange_of_words {endpoints : List Endpoint} (hlength : endpoints.length ≤ MAX_RING)
    (hwords : ∀ ep ∈ endpoints, ep.weight < U32_SIZE) : InRange endpoints := by
  have hweights : ∀ w ∈ weights endpoints, w < U32_SIZE := by
    intro w hw
    obtain ⟨ep, hep, rfl⟩ := List.mem_map.mp hw
    exact hwords ep hep
  have hscaled : ∀ w ∈ weights endpoints, ringScale (weights endpoints).sum w < U32_SIZE := by
    intro w hw
    have hle := ringScale_le (List.le_sum_of_mem hw)
    exact Nat.lt_of_le_of_lt hle (by decide)
  refine ⟨?_, ?_, hscaled, ?_, ?_⟩
  · exact sum_lt_of_bounded hweights (by simpa using hlength) le_rfl
  · intro w hw
    have hmul := Nat.mul_le_mul_right MAX_RING (hweights w hw).le
    have hroom : U32_SIZE * MAX_RING < U64_SIZE := by decide
    omega
  · refine sum_lt_of_bounded ?_ (by simpa using hlength) le_rfl
    intro n hn
    obtain ⟨w, hw, rfl⟩ := List.mem_map.mp hn
    exact hscaled w hw
  · have hroom : MAX_RING ≤ U32_SIZE := by decide
    omega

/-- What the minimum of one slot adds is no more than what truncation takes away. -/
def Capped (ws : List Nat) : Prop :=
  ws.sum ≤ MAX_RING ∨ roundedUp ws.sum ws ≤ roundedDown ws.sum ws

theorem ring_capped_iff {endpoints : List Endpoint} {ring : List Nat}
    (hring : buildRing endpoints = some ring) :
    ring.length ≤ MAX_RING ↔ Capped (weights endpoints) := by
  obtain ⟨htotal, -⟩ := buildRing_eq_some hring
  rw [ring_length hring, Capped]
  rcases Nat.lt_or_ge MAX_RING (weights endpoints).sum with hlarge | hsmall
  · have hsum := ringScale_sum hlarge (weights endpoints)
    rw [← Nat.mul_le_mul_left_iff htotal]
    constructor
    · intro hle
      exact .inr (by omega)
    · rintro (hle | hle) <;> omega
  · have hsame : (weights endpoints).map (ringScale (weights endpoints).sum) =
        weights endpoints := by
      refine (List.map_congr_left fun w _ => ringScale_small hsmall).trans ?_
      exact List.map_id _
    rw [hsame]
    exact ⟨.inl, fun _ => hsmall⟩

/-- A built ring is as the weights ask, without overflow and within the cap. -/
theorem ring_sound_iff {endpoints : List Endpoint} {ring : List Nat}
    (hring : buildRing endpoints = some ring) (hlength : endpoints.length ≤ MAX_RING)
    (hwords : ∀ ep ∈ endpoints, ep.weight < U32_SIZE) :
    (ring.length ≤ MAX_RING ∧ Placed endpoints ring ∧ InRange endpoints) ↔
      Capped (weights endpoints) := by
  rw [← ring_capped_iff hring]
  constructor
  · rintro ⟨hcap, -, -⟩
    exact hcap
  · intro hcap
    exact ⟨hcap, placed_of_built hring, inRange_of_words hlength hwords⟩

/-- Endpoints of these weights, at one address. -/
def weighted (ws : List Nat) : List Endpoint :=
  ws.map fun w => ⟨⟨.v4 (Vector.replicate 4 10), 8080, 0⟩, w⟩

/-- Two endpoints under one slot's share, beside a third whose share all but fills the ring. -/
theorem ring_overlong :
    ∃ ring, buildRing (weighted [1000000, 1, 1]) = some ring ∧ ¬ ring.length ≤ MAX_RING := by
  obtain ⟨ring, hring⟩ : ∃ ring, buildRing (weighted [1000000, 1, 1]) = some ring := ⟨_, rfl⟩
  refine ⟨ring, hring, ?_⟩
  rw [ring_length hring]
  decide

/-- What truncation takes from the first two makes room for the slot of the third. -/
theorem ring_sound_roomy :
    ∃ ring, buildRing (weighted [5000, 4999, 1]) = some ring ∧ ring.length ≤ MAX_RING ∧
      Placed (weighted [5000, 4999, 1]) ring ∧ InRange (weighted [5000, 4999, 1]) := by
  obtain ⟨ring, hring⟩ : ∃ ring, buildRing (weighted [5000, 4999, 1]) = some ring := ⟨_, rfl⟩
  have hsound := ring_sound_iff hring (by decide) (by decide)
  exact ⟨ring, hring, hsound.mpr (.inr (by decide))⟩

end Ring

end Ramjet.Router.Rotation
