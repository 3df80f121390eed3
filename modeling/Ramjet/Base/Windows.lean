/- digest: The remainders a wrapping counter runs through in a window, and when none is missed. -/

import Mathlib.Data.Finset.Dedup
import Mathlib.Data.Nat.ModEq
import Mathlib.Order.Interval.Finset.Nat

set_option autoImplicit false
set_option relaxedAutoImplicit false

namespace Ramjet.Base.Windows

/-- The remainders by `n` of `n` consecutive numbers. -/
def window (n start : Nat) : List Nat := (List.range n).map fun k => (start + k) % n

/-- The same where the counter returns to zero at `size`. -/
def wrapped (size n start : Nat) : List Nat :=
  (List.range n).map fun k => (start + k) % size % n

theorem window_perm (n start : Nat) : (window n start).Perm (List.range n) := by
  have himage : (window n start).toFinset = (List.range n).toFinset := by
    have hmod := Nat.image_Ico_mod start n
    ext r
    have hr : r ∈ (Finset.Ico start (start + n)).image (· % n) ↔ r ∈ Finset.range n := by rw [hmod]
    simp only [Finset.mem_image, Finset.mem_Ico, Finset.mem_range] at hr
    simp only [window, List.mem_toFinset, List.mem_map, List.mem_range]
    rw [← hr]
    constructor
    · rintro ⟨k, hk, rfl⟩
      exact ⟨start + k, by omega, rfl⟩
    · rintro ⟨m, hm, rfl⟩
      exact ⟨m - start, by omega, by rw [Nat.add_sub_cancel' hm.1]⟩
  have hnodup : (window n start).Nodup := by
    refine List.Nodup.map_on ?_ List.nodup_range
    intro j hj k hk hjk
    have hmod : start + j ≡ start + k [MOD n] := hjk
    exact (hmod.add_left_cancel').eq_of_lt_of_lt (List.mem_range.mp hj) (List.mem_range.mp hk)
  exact List.perm_of_nodup_nodup_toFinset_eq hnodup List.nodup_range himage

theorem wrapped_eq_window {size n start : Nat} (h : start + n ≤ size ∨ n ∣ size) :
    wrapped size n start = window n start := by
  refine List.map_congr_left fun k hk => ?_
  have hlt := List.mem_range.mp hk
  rcases h with hroom | hdvd
  · rw [Nat.mod_eq_of_lt (by omega : start + k < size)]
  · exact Nat.mod_mod_of_dvd _ hdvd

/-- Where the counter wraps inside the window a remainder is missed or met twice,
unless the window's length divides the counter's range. -/
theorem wrapped_not_perm {size n start : Nat} (hstart : start < size)
    (hover : size < start + n) (hdvd : ¬ n ∣ size) :
    ¬ (wrapped size n start).Perm (List.range n) := by
  intro hperm
  have hn : 0 < n := by omega
  rcases Nat.lt_or_ge size n with hlong | hshort
  · -- The counter has fewer values than there are remainders.
    have hlast : n - 1 ∈ wrapped size n start := hperm.mem_iff.mpr (List.mem_range.mpr (by omega))
    obtain ⟨k, -, hk⟩ := List.mem_map.mp hlast
    have hvalue := Nat.mod_lt (start + k) (by omega : 0 < size)
    rw [Nat.mod_eq_of_lt (by omega : (start + k) % size < n)] at hk
    omega
  · have hr : 0 < size % n := Nat.pos_of_ne_zero fun h => hdvd (Nat.dvd_of_mod_eq_zero h)
    have hrn := Nat.mod_lt size hn
    have hdiv := Nat.div_add_mod size n
    rcases Nat.lt_or_ge (size - start) (size % n) with hfew | hmany
    · -- Too few values are left before the wrap: the last remainder is missed.
      have hlast : n - 1 ∈ wrapped size n start := hperm.mem_iff.mpr (List.mem_range.mpr (by omega))
      obtain ⟨k, hk, hk'⟩ := List.mem_map.mp hlast
      have hlt := List.mem_range.mp hk
      rcases Nat.lt_or_ge (start + k) size with hin | hout
      · rw [Nat.mod_eq_of_lt hin, ← Nat.add_sub_cancel' (by omega : n * (size / n) ≤ start + k),
          Nat.mul_add_mod, Nat.mod_eq_of_lt (by omega)] at hk'
        omega
      · rw [Nat.mod_eq_sub_mod hout, Nat.mod_eq_of_lt (by omega : start + k - size < size),
          Nat.mod_eq_of_lt (by omega)] at hk'
        omega
    · -- The counter meets remainder zero shortly before it wraps, and again at the wrap.
      have hnodup : (wrapped size n start).Nodup := hperm.nodup_iff.mpr List.nodup_range
      have hmultiple : start + (n * (size / n) - start) = n * (size / n) :=
        Nat.add_sub_cancel' (by omega)
      have hin : n * (size / n) < size := by omega
      have hbefore : (start + (n * (size / n) - start)) % size % n = 0 := by
        rw [hmultiple, Nat.mod_eq_of_lt hin, Nat.mul_mod_right]
      have hafter : (start + (size - start)) % size % n = 0 := by
        rw [Nat.add_sub_cancel' (by omega), Nat.mod_self, Nat.zero_mod]
      have hinj := List.inj_on_of_nodup_map hnodup
        (List.mem_range.mpr (by omega : n * (size / n) - start < n))
        (List.mem_range.mpr (by omega : size - start < n)) (by rw [hbefore, hafter])
      omega

theorem wrapped_perm_iff {size n start : Nat} (hstart : start < size) :
    (wrapped size n start).Perm (List.range n) ↔ start + n ≤ size ∨ n ∣ size := by
  constructor
  · intro hperm
    by_contra hnot
    rw [not_or, Nat.not_le] at hnot
    exact wrapped_not_perm hstart hnot.1 hnot.2 hperm
  · intro h
    rw [wrapped_eq_window h]
    exact window_perm n start

end Ramjet.Base.Windows
