/- digest: A bounded list of the keys seen most recently, each of them once. -/

import Mathlib.Data.List.Dedup
import Mathlib.Data.List.Induction

set_option autoImplicit false
set_option relaxedAutoImplicit false

namespace Ramjet.Base.Recency

universe u

variable {α : Type u}

section Suffix

/-- The last entries of a list, at most so many. -/
def newest (capacity : Nat) (xs : List α) : List α := xs.drop (xs.length - capacity)

theorem length_newest_le (capacity : Nat) (xs : List α) :
    (newest capacity xs).length ≤ capacity := by
  unfold newest
  rw [List.length_drop]
  omega

theorem newest_suffix (capacity : Nat) (xs : List α) : newest capacity xs <:+ xs :=
  List.drop_suffix _ _

theorem newest_append_of_le {capacity : Nat} (xs ys : List α) (h : capacity ≤ ys.length) :
    newest capacity (xs ++ ys) = newest capacity ys := by
  unfold newest
  rw [List.length_append, Nat.add_sub_assoc h, List.drop_append, List.drop_eq_nil_of_le
    (Nat.le_add_right _ _), List.nil_append, Nat.add_sub_cancel_left]

end Suffix

section Touch

variable [DecidableEq α]

/-- Moves a key to the end, and lets go of the oldest where the list grows too long. -/
def touch (capacity : Nat) (xs : List α) (a : α) : List α :=
  newest capacity (xs.filter (fun x => x != a) ++ [a])

/-- Forgetting what is older than the newest keys does not change what a touch keeps. -/
theorem touch_newest {capacity : Nat} {xs : List α} (hxs : xs.Nodup) (a : α) :
    touch capacity (newest capacity xs) a = touch capacity xs a := by
  obtain ⟨older, holder⟩ := newest_suffix capacity xs
  rcases Nat.lt_or_ge capacity xs.length with hlong | hshort
  · have hlength : (newest capacity xs).length = capacity := by
      unfold newest
      rw [List.length_drop]
      omega
    have hnodup : (newest capacity xs).Nodup := (newest_suffix capacity xs).sublist.nodup hxs
    have hkept : capacity ≤ ((newest capacity xs).filter (fun x => x != a) ++ [a]).length := by
      have hfilter : (newest capacity xs).filter (fun x => x != a) = (newest capacity xs).erase a :=
        (hnodup.erase_eq_filter a).symm
      rw [hfilter, List.length_append, List.length_singleton]
      have := List.le_length_erase (a := a) (l := newest capacity xs)
      omega
    unfold touch
    conv_rhs => rw [← holder, List.filter_append, List.append_assoc]
    rw [newest_append_of_le _ _ hkept]
  · have hall : newest capacity xs = xs := by
      unfold newest
      rw [Nat.sub_eq_zero_of_le hshort, List.drop_zero]
    rw [hall]

theorem dedup_concat (xs : List α) (a : α) :
    (xs ++ [a]).dedup = xs.dedup.filter (fun x => x != a) ++ [a] := by
  induction xs with
  | nil => simp
  | cons x xs ih =>
      rw [List.cons_append]
      by_cases hxa : x = a
      · subst hxa
        rw [List.dedup_cons_of_mem (by simp), ih]
        by_cases hmem : x ∈ xs
        · rw [List.dedup_cons_of_mem hmem]
        · rw [List.dedup_cons_of_notMem hmem, List.filter_cons_of_neg (by simp)]
      · by_cases hmem : x ∈ xs
        · rw [List.dedup_cons_of_mem (by simp [hmem]), List.dedup_cons_of_mem hmem, ih]
        · rw [List.dedup_cons_of_notMem (by simp [hmem, hxa]), List.dedup_cons_of_notMem hmem, ih,
            List.filter_cons_of_pos (by simpa using hxa), List.cons_append]

/-- Touching one key after another keeps the newest of the distinct ones, in order of their last
touch. -/
theorem foldl_touch (capacity : Nat) (xs : List α) :
    xs.foldl (touch capacity) [] = newest capacity xs.dedup := by
  induction xs using List.reverseRecOn with
  | nil => simp [newest]
  | append_singleton xs a ih =>
      rw [List.foldl_append, List.foldl_cons, List.foldl_nil, ih, touch_newest xs.nodup_dedup,
        dedup_concat]
      rfl

theorem nodup_touch {capacity : Nat} {xs : List α} (hxs : xs.Nodup) (a : α) :
    (touch capacity xs a).Nodup := by
  refine (newest_suffix _ _).sublist.nodup ?_
  rw [List.nodup_append]
  refine ⟨hxs.filter _, List.nodup_singleton a, fun x hx y hy => ?_⟩
  rw [List.mem_singleton.mp hy]
  simpa using (List.mem_filter.mp hx).2

/-- A key that is held stays held unless a new one finds the list full and this one oldest. -/
theorem mem_touch {capacity : Nat} {xs : List α} {a b : α} (hxs : xs.Nodup)
    (hbounded : xs.length ≤ capacity) (hb : b ∈ xs) :
    b ∈ touch capacity xs a ↔ xs.length < capacity ∨ a ∈ xs ∨ xs.head? ≠ some b := by
  have hall : ∀ ys : List α, ys.length ≤ capacity → newest capacity ys = ys := by
    intro ys hys
    unfold newest
    rw [Nat.sub_eq_zero_of_le hys, List.drop_zero]
  by_cases hmem : a ∈ xs
  · have hlength : (xs.filter (fun x => x != a) ++ [a]).length ≤ capacity := by
      rw [← hxs.erase_eq_filter, List.length_append, List.length_erase_of_mem hmem,
        List.length_singleton]
      have := List.length_pos_of_mem hmem
      omega
    refine iff_of_true ?_ (.inr (.inl hmem))
    unfold touch
    rw [hall _ hlength]
    by_cases hba : b = a
    · exact List.mem_append_right _ (List.mem_singleton.mpr hba)
    · exact List.mem_append_left _ (List.mem_filter.mpr ⟨hb, by simpa using hba⟩)
  · have hfilter : xs.filter (fun x => x != a) = xs := by
      rw [← hxs.erase_eq_filter, List.erase_of_not_mem hmem]
    unfold touch
    rw [hfilter]
    rcases Nat.lt_or_ge xs.length capacity with hroom | hfull
    · rw [hall _ (by rw [List.length_append, List.length_singleton]; omega)]
      exact iff_of_true (List.mem_append_left _ hb) (.inl hroom)
    · cases xs with
      | nil => cases hb
      | cons oldest rest =>
          have hdrop : newest capacity (oldest :: rest ++ [a]) = rest ++ [a] := by
            unfold newest
            rw [show (oldest :: rest ++ [a]).length - capacity = 1 by
              simp only [List.length_append, List.length_cons, List.length_nil] at *
              omega]
            rfl
          rw [hdrop]
          obtain ⟨hold, -⟩ := List.nodup_cons.mp hxs
          constructor
          · intro h
            refine .inr (.inr fun hhead => ?_)
            obtain rfl : oldest = b := Option.some.inj hhead
            rcases List.mem_append.mp h with h | h
            · exact hold h
            · exact hmem (by rw [← List.mem_singleton.mp h]; exact hb)
          · rintro (h | h | h)
            · exact absurd hfull (Nat.not_le.mpr h)
            · exact absurd h hmem
            · rcases List.mem_cons.mp hb with rfl | hb
              · exact absurd rfl h
              · exact List.mem_append_left _ hb

end Touch

end Ramjet.Base.Recency
