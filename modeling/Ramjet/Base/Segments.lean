/- digest: Segment-wise prefixes of separated text, and their order by length. -/

import Mathlib.Data.List.Infix
import Mathlib.Tactic.Common

set_option autoImplicit false
set_option relaxedAutoImplicit false

namespace Ramjet.Base.Segments

universe u

variable {α : Type u} [DecidableEq α] {s : α}

private theorem splitOn_cons_of_ne {x : α} (hx : x ≠ s) (xs : List α) :
    ∃ head tail, xs.splitOn s = head :: tail ∧ (x :: xs).splitOn s = (x :: head) :: tail := by
  obtain ⟨head, tail, hsplit⟩ := List.exists_cons_of_ne_nil (List.splitOn_ne_nil s xs)
  refine ⟨head, tail, hsplit, ?_⟩
  rw [List.splitOn_cons_eq_if_modifyHead, hsplit]
  simp [hx]

private theorem splitOn_cons_self (xs : List α) : (s :: xs).splitOn s = [] :: xs.splitOn s := by
  rw [List.splitOn_cons_eq_if_modifyHead]
  simp

/-- A segment holds nothing that the text it was split from does not. -/
theorem mem_of_mem_splitOn {xs piece : List α} (h : piece ∈ xs.splitOn s) {x : α} (hx : x ∈ piece) :
    x ∈ xs := by
  induction xs generalizing piece with
  | nil =>
      rw [List.splitOn_nil, List.mem_singleton] at h
      rwa [h] at hx
  | cons y ys ih =>
      by_cases hy : y = s
      · subst hy
        rw [splitOn_cons_self, List.mem_cons] at h
        rcases h with rfl | h
        · cases hx
        · exact List.mem_cons_of_mem y (ih h hx)
      · obtain ⟨head, tail, hsplit, hcons⟩ := splitOn_cons_of_ne hy ys
        rw [hsplit] at ih
        rw [hcons, List.mem_cons] at h
        rcases h with rfl | h
        · rcases List.mem_cons.mp hx with rfl | hx
          · exact List.mem_cons_self
          · exact List.mem_cons_of_mem y (ih List.mem_cons_self hx)
        · exact List.mem_cons_of_mem y (ih (List.mem_cons_of_mem head h) hx)

/-- No segment holds the separator. -/
theorem not_mem_of_mem_splitOn {xs piece : List α} (h : piece ∈ xs.splitOn s) : s ∉ piece := by
  induction xs generalizing piece with
  | nil =>
      rw [List.splitOn_nil, List.mem_singleton] at h
      rw [h]
      exact List.not_mem_nil
  | cons y ys ih =>
      by_cases hy : y = s
      · subst hy
        rw [splitOn_cons_self, List.mem_cons] at h
        rcases h with rfl | h
        · exact List.not_mem_nil
        · exact ih h
      · obtain ⟨head, tail, hsplit, hcons⟩ := splitOn_cons_of_ne hy ys
        rw [hsplit] at ih
        rw [hcons, List.mem_cons] at h
        rcases h with rfl | h
        · rw [List.mem_cons, not_or]
          exact ⟨Ne.symm hy, ih List.mem_cons_self⟩
        · exact ih (List.mem_cons_of_mem head h)

/-- A text covers another when it ends with it or goes on with a separator. -/
theorem splitOn_covers_iff (t p : List α) :
    t.splitOn s <+: p.splitOn s ↔ p = t ∨ ∃ r, p = t ++ s :: r := by
  refine ⟨?_, ?_⟩
  · induction t generalizing p with
    | nil =>
        intro h
        cases p with
        | nil => exact Or.inl rfl
        | cons x xs =>
            by_cases hx : x = s
            · exact Or.inr ⟨xs, by simp [hx]⟩
            · obtain ⟨head, tail, -, hsplit⟩ := splitOn_cons_of_ne hx xs
              rw [hsplit, List.splitOn_nil, List.cons_prefix_cons] at h
              exact absurd h.1 (by simp)
    | cons y ys ih =>
        intro h
        cases p with
        | nil =>
            have hlen := h.length_le
            by_cases hy : y = s
            · subst hy
              have hpos := List.length_pos_iff.mpr (List.splitOn_ne_nil y ys)
              rw [splitOn_cons_self, List.splitOn_nil] at hlen
              simp only [List.length_cons, List.length_nil] at hlen
              omega
            · obtain ⟨head, tail, -, hsplit⟩ := splitOn_cons_of_ne hy ys
              rw [hsplit, List.splitOn_nil, List.cons_prefix_cons] at h
              exact absurd h.1 (by simp)
        | cons x xs =>
            by_cases hy : y = s <;> by_cases hx : x = s
            · subst hy hx
              rw [splitOn_cons_self, splitOn_cons_self, List.cons_prefix_cons] at h
              rcases ih xs h.2 with rfl | ⟨r, rfl⟩
              · exact Or.inl rfl
              · exact Or.inr ⟨r, rfl⟩
            · subst hy
              obtain ⟨head, tail, -, hsplit⟩ := splitOn_cons_of_ne hx xs
              rw [splitOn_cons_self, hsplit, List.cons_prefix_cons] at h
              exact absurd h.1 (by simp)
            · subst hx
              obtain ⟨head, tail, -, hsplit⟩ := splitOn_cons_of_ne hy ys
              rw [splitOn_cons_self, hsplit, List.cons_prefix_cons] at h
              exact absurd h.1 (by simp)
            · obtain ⟨head, tail, hys, hsplit⟩ := splitOn_cons_of_ne hy ys
              obtain ⟨head', tail', hxs, hsplit'⟩ := splitOn_cons_of_ne hx xs
              rw [hsplit, hsplit', List.cons_prefix_cons, List.cons.injEq] at h
              obtain ⟨⟨rfl, rfl⟩, htail⟩ := h
              have hpre : ys.splitOn s <+: xs.splitOn s := by
                rw [hys, hxs, List.cons_prefix_cons]
                exact ⟨rfl, htail⟩
              rcases ih xs hpre with rfl | ⟨r, rfl⟩
              · exact Or.inl rfl
              · exact Or.inr ⟨r, rfl⟩
  · rintro (rfl | ⟨r, rfl⟩)
    · exact List.prefix_rfl
    · rw [List.splitOn_append_cons_self]
      exact List.prefix_append _ _

/-- Two texts of the same segments are the same text. -/
theorem splitOn_injective (s : α) : Function.Injective fun t : List α => t.splitOn s := by
  intro t t' h
  have hjoin := congrArg [s].intercalate h
  simpa only [List.intercalate_splitOn] using hjoin

/-- Among the texts one path goes on from, more segments and more letters are the same order. -/
theorem length_lt_iff_segments_lt {t t' p : List α} (h : t.splitOn s <+: p.splitOn s)
    (h' : t'.splitOn s <+: p.splitOn s) :
    t.length < t'.length ↔ (t.splitOn s).length < (t'.splitOn s).length := by
  have hle : ∀ {a b : List α}, a.splitOn s <+: p.splitOn s → b.splitOn s <+: p.splitOn s →
      (a.splitOn s).length ≤ (b.splitOn s).length →
      b = a ∨ a.length < b.length ∧ (a.splitOn s).length < (b.splitOn s).length := by
    intro a b ha hb hlen
    have hpre := List.prefix_of_prefix_length_le ha hb hlen
    rcases (splitOn_covers_iff a b).mp hpre with rfl | ⟨r, rfl⟩
    · exact Or.inl rfl
    · refine Or.inr ⟨by simp, ?_⟩
      rw [List.splitOn_append_cons_self, List.length_append]
      have hpos := List.length_pos_iff.mpr (List.splitOn_ne_nil s r)
      omega
  rcases Nat.le_total (t.splitOn s).length (t'.splitOn s).length with hlen | hlen
  · rcases hle h h' hlen with rfl | ⟨h1, h2⟩
    · simp
    · exact ⟨fun _ => h2, fun _ => h1⟩
  · rcases hle h' h hlen with rfl | ⟨h1, h2⟩
    · simp
    · exact ⟨fun h3 => by omega, fun h3 => by omega⟩

/-- Texts one path goes on from that are equally long are equal. -/
theorem eq_of_length_eq {t t' p : List α} (h : t.splitOn s <+: p.splitOn s)
    (h' : t'.splitOn s <+: p.splitOn s) (hlen : t.length = t'.length) : t = t' := by
  have h1 := (length_lt_iff_segments_lt h h').not.mp (by omega)
  have h2 := (length_lt_iff_segments_lt h' h).not.mp (by omega)
  have hpre := List.prefix_of_prefix_length_le h h' (by omega)
  exact splitOn_injective s (hpre.eq_of_length (by omega))

end Ramjet.Base.Segments
