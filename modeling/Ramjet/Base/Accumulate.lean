/- digest: What a fold keeps once it holds, and what one element of the list makes hold. -/

import Mathlib.Data.List.Basic

set_option autoImplicit false
set_option relaxedAutoImplicit false

namespace Ramjet.Base.Accumulate

universe u v

variable {α : Type u} {β : Type v} {f : β → α → β} {P : β → Prop}

/-- What every step keeps, the whole fold keeps. -/
theorem foldl_keeps (hkeep : ∀ b a, P b → P (f b a)) (xs : List α) {b : β} (hb : P b) :
    P (xs.foldl f b) := by
  induction xs generalizing b with
  | nil => exact hb
  | cons x xs ih => exact ih (hkeep b x hb)

/-- What one element brings about from any state and every step keeps holds in the end. -/
theorem foldl_gains (hkeep : ∀ b a, P b → P (f b a)) {xs : List α} {a : α} (ha : a ∈ xs)
    (hgain : ∀ b, P (f b a)) (b : β) : P (xs.foldl f b) := by
  obtain ⟨pre, post, rfl⟩ := List.append_of_mem ha
  rw [List.foldl_append, List.foldl_cons]
  exact foldl_keeps hkeep post (hgain _)

end Ramjet.Base.Accumulate
