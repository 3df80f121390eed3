/- digest: Decisions taken on what has arrived so far, and streams that arrive in pieces. -/

import Mathlib.Data.List.Infix
import Mathlib.Tactic.Common

set_option autoImplicit false
set_option relaxedAutoImplicit false

namespace Ramjet.Base.Incremental

universe u v

variable {α : Type u} {β : Type v}

/-- A decision once taken is the decision on whatever follows. -/
def Settled (decide : List α → Option β) : Prop :=
  ∀ seen more b, decide seen = some b → decide (seen ++ more) = some b

/-- Read piece after piece until a decision can be taken: the decision, everything read for it
and the pieces left unread. -/
def readOn (decide : List α → Option β) (seen : List α) :
    List (List α) → Option (β × List α × List (List α))
  | [] => (decide seen).map fun b => (b, seen, [])
  | piece :: pieces =>
      match decide seen with
      | some b => some (b, seen, piece :: pieces)
      | none => readOn decide (seen ++ piece) pieces

variable {decide : List α → Option β}

/-- What is decided on a stream read in pieces is what is decided on the whole of it. -/
theorem readOn_decision (h : Settled decide) (seen : List α) (pieces : List (List α)) :
    (readOn decide seen pieces).map (·.1) = decide (seen ++ pieces.flatten) := by
  induction pieces generalizing seen with
  | nil =>
      rw [List.flatten_nil, List.append_nil, readOn]
      cases decide seen with
      | none => rfl
      | some b => rfl
  | cons piece pieces ih =>
      rw [readOn]
      cases hb : decide seen with
      | some b => exact (h seen _ b hb).symm
      | none =>
          dsimp only
          rw [ih, List.append_assoc, List.flatten_cons]

/-- Nothing read is lost: what was read and what was left unread are the stream. -/
theorem readOn_stream {seen : List α} {pieces : List (List α)} {b : β} {read : List α}
    {unread : List (List α)} (h : readOn decide seen pieces = some (b, read, unread)) :
    read ++ unread.flatten = seen ++ pieces.flatten ∧ decide read = some b := by
  induction pieces generalizing seen with
  | nil =>
      rw [readOn, Option.map_eq_some_iff] at h
      obtain ⟨b', hb, heq⟩ := h
      cases heq
      exact ⟨rfl, hb⟩
  | cons piece pieces ih =>
      rw [readOn] at h
      split at h
      · rename_i b' hb
        cases h
        exact ⟨rfl, hb⟩
      · obtain ⟨hstream, hb⟩ := ih h
        refine ⟨?_, hb⟩
        rw [hstream, List.append_assoc, List.flatten_cons]

end Ramjet.Base.Incremental
