/- digest: A first-occurrence search that resumes where it left off, and text that goes on. -/

import Ramjet.Base.Octets

set_option autoImplicit false
set_option relaxedAutoImplicit false

namespace Ramjet.Base.Search

open Ramjet.Base.Octets

variable {α : Type} [DecidableEq α] {pat : List α}

/-- A search may start behind positions where nothing starts. -/
theorem findSub_drop {text : List α} {k : Nat} (hle : k ≤ text.length)
    (hnone : ∀ i < k, ¬ pat <+: text.drop i) :
    findSub pat text = (findSub pat (text.drop k)).map (k + ·) := by
  induction k generalizing text with
  | zero =>
      rw [List.drop_zero]
      cases findSub pat text with
      | none => rfl
      | some i => simp
  | succ k ih =>
      cases text with
      | nil => simp at hle
      | cons x xs =>
          have hhead : ¬ pat <+: x :: xs := hnone 0 (Nat.succ_pos k)
          have htail : ∀ i < k, ¬ pat <+: xs.drop i := fun i hi => by
            have hstep := hnone (i + 1) (by omega)
            rwa [List.drop_succ_cons] at hstep
          rw [List.length_cons] at hle
          rw [findSub, if_neg hhead, ih (by omega) htail, List.drop_succ_cons, Option.map_map]
          cases findSub pat (xs.drop k) with
          | none => rfl
          | some i =>
              simp only [Option.map_some, Function.comp_apply, Option.some.injEq]
              omega

/-- Text in which nothing was found leaves nothing to find before its last few positions. -/
theorem no_start_of_searched {seen text : List α} (hseen : seen <+: text)
    (hnone : findSub pat seen = none) {i : Nat} (hi : i + pat.length ≤ seen.length) :
    ¬ pat <+: text.drop i := by
  intro hpre
  obtain ⟨more, rfl⟩ := hseen
  rw [List.drop_append_of_le_length (by omega)] at hpre
  have hin : pat <+: seen.drop i := by
    refine List.prefix_of_prefix_length_le hpre (List.prefix_append _ _) ?_
    rw [List.length_drop]
    omega
  refine (findSub_eq_none_iff pat seen).mp hnone ?_
  exact hin.isInfix.trans (List.drop_suffix i seen).isInfix

/-- Resuming behind searched text, backed up by one less than the pattern, misses nothing. -/
theorem findSub_resume {seen text : List α} (hseen : seen <+: text)
    (hnone : findSub pat seen = none) {k : Nat} (hk : k ≤ seen.length + 1 - pat.length) :
    findSub pat text = (findSub pat (text.drop (min k text.length))).map (min k text.length + ·) := by
  refine findSub_drop (Nat.min_le_right _ _) ?_
  intro i hi
  exact no_start_of_searched hseen hnone (by omega)

/-- What was found stays found where the text goes on. -/
theorem findSub_append {text : List α} {i : Nat} (h : findSub pat text = some i) (more : List α) :
    findSub pat (text ++ more) = some i := by
  induction text generalizing i with
  | nil =>
      cases pat with
      | nil =>
          cases h
          cases more with
          | nil => rfl
          | cons x xs => simp [findSub]
      | cons x xs => cases h
  | cons x xs ih =>
      rw [findSub] at h
      rw [List.cons_append, findSub]
      split at h
      · rename_i hpre
        cases h
        have hlong : pat <+: x :: (xs ++ more) := hpre.trans (List.prefix_append (x :: xs) more)
        rw [if_pos hlong]
      · rename_i hpre
        obtain ⟨j, hj, rfl⟩ := Option.map_eq_some_iff.mp h
        rw [if_neg, ih hj, Option.map_some]
        intro hlong
        refine hpre (List.prefix_of_prefix_length_le hlong (List.prefix_append (x :: xs) more) ?_)
        have hlen := (findSub_spec hj).2
        rw [List.length_cons]
        omega

/-- What is first found in a text that went on either was there or reaches past it. -/
theorem findSub_of_append {text more : List α} {i : Nat}
    (h : findSub pat (text ++ more) = some i) (hin : i + pat.length ≤ text.length) :
    findSub pat text = some i := by
  cases htext : findSub pat text with
  | some j =>
      have happ := findSub_append htext more
      rw [h] at happ
      exact happ.symm
  | none =>
      have hstart := no_start_of_searched (List.prefix_append text more) htext hin
      exact (hstart (findSub_spec h).1).elim

/-- The text up to the end of the first occurrence decides where it is. -/
theorem findSub_take {text : List α} {i n : Nat} (h : findSub pat text = some i)
    (hn : i + pat.length ≤ n) : findSub pat (text.take n) = some i := by
  have hle := (findSub_spec h).2
  have hcut : findSub pat (text.take n ++ text.drop n) = some i := by
    rw [List.take_append_drop]
    exact h
  refine findSub_of_append hcut ?_
  rw [List.length_take]
  omega

end Ramjet.Base.Search
