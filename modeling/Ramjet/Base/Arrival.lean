/- digest: What sorting, searching and indexing make of one list in two orders of arrival. -/

import Mathlib.Data.List.Destutter
import Mathlib.Data.List.Forall2
import Mathlib.Data.List.Sort
import Ramjet.Base.AssocMap

set_option autoImplicit false
set_option relaxedAutoImplicit false

namespace Ramjet.Base.Arrival

open Ramjet.Base.AssocMap

section Sorting

universe u v

variable {α : Type u} {κ : Type v} [LinearOrder κ]

theorem pairwise_byKey (key : α → κ) (xs : List α) :
    (xs.insertionSort fun a b => key a ≤ key b).Pairwise fun a b => key a ≤ key b := by
  have htotal : Std.Total fun a b : α => key a ≤ key b := ⟨fun a b => le_total (key a) (key b)⟩
  have htrans : IsTrans α fun a b => key a ≤ key b := ⟨fun _ _ _ => le_trans⟩
  exact List.pairwise_insertionSort _ _

/-- Sorting by a key that tells the elements apart forgets the order of arrival. -/
theorem insertionSort_perm {key : α → κ} {xs ys : List α} (hperm : xs.Perm ys)
    (hkey : ∀ a ∈ xs, ∀ b ∈ xs, key a = key b → a = b) :
    xs.insertionSort (fun a b => key a ≤ key b) = ys.insertionSort fun a b => key a ≤ key b := by
  refine List.Perm.eq_of_pairwise ?_ (pairwise_byKey key xs) (pairwise_byKey key ys) ?_
  · intro a b ha hb hab hba
    have ha' : a ∈ xs := (List.mem_insertionSort _).mp ha
    have hb' : b ∈ xs := hperm.mem_iff.mpr ((List.mem_insertionSort _).mp hb)
    exact hkey a ha' b hb' (le_antisymm hab hba)
  · exact (List.perm_insertionSort _ xs).trans (hperm.trans (List.perm_insertionSort _ ys).symm)

/-- Sorting is stable: what is left out of a list before is left out after. -/
theorem filter_insertionSort {key : α → κ} (keep : α → Bool) (xs : List α) :
    (xs.filter keep).insertionSort (fun a b => key a ≤ key b) =
      (xs.insertionSort fun a b => key a ≤ key b).filter keep := by
  have hinsert : ∀ (a : α) (ys : List α), ys.Pairwise (fun a b => key a ≤ key b) →
      (ys.orderedInsert (fun a b => key a ≤ key b) a).filter keep =
        if keep a then (ys.filter keep).orderedInsert (fun a b => key a ≤ key b) a
        else ys.filter keep := by
    intro a ys hsorted
    induction ys with
    | nil => by_cases ha : keep a <;> simp [ha]
    | cons b ys ih =>
        obtain ⟨hle, hrest⟩ := List.pairwise_cons.mp hsorted
        rw [List.orderedInsert_cons]
        split
        · rename_i hab
          by_cases ha : keep a
          · rw [List.filter_cons_of_pos ha, if_pos ha]
            have hfirst : ∀ c ∈ (b :: ys).filter keep, key a ≤ key c := by
              intro c hc
              rcases List.mem_cons.mp (List.mem_of_mem_filter hc) with rfl | hc
              · exact hab
              · exact hab.trans (hle c hc)
            cases hkept : (b :: ys).filter keep with
            | nil => rfl
            | cons c cs =>
                rw [hkept] at hfirst
                rw [List.orderedInsert_cons, if_pos (hfirst c List.mem_cons_self)]
          · rw [List.filter_cons_of_neg ha, if_neg ha]
        · rename_i hab
          by_cases hb : keep b
          · rw [List.filter_cons_of_pos hb, ih hrest, List.filter_cons_of_pos hb]
            split
            · rw [List.orderedInsert_cons, if_neg hab]
            · rfl
          · rw [List.filter_cons_of_neg hb, ih hrest, List.filter_cons_of_neg hb]
  induction xs with
  | nil => rfl
  | cons a xs ih =>
      rw [List.insertionSort_cons, hinsert a _ (pairwise_byKey key xs), ← ih]
      by_cases ha : keep a
      · rw [List.filter_cons_of_pos ha, if_pos ha, List.insertionSort_cons]
      · rw [List.filter_cons_of_neg ha, if_neg ha]

/-- A list sorted and rid of repeats holds the same elements, each once and in order. -/
theorem sorted_destutter [DecidableEq α] {key : α → κ} {xs : List α}
    (hkey : ∀ a ∈ xs, ∀ b ∈ xs, key a = key b → a = b) :
    ((xs.insertionSort fun a b => key a ≤ key b).destutter (· ≠ ·)).Pairwise
        (fun a b => key a < key b) ∧
      ∀ a, a ∈ (xs.insertionSort fun a b => key a ≤ key b).destutter (· ≠ ·) ↔ a ∈ xs := by
  let above (a b : α) : Prop := a = b ∨ key a < key b
  have hsorted := pairwise_byKey key xs
  have hantisymm : Std.Antisymm above := by
    constructor
    rintro a b (hab | hab) hba
    · exact hab
    · rcases hba with hba | hba
      · exact hba.symm
      · exact absurd hba hab.not_gt
  have habove : (xs.insertionSort fun a b => key a ≤ key b).Pairwise above := by
    refine hsorted.imp_of_mem ?_
    intro a b ha hb hab
    rcases hab.lt_or_eq with hlt | heq
    · exact Or.inr hlt
    · rw [List.mem_insertionSort] at ha hb
      exact Or.inl (hkey a ha b hb heq)
  rw [habove.destutter_eq_dedup]
  constructor
  · refine ((habove.sublist (List.dedup_sublist _)).and (List.nodup_dedup _)).imp ?_
    rintro a b ⟨hab | hab, hne⟩
    · exact absurd hab hne
    · exact hab
  · intro a
    rw [List.mem_dedup, List.mem_insertionSort]

end Sorting

section Reordering

variable {α β : Type} {R : α → α → Prop}

/-- The same elements in another order, each of them possibly respelled. -/
def Reordered (R : α → α → Prop) (xs ys : List α) : Prop :=
  ∃ zs, xs.Perm zs ∧ List.Forall₂ R zs ys

theorem Reordered.of_perm (hR : ∀ a, R a a) {xs ys : List α} (h : xs.Perm ys) :
    Reordered R xs ys :=
  ⟨ys, h, List.forall₂_same.mpr fun a _ => hR a⟩

/-- What the elements bring with them is the same, in whatever order. -/
theorem Reordered.flatMap {f : α → List β} (hf : ∀ a b, R a b → (f a).Perm (f b)) {xs ys : List α}
    (h : Reordered R xs ys) : (xs.flatMap f).Perm (ys.flatMap f) := by
  obtain ⟨zs, hperm, hsame⟩ := h
  apply (hperm.flatMap_right f).trans
  clear hperm
  induction hsame with
  | nil => exact .refl _
  | cons hab _ ih =>
      rw [List.flatMap_cons, List.flatMap_cons]
      exact (hf _ _ hab).append ih

/-- What a test keeps is kept in the other order too. -/
theorem Reordered.filter {p : α → Bool} (hp : ∀ a b, R a b → p a = p b) {xs ys : List α}
    (h : Reordered R xs ys) : Reordered R (xs.filter p) (ys.filter p) := by
  obtain ⟨zs, hperm, hsame⟩ := h
  refine ⟨zs.filter p, hperm.filter p, ?_⟩
  clear hperm
  induction hsame with
  | nil => exact .nil
  | @cons a b _ _ hab _ ih =>
      rw [List.filter_cons, List.filter_cons, hp a b hab]
      split
      · exact .cons hab ih
      · exact ih

end Reordering

section Indexing

variable {α κ : Type} [DecidableEq κ]

/-- What is found where at most one element is looked for. -/
theorem find?_perm {p : α → Bool} {xs ys : List α} (hperm : xs.Perm ys)
    (hone : ∀ a ∈ xs, ∀ b ∈ xs, p a = true → p b = true → a = b) : xs.find? p = ys.find? p := by
  cases hx : xs.find? p with
  | none =>
      rw [List.find?_eq_none] at hx
      refine (List.find?_eq_none.mpr fun b hb => ?_).symm
      exact hx b (hperm.mem_iff.mpr hb)
  | some a =>
      have ha := List.mem_of_find?_eq_some hx
      have hpa := List.find?_some hx
      cases hy : ys.find? p with
      | none =>
          rw [List.find?_eq_none] at hy
          exact absurd hpa (hy a (hperm.mem_iff.mp ha))
      | some b =>
          have hb := hperm.mem_iff.mpr (List.mem_of_find?_eq_some hy)
          rw [hone a ha b hb hpa (List.find?_some hy)]

/-- Files an element under its key, if it has one. -/
def fileBy (key : α → Option κ) (m : Map κ α) (x : α) : Map κ α :=
  match key x with
  | some k => insert m k x
  | none => m

/-- An index of the elements that have a key; of two under one key the later stays. -/
def indexBy (key : α → Option κ) (xs : List α) : Map κ α := xs.foldl (fileBy key) []

private theorem get_foldl_fileBy (key : α → Option κ) (xs : List α) (m : Map κ α) (k : κ) :
    get (xs.foldl (fileBy key) m) k =
      (xs.reverse.find? fun x => key x = some k).or (get m k) := by
  induction xs generalizing m with
  | nil => simp
  | cons x xs ih =>
      rw [List.foldl_cons, ih, List.reverse_cons, List.find?_append, Option.or_assoc]
      congr 1
      unfold fileBy
      cases hx : key x with
      | none => simp [hx]
      | some l =>
          by_cases hl : l = k
          · subst hl
            simp [hx]
          · simp [hx, hl, get_insert, Ne.symm hl]

theorem get_indexBy (key : α → Option κ) (xs : List α) (k : κ) :
    get (indexBy key xs) k = xs.reverse.find? fun x => key x = some k := by
  rw [indexBy, get_foldl_fileBy, get_nil, Option.or_none]

/-- An index of elements with keys of their own answers alike for every order of arrival. -/
theorem get_indexBy_perm {key : α → Option κ} {xs ys : List α} (hperm : xs.Perm ys)
    (hkey : ∀ a ∈ xs, ∀ b ∈ xs, ∀ k, key a = some k → key b = some k → a = b) (k : κ) :
    get (indexBy key xs) k = get (indexBy key ys) k := by
  rw [get_indexBy, get_indexBy]
  refine find?_perm (xs.reverse_perm.trans (hperm.trans ys.reverse_perm.symm)) ?_
  intro a ha b hb hka hkb
  exact hkey a (List.mem_reverse.mp ha) b (List.mem_reverse.mp hb) k (of_decide_eq_true hka)
    (of_decide_eq_true hkb)

end Indexing

end Ramjet.Base.Arrival
