/- digest: The first hit in a stably sorted list is the first of the least hits of the original. -/

import Mathlib.Data.List.Forall2
import Mathlib.Data.List.Sort
import Mathlib.Order.Defs.LinearOrder

set_option autoImplicit false
set_option relaxedAutoImplicit false

namespace Ramjet.Base.FirstHit

universe u v

variable {α : Type u} {β : Type v} [LinearOrder β] (key : α → β)

/-- The first of the elements whose key is least. -/
def firstMin : List α → Option α
  | [] => none
  | x :: xs =>
      match firstMin xs with
      | none => some x
      | some y => if key x ≤ key y then some x else some y

/-- `x` stands in the list before every other element of its key, and no key is smaller. -/
def IsFirstMin (l : List α) (x : α) : Prop :=
  ∃ pre post, l = pre ++ x :: post ∧ (∀ y ∈ pre, key x < key y) ∧ ∀ y ∈ post, key x ≤ key y

@[simp] theorem firstMin_nil : firstMin key [] = none := rfl

theorem firstMin_eq_none_iff (l : List α) : firstMin key l = none ↔ l = [] := by
  cases l with
  | nil => simp
  | cons x xs =>
      simp only [firstMin]
      split
      · simp
      · split <;> simp

theorem isFirstMin_of_firstMin {l : List α} {x : α} (h : firstMin key l = some x) :
    IsFirstMin key l x := by
  induction l generalizing x with
  | nil => cases h
  | cons a as ih =>
      simp only [firstMin] at h
      split at h
      · rename_i hnone
        cases h
        rw [firstMin_eq_none_iff] at hnone
        exact ⟨[], [], by simp [hnone], by simp, by simp⟩
      · rename_i y hy
        obtain ⟨pre, post, rfl, hpre, hpost⟩ := ih hy
        split at h
        · rename_i hle
          cases h
          refine ⟨[], pre ++ y :: post, by simp, by simp, ?_⟩
          intro z hz
          rcases List.mem_append.mp hz with hz | hz
          · exact hle.trans (hpre z hz).le
          · rcases List.mem_cons.mp hz with rfl | hz
            · exact hle
            · exact hle.trans (hpost z hz)
        · rename_i hlt
          cases h
          refine ⟨a :: pre, post, by simp, ?_, hpost⟩
          intro z hz
          rcases List.mem_cons.mp hz with rfl | hz
          · exact not_le.mp hlt
          · exact hpre z hz

/-- A list has at most one first least element. -/
theorem IsFirstMin.unique {l : List α} {x y : α} (hx : IsFirstMin key l x)
    (hy : IsFirstMin key l y) : x = y := by
  obtain ⟨pre, post, rfl, hpre, hpost⟩ := hx
  obtain ⟨pre', post', heq, hpre', hpost'⟩ := hy
  rcases List.append_eq_append_iff.mp heq with ⟨mid, rfl, hmid⟩ | ⟨mid, rfl, hmid⟩
  · cases mid with
    | nil => simpa using congrArg List.head? hmid
    | cons z zs =>
        simp only [List.cons_append, List.cons.injEq] at hmid
        obtain ⟨rfl, rfl⟩ := hmid
        have h1 := hpre' x (by simp)
        have h2 := hpost y (by simp)
        exact absurd h1 (not_lt.mpr h2)
  · cases mid with
    | nil => simpa using (congrArg List.head? hmid).symm
    | cons z zs =>
        simp only [List.cons_append, List.cons.injEq] at hmid
        obtain ⟨rfl, rfl⟩ := hmid
        have h1 := hpre y (by simp)
        have h2 := hpost' x (by simp)
        exact absurd h1 (not_lt.mpr h2)

theorem isFirstMin_singleton (x : α) : IsFirstMin key [x] x :=
  ⟨[], [], rfl, fun _ h => (List.not_mem_nil h).elim, fun _ h => (List.not_mem_nil h).elim⟩

/-- A scan keeps the first of the least by replacing it only where the next is less. -/
theorem IsFirstMin.snoc {l : List α} {x : α} (h : IsFirstMin key l x) (y : α) :
    IsFirstMin key (l ++ [y]) (if key y < key x then y else x) := by
  obtain ⟨pre, post, rfl, hpre, hpost⟩ := h
  split
  · rename_i hlt
    refine ⟨pre ++ x :: post, [], rfl, ?_, fun _ h => (List.not_mem_nil h).elim⟩
    intro z hz
    rcases List.mem_append.mp hz with hz | hz
    · exact hlt.trans (hpre z hz)
    · rcases List.mem_cons.mp hz with rfl | hz
      · exact hlt
      · exact hlt.trans_le (hpost z hz)
  · rename_i hle
    refine ⟨pre, post ++ [y], by simp, hpre, ?_⟩
    intro z hz
    rcases List.mem_append.mp hz with hz | hz
    · exact hpost z hz
    · rw [List.mem_singleton.mp hz]
      exact not_lt.mp hle

theorem mem_of_firstMin {l : List α} {x : α} (h : firstMin key l = some x) : x ∈ l := by
  obtain ⟨pre, post, rfl, -⟩ := isFirstMin_of_firstMin key h
  simp

/-- No element has a smaller key than the first least one. -/
theorem le_of_firstMin {l : List α} {x : α} (h : firstMin key l = some x) :
    ∀ y ∈ l, key x ≤ key y := by
  obtain ⟨pre, post, rfl, hpre, hpost⟩ := isFirstMin_of_firstMin key h
  intro y hy
  rcases List.mem_append.mp hy with hy | hy
  · exact (hpre y hy).le
  · rcases List.mem_cons.mp hy with rfl | hy
    · exact le_rfl
    · exact hpost y hy

/-- Where the keys of an image order the image as before, its first least element is the image. -/
theorem firstMin_map {γ : Type u} (f : γ → α) (l : List γ) :
    firstMin key (l.map f) = (firstMin (fun c => key (f c)) l).map f := by
  induction l with
  | nil => rfl
  | cons c cs ih =>
      simp only [List.map_cons, firstMin, ih]
      cases firstMin (fun c => key (f c)) cs with
      | none => rfl
      | some y => simp only [Option.map_some]; split <;> rfl

/-- Among the images of a list, the first least one comes from the first least element. -/
theorem firstMin_filterMap {γ : Type v} {f : γ → Option α} {key' : γ → β} {l : List γ}
    (h : ∀ c ∈ l, ∃ a, f c = some a ∧ key a = key' c) :
    firstMin key (l.filterMap f) = (firstMin key' l).bind f := by
  induction l with
  | nil => rfl
  | cons c cs ih =>
      have hrest := ih fun c hc => h c (by simp [hc])
      obtain ⟨a, ha, hkey⟩ := h c (by simp)
      rw [List.filterMap_cons, ha]
      simp only [firstMin, hrest]
      cases hmin : firstMin key' cs with
      | none => simp [ha]
      | some e =>
          obtain ⟨b, hb, hkey'⟩ := h e (by simp [mem_of_firstMin key' hmin])
          simp only [Option.bind_some, hb, hkey, hkey']
          split <;> simp [ha, hb]

/-- Two keys that order a list alike have the same first least element there. -/
theorem firstMin_congr {γ : Type v} [LinearOrder γ] {key' : α → γ} {l : List α}
    (h : ∀ x ∈ l, ∀ y ∈ l, (key x ≤ key y ↔ key' x ≤ key' y)) :
    firstMin key l = firstMin key' l := by
  induction l with
  | nil => rfl
  | cons a as ih =>
      have htail := ih fun x hx y hy => h x (by simp [hx]) y (by simp [hy])
      simp only [firstMin, htail]
      cases hmin : firstMin key' as with
      | none => rfl
      | some y =>
          have hiff := h a (by simp) y (by simp [mem_of_firstMin key' hmin])
          simp only [hiff]

/-- Where all keys are equal the first element is the first least one. -/
theorem firstMin_const {l : List α} (h : ∀ x ∈ l, ∀ y ∈ l, key x ≤ key y) :
    firstMin key l = l.head? := by
  cases l with
  | nil => rfl
  | cons a as =>
      simp only [firstMin, List.head?_cons]
      cases hmin : firstMin key as with
      | none => rfl
      | some y =>
          have hle := h a (by simp) y (by simp [mem_of_firstMin key hmin])
          simp [hle]

/-- Elements whose keys are all smaller form a stage that is searched before the others. -/
theorem firstMin_stage {l : List α} {p q : α → Bool}
    (h : ∀ x ∈ l, ∀ y ∈ l, p x = true → q x = true → p y = true → q y = false → key x < key y) :
    firstMin key (l.filter p) =
      (firstMin key (l.filter fun x => p x && q x)).or
        (firstMin key (l.filter fun x => p x && !q x)) := by
  induction l with
  | nil => rfl
  | cons a as ih =>
      have htail := ih fun x hx y hy => h x (by simp [hx]) y (by simp [hy])
      by_cases hp : p a = true
      · cases hq : q a with
        | true =>
            simp only [List.filter_cons, hp, hq, Bool.and_self, Bool.not_true, Bool.and_false,
              if_true, Bool.false_eq_true, if_false, firstMin, htail]
            cases hA : firstMin key (as.filter fun x => p x && q x) with
            | some b => by_cases hle : key a ≤ key b <;> simp [hle]
            | none =>
                cases hB : firstMin key (as.filter fun x => p x && !q x) with
                | none => rfl
                | some b =>
                    have hb := List.mem_filter.mp (mem_of_firstMin key hB)
                    simp only [Bool.and_eq_true, Bool.not_eq_true'] at hb
                    have hlt := h a (by simp) b (by simp [hb.1]) hp hq hb.2.1 hb.2.2
                    simp [hlt.le]
        | false =>
            simp only [List.filter_cons, hp, hq, Bool.and_false, Bool.not_false, Bool.and_self,
              if_true, Bool.false_eq_true, if_false, firstMin, htail]
            cases hA : firstMin key (as.filter fun x => p x && q x) with
            | none => rfl
            | some b =>
                have hb := List.mem_filter.mp (mem_of_firstMin key hA)
                simp only [Bool.and_eq_true] at hb
                have hlt := h b (by simp [hb.1]) a (by simp) hb.2.1 hb.2.2 hp hq
                simp [not_le.mpr hlt]
      · simp only [List.filter_cons, hp, Bool.false_and, Bool.false_eq_true, if_false, htail]

section Sorted

private theorem pairwise_sorted (l : List α) :
    (l.insertionSort fun a b => key a ≤ key b).Pairwise fun a b => key a ≤ key b := by
  have htotal : Std.Total fun a b : α => key a ≤ key b := ⟨fun a b => le_total (key a) (key b)⟩
  have htrans : IsTrans α fun a b : α => key a ≤ key b := ⟨fun _ _ _ => le_trans⟩
  exact List.pairwise_insertionSort _ l

/-- Inserting one element moves the first hit only if it is a hit of no greater key. -/
private theorem find?_orderedInsert (p : α → Bool) (x : α) {s : List α}
    (hs : s.Pairwise fun a b => key a ≤ key b) :
    (s.orderedInsert (fun a b => key a ≤ key b) x).find? p =
      if p x then
        match s.find? p with
        | none => some x
        | some y => if key x ≤ key y then some x else some y
      else s.find? p := by
  induction s with
  | nil => by_cases hx : p x <;> simp [hx]
  | cons b bs ih =>
      obtain ⟨hb, hbs⟩ := List.pairwise_cons.mp hs
      by_cases hxb : key x ≤ key b
      · rw [List.orderedInsert_cons, if_pos hxb]
        by_cases hx : p x = true
        · rw [List.find?_cons_of_pos hx, if_pos hx]
          cases hfind : (b :: bs).find? p with
          | none => rfl
          | some y =>
              have hy := List.mem_of_find?_eq_some hfind
              have hle : key x ≤ key y := by
                rcases List.mem_cons.mp hy with rfl | hy
                · exact hxb
                · exact hxb.trans (hb y hy)
              simp [hle]
        · rw [List.find?_cons_of_neg hx, if_neg hx]
      · rw [List.orderedInsert_cons, if_neg hxb]
        by_cases hpb : p b = true
        · simp [hpb, hxb]
        · rw [List.find?_cons_of_neg hpb, List.find?_cons_of_neg hpb, ih hbs]

/-- The first hit of a stably sorted list is the first least hit of the list itself. -/
theorem find?_insertionSort (p : α → Bool) (l : List α) :
    (l.insertionSort fun a b => key a ≤ key b).find? p = firstMin key (l.filter p) := by
  induction l with
  | nil => rfl
  | cons x xs ih =>
      rw [List.insertionSort_cons, find?_orderedInsert key p x (pairwise_sorted key xs), ih]
      by_cases hx : p x = true
      · rw [if_pos hx, List.filter_cons_of_pos hx]
        rfl
      · rw [if_neg hx, List.filter_cons_of_neg hx]

end Sorted

section Pairs

/-- Over lists that correspond, tests that correspond hit first at elements that do. -/
theorem find?_forall₂ {γ : Type u} {δ : Type v} {R : γ → δ → Prop} {p : γ → Bool}
    {q : δ → Bool} {xs : List γ} {ys : List δ} (h : List.Forall₂ R xs ys)
    (hpq : ∀ x ∈ xs, ∀ y, R x y → p x = q y) : Option.Rel R (xs.find? p) (ys.find? q) := by
  induction h with
  | nil => exact Option.Rel.none
  | @cons x y xs ys hxy _ ih =>
      have hhead := hpq x List.mem_cons_self y hxy
      cases hp : p x with
      | true =>
          rw [List.find?_cons_of_pos hp, List.find?_cons_of_pos (hhead ▸ hp)]
          exact Option.Rel.some hxy
      | false =>
          rw [List.find?_cons_of_neg (by simp [hp]), List.find?_cons_of_neg (by simp [← hhead, hp])]
          exact ih fun x hx => hpq x (List.mem_cons_of_mem _ hx)

end Pairs

end Ramjet.Base.FirstHit
