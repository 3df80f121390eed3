/- digest: Comparators made of comparators, and what a stable sort by one of them leaves. -/

import Mathlib.Data.List.Sort

set_option autoImplicit false
set_option relaxedAutoImplicit false

namespace Ramjet.Base.Orders

variable {α β : Type} (cmp : α → α → Ordering)

section Comparators

/-- The other direction of a comparator. -/
theorem transCmp_swap [Std.TransCmp cmp] : Std.TransCmp fun a b => (cmp a b).swap := by
  have hopposite : (fun a b => (cmp a b).swap) = fun a b => cmp b a := by
    ext a b
    exact Std.OrientedCmp.eq_swap.symm
  rw [hopposite]
  exact Std.TransCmp.opposite

/-- Things compared by a part of them. -/
theorem transCmp_on [Std.TransCmp cmp] (f : β → α) : Std.TransCmp fun a b => cmp (f a) (f b) where
  eq_swap := Std.OrientedCmp.eq_swap
  isLE_trans := Std.TransCmp.isLE_trans

theorem transCmp_then (other : α → α → Ordering) [Std.TransCmp cmp] [Std.TransCmp other] :
    Std.TransCmp fun a b => (cmp a b).then (other a b) :=
  inferInstanceAs (Std.TransCmp (compareLex cmp other))

/-- Optional things, what is absent last. -/
def lastly (cmp : α → α → Ordering) : Option α → Option α → Ordering
  | some a, some b => cmp a b
  | some _, none => .lt
  | none, some _ => .gt
  | none, none => .eq

theorem transCmp_lastly [Std.TransCmp cmp] : Std.TransCmp (lastly cmp) where
  eq_swap := by
    intro a b
    cases a <;> cases b
    · rfl
    · rfl
    · rfl
    · exact @Std.OrientedCmp.eq_swap _ cmp _ _ _
  isLE_trans := by
    rintro (_ | a) (_ | b) (_ | c) hab hbc
    · rfl
    · cases hbc
    · rfl
    · cases hab
    · rfl
    · cases hbc
    · rfl
    · exact @Std.TransCmp.isLE_trans _ cmp _ _ _ _ hab hbc

end Comparators

section Sorting

/-- Nothing stands before what belongs above it. -/
def Sorted (xs : List α) : Prop := xs.Pairwise fun a b => cmp a b ≠ .gt

theorem sorted_insertionSort [Std.TransCmp cmp] (xs : List α) :
    Sorted cmp (xs.insertionSort fun a b => cmp a b ≠ .gt) := by
  have hle : ∀ a b, cmp a b ≠ .gt ↔ (cmp a b).isLE = true := fun a b =>
    Ordering.isLE_iff_ne_gt.symm
  have htotal : Std.Total fun a b => cmp a b ≠ .gt := by
    constructor
    intro a b
    rw [hle, hle, @Std.OrientedCmp.eq_swap _ cmp _ b a]
    cases cmp a b
    · exact Or.inl rfl
    · exact Or.inl rfl
    · exact Or.inr rfl
  have htrans : IsTrans α fun a b => cmp a b ≠ .gt := by
    constructor
    intro a b c hab hbc
    rw [hle] at *
    exact Std.TransCmp.isLE_trans hab hbc
  exact List.pairwise_insertionSort _ xs

end Sorting

end Ramjet.Base.Orders
