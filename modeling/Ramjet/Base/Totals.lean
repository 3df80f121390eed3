/- digest: A finite sum of natural numbers, one of which is replaced. -/

import Mathlib.Algebra.BigOperators.Group.Finset.Basic
import Mathlib.Algebra.BigOperators.Ring.Finset

set_option autoImplicit false
set_option relaxedAutoImplicit false

namespace Ramjet.Base.Totals

variable {ι : Type} [Fintype ι]

/-- What all of them come to. -/
def total (f : ι → Nat) : Nat := Finset.univ.sum f

theorem total_congr {f g : ι → Nat} (h : ∀ i, f i = g i) : total f = total g :=
  Finset.sum_congr rfl fun i _ => h i

theorem total_zero {f : ι → Nat} (h : ∀ i, f i = 0) : total f = 0 :=
  Finset.sum_eq_zero fun i _ => h i

variable [DecidableEq ι]

/-- Where two families differ in one place only, so do their totals. -/
theorem total_replace {f g : ι → Nat} (i : ι) (h : ∀ j, j ≠ i → g j = f j) :
    total g + f i = total f + g i := by
  have hrest : (Finset.univ.erase i).sum g = (Finset.univ.erase i).sum f :=
    Finset.sum_congr rfl fun j hj => h j (Finset.ne_of_mem_erase hj)
  have hf : (Finset.univ.erase i).sum f + f i = total f :=
    Finset.sum_erase_add Finset.univ f (Finset.mem_univ i)
  have hg : (Finset.univ.erase i).sum g + g i = total g :=
    Finset.sum_erase_add Finset.univ g (Finset.mem_univ i)
  omega

end Ramjet.Base.Totals
