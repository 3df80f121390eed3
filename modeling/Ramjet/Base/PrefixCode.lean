/- digest: Codes that are read back without a separator, and sequences of their words. -/

import Mathlib.Data.List.Basic
import Mathlib.Tactic.Common

set_option autoImplicit false
set_option relaxedAutoImplicit false

namespace Ramjet.Base.PrefixCode

variable {α β : Type}

/-- The words of elements that pass a test are told apart whatever follows them. -/
def PrefixCode (ok : α → Prop) (encode : α → List β) : Prop :=
  ∀ a b, ok a → ok b → ∀ x y, encode a ++ x = encode b ++ y → a = b ∧ x = y

variable {ok : α → Prop} {encode : α → List β}

theorem PrefixCode.mono {ok' : α → Prop} (h : PrefixCode ok encode) (hok : ∀ a, ok' a → ok a) :
    PrefixCode ok' encode :=
  fun a b ha hb => h a b (hok a ha) (hok b hb)

/-- As many words of a code on either side are the same words. -/
theorem PrefixCode.words (h : PrefixCode ok encode) {as bs : List α} (hlen : as.length = bs.length)
    (has : ∀ a ∈ as, ok a) (hbs : ∀ b ∈ bs, ok b) {x y : List β}
    (hxy : as.flatMap encode ++ x = bs.flatMap encode ++ y) : as = bs ∧ x = y := by
  induction as generalizing bs with
  | nil =>
      obtain rfl : bs = [] := List.length_eq_zero_iff.mp hlen.symm
      exact ⟨rfl, hxy⟩
  | cons a as ih =>
      cases bs with
      | nil => simp at hlen
      | cons b bs =>
          rw [List.flatMap_cons, List.flatMap_cons, List.append_assoc, List.append_assoc] at hxy
          obtain ⟨rfl, hrest⟩ := h a b (has a (by simp)) (hbs b (by simp)) _ _ hxy
          obtain ⟨rfl, hend⟩ := ih (by simpa using hlen) (fun c hc => has c (by simp [hc]))
            (fun c hc => hbs c (by simp [hc])) hrest
          exact ⟨rfl, hend⟩

end Ramjet.Base.PrefixCode
