/- digest: Decimal numbers of a fixed width, how they are read and how texts of them compare. -/

import Mathlib.Algebra.Ring.Nat
import Mathlib.Data.List.Forall2
import Ramjet.Base.Text

set_option autoImplicit false
set_option relaxedAutoImplicit false

namespace Ramjet.Base.FixedWidth

open Ramjet.Base.Octets
open Ramjet.Base.Text

section Digits

/-- The last `width` decimal digits of a number. -/
def fixed : Nat → Nat → Bytes
  | 0, _ => []
  | width + 1, n => fixed width (n / 10) ++ [digitByte (n % 10)]

/-- A text with zeros in front, up to a width. -/
def zeroPad (width : Nat) (text : Bytes) : Bytes :=
  List.replicate (width - text.length) 48 ++ text

theorem fixed_length (width n : Nat) : (fixed width n).length = width := by
  induction width generalizing n with
  | zero => rfl
  | succ width ih => rw [fixed, List.length_append, ih, List.length_singleton]

theorem fixed_zero (width : Nat) : fixed width 0 = List.replicate width 48 := by
  induction width with
  | zero => rfl
  | succ width ih =>
      rw [fixed, Nat.zero_div, ih, List.replicate_succ']
      rfl

/-- A number that fits is padded to its fixed digits. -/
theorem zeroPad_decimal {width n : Nat} (h : n < 10 ^ (width + 1)) :
    zeroPad (width + 1) (decimal n) = fixed (width + 1) n := by
  induction width generalizing n with
  | zero =>
      have hn : n < 10 := by simpa using h
      rw [decimal, numeral, if_pos (Or.inr hn), fixed, fixed, Nat.mod_eq_of_lt hn]
      rfl
  | succ width ih =>
      rw [decimal, numeral]
      by_cases hn : n < 10
      · rw [if_pos (Or.inr hn), fixed, Nat.div_eq_of_lt hn, Nat.mod_eq_of_lt hn, fixed_zero]
        rfl
      · have hdiv : n / 10 < 10 ^ (width + 1) := by
          rw [Nat.div_lt_iff_lt_mul (by decide)]
          rwa [Nat.pow_succ] at h
        rw [if_neg (by omega), fixed, ← ih hdiv, zeroPad, zeroPad, List.length_append,
          List.length_singleton, Nat.add_sub_add_right, List.append_assoc, decimal]

private theorem digitByte_facts {d : Nat} (h : d < 10) :
    isAsciiDigit (digitByte d) = true ∧ digitValue (digitByte d) = d ∧
      (digitByte d).toNat = 48 + d ∧ isContinuation (digitByte d) = false := by
  have hall : ∀ d < 10, isAsciiDigit (digitByte d) = true ∧ digitValue (digitByte d) = d ∧
      (digitByte d).toNat = 48 + d ∧ isContinuation (digitByte d) = false := by decide
  exact hall d h

theorem isContinuation_digitByte (n : Nat) : isContinuation (digitByte (n % 10)) = false :=
  (digitByte_facts (Nat.mod_lt n (by decide))).2.2.2

theorem fixed_digits (width n : Nat) : (fixed width n).all isAsciiDigit = true := by
  induction width generalizing n with
  | zero => rfl
  | succ width ih =>
      rw [fixed, List.all_append, ih]
      simpa using (digitByte_facts (Nat.mod_lt n (by decide))).1

/-- Fixed digits are read back as the number they were written for. -/
theorem parseDigits_fixed {width n : Nat} (h : n < 10 ^ (width + 1)) :
    parseDigits (fixed (width + 1) n) = some n := by
  have hfold : ∀ (w n : Nat), n < 10 ^ w →
      (fixed w n).foldl (fun n b => n * 10 + digitValue b) 0 = n := by
    intro w
    induction w with
    | zero =>
        intro n hn
        rw [Nat.pow_zero, Nat.lt_one_iff] at hn
        rw [hn]
        rfl
    | succ w ih =>
        intro n hn
        have hdiv : n / 10 < 10 ^ w := by
          rw [Nat.div_lt_iff_lt_mul (by decide)]
          rwa [Nat.pow_succ] at hn
        rw [fixed, List.foldl_append, ih (n / 10) hdiv, List.foldl_cons, List.foldl_nil,
          (digitByte_facts (Nat.mod_lt n (by decide))).2.1]
        omega
  have hne : (fixed (width + 1) n).isEmpty = false := by
    rw [List.isEmpty_eq_false_iff, ← List.length_pos_iff, fixed_length]
    exact Nat.succ_pos width
  rw [parseDigits, hne, fixed_digits, hfold (width + 1) n h]
  rfl

end Digits

section Order

/-- Texts of one length are compared before what follows them. -/
theorem append_lt_append {x y a b : List Nat} (hlen : x.length = y.length) (h : x < y) :
    x ++ a < y ++ b := by
  induction x generalizing y with
  | nil =>
      obtain rfl : y = [] := List.length_eq_zero_iff.mp hlen.symm
      exact absurd h (lt_irrefl _)
  | cons c x ih =>
      cases y with
      | nil => cases hlen
      | cons d y =>
          rw [List.cons_lt_cons_iff] at h
          rw [List.cons_append, List.cons_append, List.cons_lt_cons_iff]
          rcases h with hcd | ⟨rfl, hxy⟩
          · exact Or.inl hcd
          · exact Or.inr ⟨rfl, ih (Nat.succ.inj hlen) hxy⟩

theorem append_lt_append_left {a b : List Nat} (x : List Nat) (h : a < b) : x ++ a < x ++ b := by
  induction x with
  | nil => exact h
  | cons c x ih =>
      rw [List.cons_append, List.cons_append, List.cons_lt_cons_iff]
      exact Or.inr ⟨rfl, ih⟩

theorem textKey_append (a b : Bytes) : textKey (a ++ b) = textKey a ++ textKey b :=
  List.map_append

/-- Numbers of one width compare as their digits do. -/
theorem fixed_lt {width n m : Nat} (h : n < m) (hm : m < 10 ^ width) :
    textKey (fixed width n) < textKey (fixed width m) := by
  induction width generalizing n m with
  | zero =>
      rw [Nat.pow_zero] at hm
      omega
  | succ width ih =>
      rw [fixed, fixed, textKey_append, textKey_append]
      have hdiv : m / 10 < 10 ^ width := by
        rw [Nat.div_lt_iff_lt_mul (by decide)]
        rwa [Nat.pow_succ] at hm
      rcases (Nat.div_le_div_right (c := 10) h.le).lt_or_eq with hlt | heq
      · apply append_lt_append _ (ih hlt hdiv)
        rw [textKey, textKey, List.length_map, List.length_map, fixed_length, fixed_length]
      · rw [heq]
        apply append_lt_append_left
        have hn := (digitByte_facts (Nat.mod_lt n (show 10 > 0 by decide))).2.2.1
        have hm := (digitByte_facts (Nat.mod_lt m (show 10 > 0 by decide))).2.2.1
        simp only [textKey, List.map_cons, List.map_nil, List.cons_lt_cons_iff, hn, hm]
        left
        omega

/-- Numbers in fixed widths, each with what closes it. -/
def written : List (Nat × UInt8) → List Nat → Bytes
  | (width, sep) :: shape, v :: vs => fixed width v ++ sep :: written shape vs
  | _, _ => []

/-- Each number fits its width. -/
def Fits (shape : List (Nat × UInt8)) (vs : List Nat) : Prop :=
  List.Forall₂ (fun s v => v < 10 ^ s.1) shape vs

/-- Texts of one shape compare as the numbers in them do. -/
theorem written_lt {shape : List (Nat × UInt8)} {vs vs' : List Nat} (hvs : Fits shape vs)
    (hvs' : Fits shape vs') (h : vs < vs') :
    textKey (written shape vs) < textKey (written shape vs') := by
  induction hvs generalizing vs' with
  | nil =>
      cases hvs'
      exact absurd h (lt_irrefl _)
  | @cons s v shape vs hv hrest ih =>
      cases hvs' with
      | @cons _ v' _ vs' hv' hrest' =>
          rw [written, written, textKey_append, textKey_append]
          rcases List.cons_lt_cons_iff.mp h with hlt | ⟨rfl, hlt⟩
          · apply append_lt_append _ (fixed_lt hlt hv')
            rw [textKey, textKey, List.length_map, List.length_map, fixed_length, fixed_length]
          · apply append_lt_append_left
            rw [textKey, textKey, List.map_cons, List.map_cons, List.cons_lt_cons_iff]
            exact Or.inr ⟨rfl, ih hrest' hlt⟩

end Order

end Ramjet.Base.FixedWidth
