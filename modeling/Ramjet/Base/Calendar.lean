/- digest: The proleptic Gregorian calendar, day by day, and the count of days up to a date. -/

import Mathlib.Order.Monotone.Basic
import Mathlib.Data.List.Lex
import Mathlib.Tactic.Common
import Mathlib.Tactic.IntervalCases

set_option autoImplicit false
set_option relaxedAutoImplicit false

namespace Ramjet.Base.Calendar

section Dates

/-- Every fourth year but the centuries, of which every fourth. -/
def IsLeap (year : Int) : Prop := year % 4 = 0 ∧ (year % 100 = 0 → year % 400 = 0)

instance (year : Int) : Decidable (IsLeap year) := by
  unfold IsLeap
  infer_instance

def daysIn (year : Int) (month : Nat) : Nat :=
  if month = 2 then if IsLeap year then 29 else 28
  else if month = 4 ∨ month = 6 ∨ month = 9 ∨ month = 11 then 30
  else 31

/-- A day of the calendar. -/
@[ext] structure Date where
  year : Int
  month : Nat
  day : Nat
  month_mem : 1 ≤ month ∧ month ≤ 12
  day_mem : 1 ≤ day ∧ day ≤ daysIn year month
  deriving DecidableEq

theorem daysIn_mem (year : Int) (month : Nat) :
    1 ≤ daysIn year month ∧ daysIn year month ≤ 31 := by
  unfold daysIn
  split
  · split <;> omega
  · split <;> omega

def Date.next (d : Date) : Date :=
  if hday : d.day < daysIn d.year d.month then
    ⟨d.year, d.month, d.day + 1, d.month_mem, by omega, hday⟩
  else if hmonth : d.month < 12 then
    ⟨d.year, d.month + 1, 1, by omega, le_rfl, (daysIn_mem _ _).1⟩
  else ⟨d.year + 1, 1, 1, by omega, le_rfl, (daysIn_mem _ _).1⟩

/-- 1970-01-01. -/
def Date.epoch : Date := ⟨1970, 1, 1, by decide, by decide⟩

/-- The date so many days after 1970-01-01. -/
def dateOf : Nat → Date
  | 0 => .epoch
  | n + 1 => (dateOf n).next

/-- Year, month and day, in the order dates are compared by. -/
def Date.parts (d : Date) : List Nat := [d.year.toNat, d.month, d.day]

end Dates

/-- Division towards zero, corrected to round down as counting by eras needs. -/
theorem tdiv_floor {n : Int} (hn : 0 < n) (z : Int) :
    (if 0 ≤ z then z else z - (n - 1)).tdiv n = z / n := by
  split
  · rename_i hz
    exact Int.tdiv_eq_ediv_of_nonneg hz
  · rename_i hz
    have hpositive : 0 ≤ n - 1 - z % n := by
      have hmod := Int.emod_lt_of_pos z hn
      omega
    have hless : n - 1 - z % n < n := by
      have hmod := Int.emod_nonneg z hn.ne'
      omega
    have hsplit : -(z - (n - 1)) = n - 1 - z % n + n * -(z / n) := by
      have hdiv := Int.emod_add_mul_ediv z n
      rw [Int.mul_neg]
      omega
    rw [← Int.neg_neg (z - (n - 1)), Int.neg_tdiv, Int.tdiv_eq_ediv_of_nonneg (by omega), hsplit,
      Int.add_mul_ediv_left _ _ hn.ne', Int.ediv_eq_zero_of_lt hpositive hless, Int.zero_add,
      Int.neg_neg]

section Counting

/-- The year a date falls in where years begin in March. -/
def Date.marchYear (d : Date) : Int := if d.month ≤ 2 then d.year - 1 else d.year

/-- The month, counted from March. -/
def Date.marchMonth (d : Date) : Int := if 2 < d.month then d.month - 3 else d.month + 9

/-- Days before the March of a year, from the March of the year zero. -/
def daysBefore (year : Int) : Int := 365 * year + year / 4 - year / 100 + year / 400

/-- The day of the year that began in March, counted from zero. -/
def Date.dayOfYear (d : Date) : Int := (153 * d.marchMonth + 2) / 5 + d.day - 1

/-- Days from 1970-01-01 up to a date. -/
def Date.ordinal (d : Date) : Int := daysBefore d.marchYear + d.dayOfYear - 719468

theorem daysBefore_succ (year : Int) :
    daysBefore (year + 1) = daysBefore year + if IsLeap (year + 1) then 366 else 365 := by
  by_cases hleap : IsLeap (year + 1)
  · rw [if_pos hleap]
    unfold IsLeap at hleap
    unfold daysBefore
    omega
  · rw [if_neg hleap]
    unfold IsLeap at hleap
    unfold daysBefore
    omega

/-- What the month of a date is found from its day of the year by. -/
theorem Date.marchMonth_eq (d : Date) : (5 * d.dayOfYear + 2) / 153 = d.marchMonth := by
  obtain ⟨year, month, day, ⟨hlow, hhigh⟩, hfirst, hlast⟩ := d
  unfold dayOfYear marchMonth
  unfold daysIn at hlast
  dsimp only at hlast ⊢
  interval_cases month
  all_goals norm_num at hlast ⊢
  all_goals first
    | omega
    | (split at hlast <;> omega)

theorem Date.dayOfYear_mem (d : Date) : 0 ≤ d.dayOfYear ∧ d.dayOfYear ≤ 365 ∧
    (d.dayOfYear = 365 → IsLeap (d.marchYear + 1)) := by
  obtain ⟨year, month, day, ⟨hlow, hhigh⟩, hfirst, hlast⟩ := d
  unfold dayOfYear marchMonth marchYear
  dsimp only
  by_cases hmonth : month = 2
  · subst hmonth
    norm_num [daysIn] at hlast ⊢
    by_cases hleap : IsLeap year
    · rw [if_pos hleap] at hlast
      exact ⟨by omega, by omega, fun _ => hleap⟩
    · rw [if_neg hleap] at hlast
      exact ⟨by omega, by omega, fun hday => by omega⟩
  · have hmost := (daysIn_mem year month).2
    split
    · exact ⟨by omega, by omega, fun hday => by omega⟩
    · exact ⟨by omega, by omega, fun hday => by omega⟩

theorem ordinal_epoch : Date.epoch.ordinal = 0 := by decide

/-- From the last day of a month to the first of the next. -/
private theorem ordinal_next_month {year : Int} {month : Nat} (hlow : 1 ≤ month)
    (hhigh : month < 12) (hday : 1 ≤ daysIn year month ∧ daysIn year month ≤ daysIn year month)
    (hfirst : 1 ≤ 1 ∧ 1 ≤ daysIn year (month + 1)) :
    Date.ordinal ⟨year, month + 1, 1, by omega, hfirst⟩ =
      Date.ordinal ⟨year, month, daysIn year month, by omega, hday⟩ + 1 := by
  unfold Date.ordinal Date.dayOfYear Date.marchYear Date.marchMonth
  rcases (show month = 1 ∨ month = 2 ∨ 3 ≤ month by omega) with rfl | rfl | hmarch
  · norm_num [daysIn]
    omega
  · -- The leap day ends the year that began in March.
    have hyear := daysBefore_succ (year - 1)
    rw [Int.sub_add_cancel] at hyear
    by_cases hleap : IsLeap year
    · rw [if_pos hleap] at hyear
      norm_num [daysIn, hleap]
      omega
    · rw [if_neg hleap] at hyear
      norm_num [daysIn, hleap]
      omega
  · interval_cases month
    all_goals norm_num [daysIn]
    all_goals omega

/-- The next date is one day later. -/
theorem Date.ordinal_next (d : Date) : d.next.ordinal = d.ordinal + 1 := by
  obtain ⟨year, month, day, ⟨hlow, hhigh⟩, hday⟩ := d
  unfold next
  by_cases hlast : day < daysIn year month
  · rw [dif_pos hlast]
    unfold ordinal dayOfYear marchYear marchMonth
    push_cast
    omega
  · obtain rfl : day = daysIn year month := le_antisymm hday.2 (Nat.le_of_not_lt hlast)
    rw [dif_neg hlast]
    by_cases hmonth : month < 12
    · rw [dif_pos hmonth]
      exact ordinal_next_month hlow hmonth hday _
    · rw [dif_neg hmonth]
      obtain rfl : month = 12 := by omega
      norm_num [ordinal, dayOfYear, marchYear, marchMonth, daysIn]
      omega

/-- The date `n` days after 1970-01-01 is counted as that. -/
theorem ordinal_dateOf (n : Nat) : (dateOf n).ordinal = n := by
  induction n with
  | zero => exact ordinal_epoch
  | succ n ih =>
      rw [dateOf, Date.ordinal_next, ih, Nat.cast_succ]

end Counting

section Order

theorem Date.parts_lt_next {d : Date} (h : 0 ≤ d.year) : d.parts < d.next.parts := by
  unfold parts next
  by_cases hday : d.day < daysIn d.year d.month
  · rw [dif_pos hday]
    simp only [List.cons_lt_cons_iff, lt_self_iff_false, true_and, false_or]
    exact Or.inl (Nat.lt_succ_self d.day)
  · rw [dif_neg hday]
    by_cases hmonth : d.month < 12
    · rw [dif_pos hmonth]
      simp only [List.cons_lt_cons_iff, lt_self_iff_false, true_and, false_or]
      exact Or.inl (Nat.lt_succ_self d.month)
    · rw [dif_neg hmonth]
      simp only [List.cons_lt_cons_iff]
      left
      omega

theorem year_dateOf (n : Nat) : 1970 ≤ (dateOf n).year := by
  induction n with
  | zero => exact le_rfl
  | succ n ih =>
      rw [dateOf, Date.next]
      split
      · exact ih
      · split
        · exact ih
        · exact ih.trans (Int.le_add_one le_rfl)

/-- Later days have later dates. -/
theorem parts_strictMono : StrictMono fun n => (dateOf n).parts := by
  apply strictMono_nat_of_lt_succ
  intro n
  exact Date.parts_lt_next (by have := year_dateOf n; omega)

end Order

end Ramjet.Base.Calendar
