/- digest: The dashboard reads back each timestamp the proxy writes; their texts keep the order. -/

import Ramjet.Proxy.Timestamps
import Ramjet.Top.Rfc3339

set_option autoImplicit false
set_option relaxedAutoImplicit false

namespace Ramjet.Top.RoundTrip

open Ramjet.Base.Octets
open Ramjet.Base.Text
open Ramjet.Base.Calendar
open Ramjet.Base.FixedWidth
open Ramjet.Proxy.Timestamps
open Ramjet.Top.Rfc3339

section Naming

/-- The last second of the year 9999. -/
def LAST_SECOND : Nat := 253402300799

/-- Year, month, day, hour, minute and second, each with the character behind it. -/
def shape : List (Nat × UInt8) := [(4, 45), (2, 45), (2, 84), (2, 58), (2, 58), (2, 90)]

/-- Hour, minute and second of a day. -/
def clock (timeOfDay : Nat) : List Nat :=
  [timeOfDay / 3600, timeOfDay / 60 % 60, timeOfDay % 60]

/-- The calendar date and the time of day of an instant. -/
def stamp (secs : Nat) : List Nat := (dateOf (secs / 86400)).parts ++ clock (secs % 86400)

theorem year_le_of_last {secs : Nat} (h : secs ≤ LAST_SECOND) :
    (dateOf (secs / 86400)).year.toNat ≤ 9999 := by
  have hlast : (dateOf 2932896).parts = [9999, 12, 31] := by
    have hcivil := civilFromDays_ordinal (dateOf 2932896)
    have hfound : civilFromDays (2932896 : Nat) = (9999, 12, 31) := by decide +kernel
    rw [ordinal_dateOf, hfound] at hcivil
    obtain ⟨hyear, hrest⟩ := Prod.mk.inj hcivil
    obtain ⟨hmonth, hday⟩ := Prod.mk.inj hrest
    rw [Date.parts, ← hyear, ← hmonth, ← hday]
    rfl
  have hle : (dateOf (secs / 86400)).parts ≤ (dateOf 2932896).parts := by
    apply parts_strictMono.monotone
    unfold LAST_SECOND at h
    omega
  by_contra hyear
  rw [hlast] at hle
  refine absurd (List.cons_lt_cons_iff.mpr (Or.inl ?_)) (not_lt_of_ge hle)
  omega

theorem fits_stamp {secs : Nat} (h : secs ≤ LAST_SECOND) : Fits shape (stamp secs) := by
  have hyear := year_le_of_last h
  have hmonth := (dateOf (secs / 86400)).month_mem
  have hday := (dateOf (secs / 86400)).day_mem
  have hdays := (daysIn_mem (dateOf (secs / 86400)).year (dateOf (secs / 86400)).month).2
  refine .cons ?_ (.cons ?_ (.cons ?_ (.cons ?_ (.cons ?_ (.cons ?_ .nil)))))
  all_goals dsimp only
  all_goals omega

theorem clock_lt {t t' : Nat} (h : t < t') : clock t < clock t' := by
  simp only [clock, List.cons_lt_cons_iff, lt_self_iff_false, and_false, or_false]
  omega

/-- Later instants have later stamps. -/
theorem stamp_lt {secs later : Nat} (h : secs < later) : stamp secs < stamp later := by
  rcases (Nat.div_le_div_right (c := 86400) h.le).lt_or_eq with hlt | heq
  · exact append_lt_append rfl (parts_strictMono hlt)
  · rw [stamp, stamp, heq]
    apply append_lt_append_left
    apply clock_lt
    omega

end Naming

section Writing

theorem padSigned_natCast {width n : Nat} (h : n < 10 ^ (width + 1)) :
    padSigned (width + 1) n = fixed (width + 1) n := by
  rw [padSigned, if_neg (Int.not_lt.mpr (Int.natCast_nonneg n)), Int.natAbs_natCast,
    zeroPad_decimal h]

/-- The formatter writes the date and the time of the instant. -/
theorem rfc3339_eq {secs : Nat} (h : secs ≤ LAST_SECOND) :
    rfc3339 (.since secs) = written shape (stamp secs) := by
  have hcivil := civilFromDays_ordinal (dateOf (secs / 86400))
  rw [ordinal_dateOf] at hcivil
  have hseconds : (SystemTime.since secs).seconds = (secs : Int) := by
    unfold LAST_SECOND at h
    rw [SystemTime.seconds]
    unfold I64_MAX
    omega
  have hyear : (dateOf (secs / 86400)).year = ((dateOf (secs / 86400)).year.toNat : Int) := by
    have hlate := year_dateOf (secs / 86400)
    omega
  have hfits := fits_stamp h
  simp only [Fits, shape, stamp, Date.parts, clock, List.cons_append, List.nil_append,
    List.forall₂_cons] at hfits
  obtain ⟨hyears, hmonths, hdays, hhours, hminutes, hseconds', -⟩ := hfits
  have hhour : ((secs : Int) % 86400).tdiv 3600 = ((secs % 86400 / 3600 : Nat) : Int) := by
    rw [Int.tdiv_eq_ediv_of_nonneg (by omega)]
    omega
  have hminute : (((secs : Int) % 86400).tdiv 60).tmod 60 =
      ((secs % 86400 / 60 % 60 : Nat) : Int) := by
    rw [Int.tdiv_eq_ediv_of_nonneg (by omega), Int.tmod_eq_emod_of_nonneg (by omega)]
    omega
  have hsecond : ((secs : Int) % 86400).tmod 60 = ((secs % 86400 % 60 : Nat) : Int) := by
    rw [Int.tmod_eq_emod_of_nonneg (by omega)]
    omega
  have hday : (secs : Int) / 86400 = ((secs / 86400 : Nat) : Int) := by omega
  simp only [rfc3339, hseconds, hday, hcivil, hhour, hminute, hsecond]
  rw [hyear, padSigned_natCast hyears, zeroPad_decimal hmonths, zeroPad_decimal hdays,
    padSigned_natCast hhours, padSigned_natCast hminutes, padSigned_natCast hseconds']
  rfl

end Writing

section Reading

/-- Both sides count the days of a date alike. -/
theorem daysFromCivil_eq (d : Date) : daysFromCivil d.year d.month d.day = d.ordinal := by
  obtain ⟨hlow, hhigh⟩ := d.month_mem
  have hyear : d.year - (if d.month ≤ 2 then 1 else 0) = d.marchYear := by
    unfold Date.marchYear
    split <;> omega
  have hmonth : (d.month : Int) + (if (d.month : Int) > 2 then -3 else 9) = d.marchMonth := by
    unfold Date.marchMonth
    split <;> split <;> omega
  have hera : (if 0 ≤ d.marchYear then d.marchYear else d.marchYear - 399).tdiv 400 =
      d.marchYear / 400 := tdiv_floor (n := 400) (by decide) d.marchYear
  have hshifted := (month_of_marchMonth d).1
  have hyoe : 0 ≤ d.marchYear - d.marchYear / 400 * 400 := by omega
  simp only [daysFromCivil, hyear, hmonth, hera, Int.tdiv_eq_ediv_of_nonneg hyoe,
    Int.tdiv_eq_ediv_of_nonneg hshifted]
  unfold Date.ordinal daysBefore Date.dayOfYear
  omega

theorem parseI64_fixed {width n : Nat} (hwidth : width < 18) (h : n < 10 ^ (width + 1)) :
    parseI64 (fixed (width + 1) n) = some (n : Int) := by
  have hdigit (b : UInt8) (hb : (fixed (width + 1) n).head? = some b) : isAsciiDigit b = true :=
    List.all_eq_true.mp (fixed_digits (width + 1) n) b (List.mem_of_mem_head? hb)
  have hminus : (fixed (width + 1) n).head? ≠ some 45 :=
    fun hhead => absurd (hdigit 45 hhead) (by decide)
  have hplus : (fixed (width + 1) n).head? ≠ some 43 :=
    fun hhead => absurd (hdigit 43 hhead) (by decide)
  have hsmall : n ≤ I64_MAX := by
    have hpow : 10 ^ (width + 1) ≤ 10 ^ 18 := Nat.pow_le_pow_right (by decide) hwidth
    unfold I64_MAX
    omega
  rw [parseI64, if_neg hminus, parseUnsigned, dropPlus, if_neg hplus, parseDigits_fixed h,
    Option.filter_some, if_pos (decide_eq_true hsmall), Option.map_some]

theorem toUnixSeconds_written {year month day hour minute second : Nat} (hyear : year < 10000)
    (hmonth : 1 ≤ month ∧ month ≤ 12) (hday : 1 ≤ day ∧ day ≤ 31) (hhour : hour ≤ 23)
    (hminute : minute ≤ 59) (hsecond : second ≤ 59) :
    toUnixSeconds (written shape [year, month, day, hour, minute, second]) =
      some (daysFromCivil year month day * 86400 + hour * 3600 + minute * 60 + second) := by
  have hplain : isContinuation 45 = false ∧ isContinuation 58 = false ∧
      isContinuation 84 = false ∧ isContinuation 90 = false := by decide
  obtain ⟨hdash, hcolon, ht, hz⟩ := hplain
  let text := written shape [year, month, day, hour, minute, second]
  have htext : text = written shape [year, month, day, hour, minute, second] := rfl
  have hnum (first last width n : Nat) (hwidth : width < 18) (hn : n < 10 ^ (width + 1))
      (hget : strGet text first last = some (fixed (width + 1) n)) :
      num text first last = some (n : Int) := by
    rw [num, hget, Option.bind_some, parseI64_fixed hwidth hn]
  simp only [written, shape, fixed, List.nil_append, List.cons_append] at htext
  have hyears : num text 0 4 = some (year : Int) :=
    hnum 0 4 3 year (by decide) hyear (by simp [htext, strGet, isCharBoundary, fixed, hdash])
  have hmonths : num text 5 7 = some (month : Int) :=
    hnum 5 7 1 month (by decide) (by omega)
      (by simp [htext, strGet, isCharBoundary, fixed, hdash, isContinuation_digitByte])
  have hdays : num text 8 10 = some (day : Int) :=
    hnum 8 10 1 day (by decide) (by omega)
      (by simp [htext, strGet, isCharBoundary, fixed, ht, isContinuation_digitByte])
  have hhours : num text 11 13 = some (hour : Int) :=
    hnum 11 13 1 hour (by decide) (by omega)
      (by simp [htext, strGet, isCharBoundary, fixed, hcolon, isContinuation_digitByte])
  have hminutes : num text 14 16 = some (minute : Int) :=
    hnum 14 16 1 minute (by decide) (by omega)
      (by simp [htext, strGet, isCharBoundary, fixed, hcolon, isContinuation_digitByte])
  have hseconds : num text 17 19 = some (second : Int) :=
    hnum 17 19 1 second (by decide) (by omega)
      (by simp [htext, strGet, isCharBoundary, fixed, hz, isContinuation_digitByte])
  have hseparators : sep text 4 (ascii "-") = some () ∧ sep text 7 (ascii "-") = some () ∧
      sep text 10 (ascii "Tt ") = some () ∧ sep text 13 (ascii ":") = some () ∧
      sep text 16 (ascii ":") = some () := by
    rw [htext]
    exact ⟨rfl, rfl, rfl, rfl, rfl⟩
  have hrest : strGet text 19 text.length = some [90] := by
    simp [htext, strGet, isCharBoundary, hz]
  have hlength : ¬ text.length < 19 := by
    simp [htext]
  obtain ⟨hsep4, hsep7, hsep10, hsep13, hsep16⟩ := hseparators
  have hfraction : afterFraction [90] = some [90] := rfl
  have hzone : offsetSeconds [90] = some 0 := rfl
  have hdate : ¬ (¬ ((1 : Int) ≤ month ∧ (month : Int) ≤ 12) ∨
      ¬ ((1 : Int) ≤ day ∧ (day : Int) ≤ 31)) := by omega
  have hclock : ¬ ((hour : Int) > 23 ∨ (minute : Int) > 59 ∨ (second : Int) > 61) := by omega
  have hmonthCast : asU32 (month : Int) = month := asU32_natCast (by unfold U32_MAX; omega)
  have hdayCast : asU32 (day : Int) = day := asU32_natCast (by unfold U32_MAX; omega)
  change toUnixSeconds text = _
  simp only [toUnixSeconds, if_neg hlength, hsep4, hsep7, hsep10, hsep13, hsep16, hyears, hmonths,
    hdays, hhours, hminutes, hseconds, hrest, hfraction, hzone, Option.bind_eq_bind,
    Option.bind_some, if_neg hdate, if_neg hclock, hmonthCast, hdayCast, Int.sub_zero]

end Reading

/-- Up to the end of the year 9999, the dashboard reads back the instant the proxy wrote; the text
names its date and time; and later instants have greater texts. -/
theorem rfc3339_round_trip (secs : Nat) (h : secs ≤ LAST_SECOND) :
    toUnixSeconds (rfc3339 (.since secs)) = some (secs : Int) ∧
      rfc3339 (.since secs) =
        written shape ((dateOf (secs / 86400)).parts ++ clock (secs % 86400)) ∧
      ∀ later, secs < later → later ≤ LAST_SECOND →
        textKey (rfc3339 (.since secs)) < textKey (rfc3339 (.since later)) := by
  refine ⟨?_, rfc3339_eq h, ?_⟩
  · have hlate := year_dateOf (secs / 86400)
    have hdays := (daysIn_mem (dateOf (secs / 86400)).year (dateOf (secs / 86400)).month).2
    have hday := (dateOf (secs / 86400)).day_mem
    have hyear : ((dateOf (secs / 86400)).year.toNat : Int) = (dateOf (secs / 86400)).year := by
      omega
    rw [rfc3339_eq h, stamp, Date.parts, clock, List.cons_append, List.cons_append,
      List.cons_append, List.nil_append,
      toUnixSeconds_written (Nat.lt_succ_of_le (year_le_of_last h))
        (dateOf (secs / 86400)).month_mem ⟨hday.1, hday.2.trans hdays⟩ (by omega) (by omega)
        (by omega),
      hyear, daysFromCivil_eq, ordinal_dateOf]
    congr 1
    omega
  · intro later hlater hlast
    rw [rfc3339_eq h, rfc3339_eq hlast]
    exact written_lt (fits_stamp h) (fits_stamp hlast) (stamp_lt hlater)

/-- On the leap day of a fourth century, and the day after it. -/
theorem rfc3339_round_trip_leap_day : 951782400 ≤ LAST_SECOND ∧
    rfc3339 (.since 951782400) = ascii "2000-02-29T00:00:00Z" ∧
    toUnixSeconds (rfc3339 (.since 951782400)) = some 951782400 ∧
    textKey (rfc3339 (.since 951782400)) < textKey (rfc3339 (.since 951868800)) := by
  have hround := rfc3339_round_trip 951782400 (by decide)
  exact ⟨by decide, by decide +kernel, hround.1,
    hround.2.2 951868800 (by decide) (by decide)⟩

end Ramjet.Top.RoundTrip
