/- digest: A moment written as RFC 3339, and the calendar arithmetic behind it. -/

import Ramjet.Base.Calendar
import Ramjet.Base.FixedWidth

set_option autoImplicit false
set_option relaxedAutoImplicit false

namespace Ramjet.Proxy.Timestamps

open Ramjet.Base.Octets
open Ramjet.Base.Text
open Ramjet.Base.Calendar
open Ramjet.Base.FixedWidth

section Source

/-- What `duration_since(UNIX_EPOCH)` answers: the whole seconds since, or before. -/
inductive SystemTime where
  | since (secs : Nat)
  | before (secs : Nat)
  deriving DecidableEq

/-- A signed number with zeros in front, the sign before them. -/
def padSigned (width : Nat) (n : Int) : Bytes :=
  if n < 0 then 45 :: zeroPad (width - 1) (decimal n.natAbs) else zeroPad width (decimal n.natAbs)

/-- Days since the Unix epoch into a proleptic Gregorian date. -/
def civilFromDays (days : Int) : Int × Nat × Nat :=
  let z := days + 719468
  let era := (if 0 ≤ z then z else z - 146096).tdiv 146097
  let dayOfEra := z - era * 146097
  let yearOfEra :=
    (dayOfEra - dayOfEra.tdiv 1460 + dayOfEra.tdiv 36524 - dayOfEra.tdiv 146096).tdiv 365
  let year := yearOfEra + era * 400
  let dayOfYear := dayOfEra - (365 * yearOfEra + yearOfEra.tdiv 4 - yearOfEra.tdiv 100)
  let monthPrime := (5 * dayOfYear + 2).tdiv 153
  let day := asU32 (dayOfYear - (153 * monthPrime + 2).tdiv 5 + 1)
  let month := asU32 (if monthPrime < 10 then monthPrime + 3 else monthPrime - 9)
  (year + (if month ≤ 2 then 1 else 0), month, day)

def SystemTime.seconds : SystemTime → Int
  | .since secs => min secs I64_MAX
  | .before secs => -(min secs I64_MAX : Nat)

/-- A moment as RFC 3339 in UTC, to the second. -/
def rfc3339 (time : SystemTime) : Bytes :=
  let seconds := time.seconds
  let days := seconds / 86400
  let timeOfDay := seconds % 86400
  let (year, month, day) := civilFromDays days
  padSigned 4 year ++ ascii "-" ++ zeroPad 2 (decimal month) ++ ascii "-" ++
    zeroPad 2 (decimal day) ++ ascii "T" ++ padSigned 2 (timeOfDay.tdiv 3600) ++ ascii ":" ++
    padSigned 2 ((timeOfDay.tdiv 60).tmod 60) ++ ascii ":" ++ padSigned 2 (timeOfDay.tmod 60) ++
    ascii "Z"

example : rfc3339 (.since 1735689600) = ascii "2025-01-01T00:00:00Z" := by decide +kernel

example : rfc3339 (.before 1) = ascii "1969-12-31T23:59:59Z" := by decide +kernel

end Source

section Eras

/-- A day of the year that began in March, of one of the four hundred years of an era. -/
structure InEra (yearOfEra dayOfYear : Int) : Prop where
  year : 0 ≤ yearOfEra ∧ yearOfEra < 400
  day : 0 ≤ dayOfYear ∧ dayOfYear ≤ 365
  leap : dayOfYear = 365 → IsLeap (yearOfEra + 1)

variable {yearOfEra dayOfYear : Int}

/-- Days of an era up to a day of one of its years. -/
def dayOfEraOf (yearOfEra dayOfYear : Int) : Int :=
  365 * yearOfEra + yearOfEra / 4 - yearOfEra / 100 + dayOfYear

theorem InEra.dayOfEra_mem (h : InEra yearOfEra dayOfYear) :
    0 ≤ dayOfEraOf yearOfEra dayOfYear ∧ dayOfEraOf yearOfEra dayOfYear < 146097 := by
  obtain ⟨⟨hlow, hhigh⟩, ⟨hfirst, hlast⟩, -⟩ := h
  unfold dayOfEraOf
  omega

/-- The centuries of an era are counted off its days. -/
theorem InEra.century (h : InEra yearOfEra dayOfYear) :
    dayOfEraOf yearOfEra dayOfYear / 36524 - dayOfEraOf yearOfEra dayOfYear / 146096 =
      yearOfEra / 100 := by
  obtain ⟨⟨hlow, hhigh⟩, ⟨hfirst, hlast⟩, hleap⟩ := h
  unfold IsLeap at hleap
  unfold dayOfEraOf
  have hquarter : yearOfEra / 4 = 25 * (yearOfEra / 100) + (yearOfEra % 100) / 4 := by omega
  generalize hday : 365 * yearOfEra + yearOfEra / 4 - yearOfEra / 100 + dayOfYear = day
  have hbegins : 36524 * (yearOfEra / 100) ≤ day := by omega
  -- The last day of an era is the one that a fourth century has too many.
  by_cases hend : day = 146096
  · omega
  · have hends : day < 36524 * (yearOfEra / 100 + 1) := by omega
    omega

/-- The year of an era is found from its day. -/
theorem InEra.year_eq (h : InEra yearOfEra dayOfYear) :
    (dayOfEraOf yearOfEra dayOfYear - dayOfEraOf yearOfEra dayOfYear / 1460 +
      dayOfEraOf yearOfEra dayOfYear / 36524 - dayOfEraOf yearOfEra dayOfYear / 146096) / 365 =
        yearOfEra := by
  have hcentury := h.century
  obtain ⟨⟨hlow, hhigh⟩, ⟨hfirst, hlast⟩, hleap⟩ := h
  unfold IsLeap at hleap
  rw [Int.add_sub_assoc, hcentury]
  unfold dayOfEraOf
  by_cases hday : dayOfYear = 365
  · omega
  · omega

end Eras

section Dates

/-- A date falls in an era, with its year and its day of the year. -/
theorem inEra (d : Date) : InEra (d.marchYear % 400) d.dayOfYear := by
  obtain ⟨hfirst, hlast, hleap⟩ := d.dayOfYear_mem
  refine ⟨by omega, ⟨hfirst, hlast⟩, fun hday => ?_⟩
  have hyear := hleap hday
  unfold IsLeap at hyear ⊢
  omega

theorem ordinal_eq_era (d : Date) : d.ordinal + 719468 =
    d.marchYear / 400 * 146097 + dayOfEraOf (d.marchYear % 400) d.dayOfYear := by
  unfold Date.ordinal daysBefore dayOfEraOf
  omega

/-- The month and the day are found from the month counted from March. -/
theorem month_of_marchMonth (d : Date) : 0 ≤ 153 * d.marchMonth + 2 ∧
    (if d.marchMonth < 10 then d.marchMonth + 3 else d.marchMonth - 9) = d.month := by
  obtain ⟨hlow, hhigh⟩ := d.month_mem
  unfold Date.marchMonth
  by_cases hmarch : 2 < d.month
  · rw [if_pos hmarch, if_pos (by omega)]
    omega
  · rw [if_neg hmarch, if_neg (by omega)]
    omega

theorem asU32_natCast {n : Nat} (h : n ≤ U32_MAX) : asU32 n = n := by
  unfold U32_MAX at h
  unfold asU32 U32_MAX
  omega

/-- The arithmetic finds every date from its count of days. -/
theorem civilFromDays_ordinal (d : Date) :
    civilFromDays d.ordinal = (d.year, d.month, d.day) := by
  have hin := inEra d
  obtain ⟨hlow, hhigh⟩ := hin.dayOfEra_mem
  have hera : (if 0 ≤ d.ordinal + 719468 then d.ordinal + 719468
      else d.ordinal + 719468 - 146096).tdiv 146097 = d.marchYear / 400 := by
    refine (tdiv_floor (n := 146097) (by decide) _).trans ?_
    rw [ordinal_eq_era]
    omega
  have hrest : d.ordinal + 719468 - d.marchYear / 400 * 146097 =
      dayOfEraOf (d.marchYear % 400) d.dayOfYear := by
    rw [ordinal_eq_era]
    omega
  have hday : dayOfEraOf (d.marchYear % 400) d.dayOfYear -
      (365 * (d.marchYear % 400) + d.marchYear % 400 / 4 - d.marchYear % 400 / 100) =
        d.dayOfYear := by
    unfold dayOfEraOf
    omega
  have hmonth : (5 * d.dayOfYear + 2).tdiv 153 = d.marchMonth := by
    have hpositive := hin.day.1
    rw [Int.tdiv_eq_ediv_of_nonneg (by omega), d.marchMonth_eq]
  obtain ⟨hshifted, hof⟩ := month_of_marchMonth d
  have hyears : 0 ≤ d.marchYear % 400 := hin.year.1
  have hnumerator : 0 ≤ dayOfEraOf (d.marchYear % 400) d.dayOfYear -
      dayOfEraOf (d.marchYear % 400) d.dayOfYear / 1460 +
      dayOfEraOf (d.marchYear % 400) d.dayOfYear / 36524 -
      dayOfEraOf (d.marchYear % 400) d.dayOfYear / 146096 := by omega
  simp only [civilFromDays, hera, hrest, Int.tdiv_eq_ediv_of_nonneg hlow,
    Int.tdiv_eq_ediv_of_nonneg hnumerator, hin.year_eq, Int.tdiv_eq_ediv_of_nonneg hyears, hday,
    hmonth, Int.tdiv_eq_ediv_of_nonneg hshifted, hof]
  have hofMonth : d.dayOfYear - (153 * d.marchMonth + 2) / 5 + 1 = d.day := by
    unfold Date.dayOfYear
    omega
  have hdays := (daysIn_mem d.year d.month).2
  have hmonths := d.month_mem
  have hdayMem := d.day_mem
  rw [hofMonth, asU32_natCast (by unfold U32_MAX; omega), asU32_natCast (by unfold U32_MAX; omega)]
  have hyear : d.marchYear % 400 + d.marchYear / 400 * 400 + (if d.month ≤ 2 then 1 else 0) =
      d.year := by
    unfold Date.marchYear
    split <;> omega
  rw [hyear]

end Dates

end Ramjet.Proxy.Timestamps
