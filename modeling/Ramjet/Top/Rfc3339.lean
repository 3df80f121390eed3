/- digest: The dashboard's reader of RFC 3339, strict about shape and about little else. -/

import Mathlib.Tactic.Common
import Ramjet.Base.Text

set_option autoImplicit false
set_option relaxedAutoImplicit false

namespace Ramjet.Top.Rfc3339

open Ramjet.Base.Octets
open Ramjet.Base.Text

/-- Whether a character of a text starts, or the text ends, at an index. -/
def isCharBoundary (text : Bytes) (i : Nat) : Bool :=
  i == 0 || match text[i]? with
    | some b => !isContinuation b
    | none => i == text.length

/-- `str::get` of a range. -/
def strGet (text : Bytes) (first last : Nat) : Option Bytes :=
  if first ≤ last && isCharBoundary text first && isCharBoundary text last then
    some ((text.take last).drop first)
  else none

/-- Days from 1970-01-01 to a date, proleptic Gregorian. -/
def daysFromCivil (year : Int) (month day : Nat) : Int :=
  let y := year - (if month ≤ 2 then 1 else 0)
  let era := (if 0 ≤ y then y else y - 399).tdiv 400
  let yoe := y - era * 400
  let m : Int := month
  let doy := (153 * (m + (if m > 2 then -3 else 9)) + 2).tdiv 5 + day - 1
  let doe := yoe * 365 + yoe.tdiv 4 - yoe.tdiv 100 + doy
  era * 146097 + doe - 719468

section Parsing

variable (text : Bytes)

def num (first last : Nat) : Option Int := (strGet text first last).bind parseI64

def sep (at_ : Nat) (want : Bytes) : Option Unit :=
  match text[at_]? with
  | some c => if c ∈ want then some () else none
  | none => none

/-- What follows the seconds and their fraction. -/
def afterFraction (rest : Bytes) : Option Bytes :=
  match rest with
  | 46 :: afterDot =>
      let digits := (afterDot.takeWhile isAsciiDigit).length
      if digits = 0 then none else strGet afterDot digits afterDot.length
  | _ => some rest

/-- How far the local clock is ahead of UTC. -/
def offsetSeconds (rest : Bytes) : Option Int :=
  match rest.head? with
  | none => none
  | some sign =>
      if (sign = 90 ∨ sign = 122) ∧ rest.length = 1 then some 0
      else if sign = 43 ∨ sign = 45 then
        if rest.length ≠ 6 ∨ rest[3]? ≠ some 58 then none
        else do
          let hours ← num rest 1 3
          let minutes ← num rest 4 6
          if hours > 23 ∨ minutes > 59 then none
          else
            let magnitude := hours * 3600 + minutes * 60
            some (if sign = 45 then -magnitude else magnitude)
      else none

/-- An RFC 3339 timestamp as seconds since the Unix epoch, absent where it is not one. -/
def toUnixSeconds : Option Int :=
  if text.length < 19 then none
  else do
    sep text 4 (ascii "-")
    sep text 7 (ascii "-")
    sep text 10 (ascii "Tt ")
    sep text 13 (ascii ":")
    sep text 16 (ascii ":")
    let year ← num text 0 4
    let month ← num text 5 7
    let day ← num text 8 10
    let hour ← num text 11 13
    let minute ← num text 14 16
    let second ← num text 17 19
    if ¬ (1 ≤ month ∧ month ≤ 12) ∨ ¬ (1 ≤ day ∧ day ≤ 31) then none
    else if hour > 23 ∨ minute > 59 ∨ second > 61 then none
    else
      let rest ← strGet text 19 text.length
      let rest ← afterFraction rest
      let offset ← offsetSeconds rest
      let days := daysFromCivil year (asU32 month) (asU32 day)
      some (days * 86400 + hour * 3600 + minute * 60 + second - offset)

end Parsing

example : toUnixSeconds (ascii "2025-06-01t12:00:00.5+01:00") = some 1748775600 := by
  decide +kernel

example : toUnixSeconds (ascii "2025-06-01T12:00:00.Z") = none := by decide +kernel

end Ramjet.Top.Rfc3339
