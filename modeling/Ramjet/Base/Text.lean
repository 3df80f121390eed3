/- digest: Trimming, number parsing and ordering of UTF-8 text held as octets. -/

import Mathlib.Data.List.Lex
import Ramjet.Base.Octets

set_option autoImplicit false
set_option relaxedAutoImplicit false

namespace Ramjet.Base.Text

open Ramjet.Base.Octets

/-- The encodings of the characters with the Unicode property `White_Space`. -/
def whitespace : List Bytes :=
  [[9], [10], [11], [12], [13], [32], [0xC2, 0x85], [0xC2, 0xA0], [0xE1, 0x9A, 0x80],
    [0xE2, 0x80, 0x80], [0xE2, 0x80, 0x81], [0xE2, 0x80, 0x82], [0xE2, 0x80, 0x83],
    [0xE2, 0x80, 0x84], [0xE2, 0x80, 0x85], [0xE2, 0x80, 0x86], [0xE2, 0x80, 0x87],
    [0xE2, 0x80, 0x88], [0xE2, 0x80, 0x89], [0xE2, 0x80, 0x8A], [0xE2, 0x80, 0xA8],
    [0xE2, 0x80, 0xA9], [0xE2, 0x80, 0xAF], [0xE2, 0x81, 0x9F], [0xE3, 0x80, 0x80]]

/-- At most `n` leading whitespace characters dropped. -/
def trimStartUpTo : Nat → Bytes → Bytes
  | 0, text => text
  | n + 1, text =>
      match whitespace.find? fun w => w.isPrefixOf text with
      | some w => trimStartUpTo n (text.drop w.length)
      | none => text

/-- At most `n` trailing whitespace characters dropped. -/
def trimEndUpTo : Nat → Bytes → Bytes
  | 0, text => text
  | n + 1, text =>
      match whitespace.find? fun w => w.isSuffixOf text with
      | some w => trimEndUpTo n (text.take (text.length - w.length))
      | none => text

/-- A text without its leading and trailing whitespace. -/
def trim (text : Bytes) : Bytes :=
  let text := trimStartUpTo text.length text
  trimEndUpTo text.length text

def digitValue (b : UInt8) : Nat := b.toNat - 48

/-- The number a run of decimal digits stands for, absent where it is not one. -/
def parseDigits (text : Bytes) : Option Nat :=
  if text.isEmpty || !text.all isAsciiDigit then none
  else some (text.foldl (fun n b => n * 10 + digitValue b) 0)

def dropPlus (text : Bytes) : Bytes := if text.head? = some 43 then text.tail else text

/-- An unsigned number of at most `limit`, with an optional plus sign. -/
def parseUnsigned (limit : Nat) (text : Bytes) : Option Nat :=
  (parseDigits (dropPlus text)).filter (· ≤ limit)

def U16_MAX : Nat := 65535

def U32_MAX : Nat := 4294967295

def I32_MAX : Nat := 2147483647

def I64_MAX : Nat := 9223372036854775807

/-- `as u32`. -/
def asU32 (n : Int) : Nat := (n % (U32_MAX + 1)).toNat

section Numerals

private theorem not_alphanumeric_of_whitespace {w : Bytes} (hw : w ∈ whitespace) :
    ∃ b ∈ w, isAsciiAlphanumeric b = false := by
  have hall : ∀ w ∈ whitespace, ∃ b ∈ w, isAsciiAlphanumeric b = false := by decide
  exact hall w hw

private theorem trimStartUpTo_alphanumeric {text : Bytes}
    (h : ∀ b ∈ text, isAsciiAlphanumeric b = true) (n : Nat) : trimStartUpTo n text = text := by
  cases n with
  | zero => rfl
  | succ n =>
      have hnone : (whitespace.find? fun w => w.isPrefixOf text) = none := by
        rw [List.find?_eq_none]
        intro w hw hpre
        obtain ⟨b, hb, hplain⟩ := not_alphanumeric_of_whitespace hw
        have hin : b ∈ text := (List.isPrefixOf_iff_prefix.mp hpre).subset hb
        rw [h b hin] at hplain
        cases hplain
      simp only [trimStartUpTo, hnone]

private theorem trimEndUpTo_alphanumeric {text : Bytes}
    (h : ∀ b ∈ text, isAsciiAlphanumeric b = true) (n : Nat) : trimEndUpTo n text = text := by
  cases n with
  | zero => rfl
  | succ n =>
      have hnone : (whitespace.find? fun w => w.isSuffixOf text) = none := by
        rw [List.find?_eq_none]
        intro w hw hsuf
        obtain ⟨b, hb, hplain⟩ := not_alphanumeric_of_whitespace hw
        have hin : b ∈ text := (List.isSuffixOf_iff_suffix.mp hsuf).subset hb
        rw [h b hin] at hplain
        cases hplain
      simp only [trimEndUpTo, hnone]

/-- Letters and digits are not trimmed. -/
theorem trim_alphanumeric {text : Bytes} (h : ∀ b ∈ text, isAsciiAlphanumeric b = true) :
    trim text = text := by
  rw [trim, trimStartUpTo_alphanumeric h]
  exact trimEndUpTo_alphanumeric h _

private theorem digit_digitByte {d : Nat} (h : d < 10) :
    isAsciiDigit (digitByte d) = true ∧ digitValue (digitByte d) = d := by
  have hall : ∀ d < 10, isAsciiDigit (digitByte d) = true ∧ digitValue (digitByte d) = d := by
    decide
  exact hall d h

private theorem decimal_digits (n : Nat) : (decimal n).all isAsciiDigit = true ∧
    (decimal n).foldl (fun n b => n * 10 + digitValue b) 0 = n ∧ decimal n ≠ [] := by
  induction n using Nat.strong_induction_on with
  | _ n ih =>
      rw [decimal, numeral]
      split
      · rename_i hn
        obtain ⟨hdigit, hvalue⟩ := digit_digitByte (show n < 10 by omega)
        exact ⟨by simp [hdigit], by simp [hvalue], List.cons_ne_nil _ _⟩
      · rename_i hn
        obtain ⟨hall, hfold, -⟩ := ih (n / 10) (Nat.div_lt_self (by omega) (by omega))
        obtain ⟨hdigit, hvalue⟩ := digit_digitByte (Nat.mod_lt n (show 10 > 0 by omega))
        rw [decimal] at hall hfold
        refine ⟨by simp [hall, hdigit], ?_, by simp⟩
        rw [List.foldl_append, hfold, List.foldl_cons, List.foldl_nil, hvalue]
        omega

/-- A number is read back from its decimal digits. -/
theorem parseUnsigned_decimal {limit n : Nat} (h : n ≤ limit) :
    parseUnsigned limit (trim (decimal n)) = some n := by
  obtain ⟨hall, hfold, hne⟩ := decimal_digits n
  have htrim : trim (decimal n) = decimal n :=
    trim_alphanumeric fun b => isAsciiAlphanumeric_of_mem_numeral (by omega) (by omega)
  have hplus : dropPlus (decimal n) = decimal n := by
    unfold dropPlus
    split
    · rename_i hhead
      have hmem : (43 : UInt8) ∈ decimal n := List.mem_of_mem_head? hhead
      have hdigit := List.all_eq_true.mp hall _ hmem
      exact absurd hdigit (by decide)
    · rfl
  have hdigits : parseDigits (decimal n) = some n := by
    simp only [parseDigits, List.isEmpty_eq_false_iff.mpr hne, hall, hfold, Bool.not_true,
      Bool.or_self, Bool.false_eq_true, if_false]
  rw [parseUnsigned, htrim, hplus, hdigits]
  simpa using h

end Numerals

/-- A signed 32-bit number. -/
def parseI32 (text : Bytes) : Option Int :=
  if text.head? = some 45 then
    ((parseDigits text.tail).filter (· ≤ I32_MAX + 1)).map fun n => -(n : Int)
  else (parseUnsigned I32_MAX text).map fun n => (n : Int)

/-- A signed 64-bit number. -/
def parseI64 (text : Bytes) : Option Int :=
  if text.head? = some 45 then
    ((parseDigits text.tail).filter (· ≤ I64_MAX + 1)).map fun n : Nat => -(n : Int)
  else (parseUnsigned I64_MAX text).map fun n : Nat => (n : Int)

/-- A signed number in decimal. -/
def signedDecimal (n : Int) : Bytes :=
  if n < 0 then ascii "-" ++ decimal n.natAbs else decimal n.natAbs

/-- Where a text stands in the order of strings, which compares octet by octet. -/
def textKey (text : Bytes) : List Nat := text.map UInt8.toNat

theorem textKey_injective : Function.Injective textKey :=
  List.map_injective_iff.mpr fun _ _ h => UInt8.toNat_inj.mp h

/-- A text split at the last separator. -/
def rsplitOnce (sep : UInt8) (text : Bytes) : Option (Bytes × Bytes) :=
  (splitOnce sep text.reverse).map fun p => (p.2.reverse, p.1.reverse)

/-- Whether an octet continues a UTF-8 sequence. -/
def isContinuation (b : UInt8) : Bool := 0x80 ≤ b && b ≤ 0xBF

/-- The first two octets of a three-octet sequence: no overlong form and no surrogate. -/
def opensThree (b c : UInt8) : Bool :=
  (b == 0xE0 && 0xA0 ≤ c && c ≤ 0xBF) || (b == 0xED && 0x80 ≤ c && c ≤ 0x9F) ||
    (0xE1 ≤ b && b ≤ 0xEF && b != 0xED && isContinuation c)

/-- The first two octets of a four-octet sequence: no overlong form and nothing past U+10FFFF. -/
def opensFour (b c : UInt8) : Bool :=
  (b == 0xF0 && 0x90 ≤ c && c ≤ 0xBF) || (b == 0xF4 && 0x80 ≤ c && c ≤ 0x8F) ||
    (0xF1 ≤ b && b ≤ 0xF3 && isContinuation c)

/-- Whether octets are well-formed UTF-8. -/
def validUtf8 : Bytes → Bool
  | [] => true
  | [b] => b < 0x80
  | [b, c] =>
      if b < 0x80 then validUtf8 [c] else 0xC2 ≤ b && b ≤ 0xDF && isContinuation c
  | [b, c, d] =>
      if b < 0x80 then validUtf8 [c, d]
      else if 0xC2 ≤ b && b ≤ 0xDF && isContinuation c then validUtf8 [d]
      else opensThree b c && isContinuation d
  | b :: c :: d :: e :: rest =>
      if b < 0x80 then validUtf8 (c :: d :: e :: rest)
      else if 0xC2 ≤ b && b ≤ 0xDF && isContinuation c then validUtf8 (d :: e :: rest)
      else if opensThree b c && isContinuation d then validUtf8 (e :: rest)
      else opensFour b c && isContinuation d && isContinuation e && validUtf8 rest

theorem validUtf8_of_ascii {octets : Bytes} (h : ∀ b ∈ octets, b < 0x80) :
    validUtf8 octets = true := by
  fun_induction validUtf8 octets with
  | case1 => rfl
  | case2 b => exact decide_eq_true (h b List.mem_cons_self)
  | case3 b c hb ih => exact ih fun x hx => h x (List.mem_cons_of_mem b hx)
  | case4 b c hb => exact absurd (h b List.mem_cons_self) hb
  | case5 b c d hb ih => exact ih fun x hx => h x (List.mem_cons_of_mem b hx)
  | case6 b c d hb => exact absurd (h b List.mem_cons_self) hb
  | case7 b c d hb => exact absurd (h b List.mem_cons_self) hb
  | case8 b c d e rest hb ih => exact ih fun x hx => h x (List.mem_cons_of_mem b hx)
  | case9 b c d e rest hb => exact absurd (h b List.mem_cons_self) hb
  | case10 b c d e rest hb => exact absurd (h b List.mem_cons_self) hb
  | case11 b c d e rest hb => exact absurd (h b List.mem_cons_self) hb

/-- The octets as text, absent where they are not UTF-8. -/
def fromUtf8 (octets : Bytes) : Option Bytes := if validUtf8 octets then some octets else none

end Ramjet.Base.Text
