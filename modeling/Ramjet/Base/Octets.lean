/- digest: Byte strings, first occurrences, line cutting and ASCII tests shared by every parser. -/

import Mathlib.Data.List.DropRight
import Mathlib.Data.List.Infix
import Mathlib.Tactic.Common

set_option autoImplicit false
set_option relaxedAutoImplicit false

namespace Ramjet.Base.Octets

/-- A byte buffer; also the UTF-8 bytes of a string slice. -/
abbrev Bytes := List UInt8

/-- The bytes of an ASCII literal. -/
def ascii (s : String) : Bytes := s.toList.map fun c => UInt8.ofNat c.toNat

/-- The characters of a literal are at hand: evaluation has no text to decode. -/
theorem ascii_ofList (chars : List Char) :
    ascii (String.ofList chars) = chars.map fun c => UInt8.ofNat c.toNat := by
  rw [ascii, String.toList_ofList]

section Occurrence

variable {α : Type} [DecidableEq α]

/-- Position of the first occurrence of `pat`. -/
def findSub (pat : List α) : List α → Option Nat
  | [] => if pat.isEmpty then some 0 else none
  | x :: xs => if pat <+: x :: xs then some 0 else (findSub pat xs).map (· + 1)

theorem findSub_eq_none_iff (pat l : List α) : findSub pat l = none ↔ ¬ pat <:+: l := by
  induction l with
  | nil => cases pat <;> simp [findSub]
  | cons x xs ih =>
      simp only [findSub, List.infix_cons_iff]
      by_cases hp : pat <+: x :: xs
      · simp [hp]
      · simp [hp, ih]

/-- The position found starts a copy of the pattern that lies inside the text. -/
theorem findSub_spec {pat l : List α} {i : Nat} (h : findSub pat l = some i) :
    pat <+: l.drop i ∧ i + pat.length ≤ l.length := by
  induction l generalizing i with
  | nil =>
      cases pat with
      | nil => simp [findSub] at h; simp [← h]
      | cons => simp [findSub] at h
  | cons x xs ih =>
      simp only [findSub] at h
      split at h
      · rename_i hp
        cases h
        exact ⟨by simpa using hp, by simpa using hp.length_le⟩
      · obtain ⟨j, hj, rfl⟩ := Option.map_eq_some_iff.mp h
        have hspec := ih hj
        refine ⟨by simpa using hspec.1, ?_⟩
        simp only [List.length_cons]
        omega

/-- What precedes the first occurrence holds no occurrence of its own. -/
theorem not_infix_take_of_findSub {pat l : List α} (hpat : pat ≠ []) {i : Nat}
    (h : findSub pat l = some i) : ¬ pat <:+: l.take i := by
  induction l generalizing i with
  | nil => simpa using hpat
  | cons x xs ih =>
      simp only [findSub] at h
      split at h
      · cases h
        simpa using hpat
      · rename_i hp
        obtain ⟨j, hj, rfl⟩ := Option.map_eq_some_iff.mp h
        rw [List.take_succ_cons, List.infix_cons_iff]
        rintro (hpre | hin)
        · refine hp (hpre.trans ?_)
          exact List.cons_prefix_cons.mpr ⟨rfl, List.take_prefix j xs⟩
        · exact ih hj hin

end Occurrence

section Lines

/-- The line terminator `\r\n`. -/
def crlf : Bytes := [13, 10]

/-- The blank line that ends a head, `\r\n\r\n`. -/
def crlfcrlf : Bytes := [13, 10, 13, 10]

/-- A line that holds no terminator of its own. -/
def CrlfFree (l : Bytes) : Prop := ¬ crlf <:+: l

theorem crlfFree_of_not_mem {l : Bytes} (h : (13 : UInt8) ∉ l) : CrlfFree l :=
  fun hin => h (hin.subset (by simp [crlf]))

theorem CrlfFree.of_within {l m : Bytes} (h : CrlfFree l) (hm : m <:+: l) : CrlfFree m :=
  fun hin => h (hin.trans hm)

theorem CrlfFree.tail {x : UInt8} {xs : Bytes} (h : CrlfFree (x :: xs)) : CrlfFree xs :=
  h.of_within (List.infix_cons List.infix_rfl)

theorem CrlfFree.append_of_not_mem {l m : Bytes} (hl : (13 : UInt8) ∉ l) (hm : CrlfFree m) :
    CrlfFree (l ++ m) := by
  induction l with
  | nil => simpa using hm
  | cons x xs ih =>
      simp only [List.mem_cons, not_or] at hl
      intro hin
      rw [List.cons_append, List.infix_cons_iff] at hin
      rcases hin with hpre | hin
      · exact hl.1 (List.cons_prefix_cons.mp hpre).1
      · exact ih hl.2 hin

/-- No terminator starts inside a terminator-free line, even where one follows it. -/
private theorem not_starts_crlf {x : UInt8} {xs : Bytes} (hl : CrlfFree (x :: xs))
    (rest : Bytes) : ¬ crlf <+: x :: (xs ++ (crlf ++ rest)) := by
  intro hp
  cases xs with
  | nil => simp [crlf] at hp
  | cons y ys =>
      refine hl (List.IsPrefix.isInfix ?_)
      simp only [crlf, List.cons_append, List.cons_prefix_cons] at hp ⊢
      exact ⟨hp.1, hp.2.1, by simp⟩

private theorem not_starts_crlfcrlf {x : UInt8} {xs : Bytes} (hl : CrlfFree (x :: xs))
    (rest : Bytes) : ¬ crlfcrlf <+: x :: (xs ++ (crlf ++ rest)) :=
  fun hp => not_starts_crlf hl rest ((List.prefix_append crlf crlf).trans hp)

/-- The first terminator after a terminator-free line is the one that closes it. -/
theorem findSub_crlf_line {l : Bytes} (hl : CrlfFree l) (rest : Bytes) :
    findSub crlf (l ++ (crlf ++ rest)) = some l.length := by
  induction l with
  | nil => simp [crlf, findSub]
  | cons x xs ih =>
      rw [List.cons_append, findSub, if_neg (not_starts_crlf hl rest), ih hl.tail]
      simp

theorem findSub_crlf_eq_none {l : Bytes} (hl : CrlfFree l) : findSub crlf l = none :=
  (findSub_eq_none_iff crlf l).mpr hl

/-- The search for a blank line steps over one terminator-free line. -/
theorem findSub_crlfcrlf_line {l : Bytes} (hl : CrlfFree l) {rest : Bytes}
    (hrest : ¬ crlf <+: rest) :
    findSub crlfcrlf (l ++ (crlf ++ rest)) =
      (findSub crlfcrlf rest).map (· + (l.length + 2)) := by
  induction l with
  | nil =>
      have h1 : ¬ crlfcrlf <+: 13 :: 10 :: rest := by simpa [crlfcrlf, crlf] using hrest
      have h2 : ¬ crlfcrlf <+: 10 :: rest := by simp [crlfcrlf]
      simp only [crlf, List.cons_append, List.nil_append, findSub, if_neg h1, if_neg h2,
        Option.map_map]
      simp [Function.comp_def]
  | cons x xs ih =>
      rw [List.cons_append, findSub, if_neg (not_starts_crlfcrlf hl rest), ih hl.tail,
        Option.map_map]
      simp [Function.comp_def, Nat.add_assoc]

/-- A terminator-free line followed by a blank line ends the search. -/
theorem findSub_crlfcrlf_last {l : Bytes} (hl : CrlfFree l) (rest : Bytes) :
    findSub crlfcrlf (l ++ (crlfcrlf ++ rest)) = some l.length := by
  induction l with
  | nil => simp [crlfcrlf, findSub]
  | cons x xs ih =>
      have hpre := not_starts_crlfcrlf hl (crlf ++ rest)
      have hsplit : crlf ++ (crlf ++ rest) = crlfcrlf ++ rest := rfl
      rw [hsplit] at hpre
      rw [List.cons_append, findSub, if_neg hpre, ih hl.tail]
      simp

end Lines

section Splitting

variable {α : Type} [DecidableEq α]

def splitOnce (sep : α) : List α → Option (List α × List α)
  | [] => none
  | x :: xs => if x = sep then some ([], xs) else (splitOnce sep xs).map fun p => (x :: p.1, p.2)

theorem splitOnce_append {sep : α} {l : List α} (hl : sep ∉ l) (r : List α) :
    splitOnce sep (l ++ sep :: r) = some (l, r) := by
  induction l with
  | nil => simp [splitOnce]
  | cons x xs ih =>
      simp only [List.mem_cons, not_or] at hl
      simp [splitOnce, Ne.symm hl.1, ih hl.2]

theorem splitOnce_spec {sep : α} {l a b : List α} (h : splitOnce sep l = some (a, b)) :
    l = a ++ sep :: b ∧ sep ∉ a := by
  induction l generalizing a b with
  | nil => simp [splitOnce] at h
  | cons x xs ih =>
      simp only [splitOnce] at h
      split at h
      · rename_i hx
        cases h
        simp [hx]
      · rename_i hx
        obtain ⟨⟨a', b'⟩, hab, hp⟩ := Option.map_eq_some_iff.mp h
        cases hp
        obtain ⟨rfl, hsep⟩ := ih hab
        exact ⟨rfl, by simp [Ne.symm hx, hsep]⟩

/-- At most `n` pieces; the last one keeps its separators. -/
def splitn (sep : α) : Nat → List α → List (List α)
  | 0, _ => []
  | 1, l => [l]
  | n + 2, l =>
      match splitOnce sep l with
      | none => [l]
      | some (a, b) => a :: splitn sep (n + 1) b

end Splitting

/-- The pieces of a text with a separator between each two. -/
def joinBytes (sep : Bytes) : List Bytes → Bytes
  | [] => []
  | [a] => a
  | a :: b :: rest => a ++ (sep ++ joinBytes sep (b :: rest))

section Ascii

def toAsciiLowercase (b : UInt8) : UInt8 := if 65 ≤ b ∧ b ≤ 90 then b + 32 else b

def eqIgnoreAsciiCase (a b : Bytes) : Bool := a.map toAsciiLowercase == b.map toAsciiLowercase

@[simp] theorem eqIgnoreAsciiCase_refl (a : Bytes) : eqIgnoreAsciiCase a a = true := by
  simp [eqIgnoreAsciiCase]

/-- Two spellings of one name are told apart from a third alike. -/
theorem eqIgnoreAsciiCase_congr {a b : Bytes} (h : eqIgnoreAsciiCase a b = true) (c : Bytes) :
    eqIgnoreAsciiCase a c = eqIgnoreAsciiCase b c := by
  have hab : a.map toAsciiLowercase = b.map toAsciiLowercase := by
    simpa [eqIgnoreAsciiCase] using h
  simp [eqIgnoreAsciiCase, hab]

theorem eqIgnoreAsciiCase_comm (a b : Bytes) :
    eqIgnoreAsciiCase a b = eqIgnoreAsciiCase b a := by
  simp only [eqIgnoreAsciiCase]
  exact Bool.beq_comm

def isAsciiDigit (b : UInt8) : Bool := 48 ≤ b && b ≤ 57

def isAsciiAlphanumeric (b : UInt8) : Bool :=
  isAsciiDigit b || (65 ≤ b && b ≤ 90) || (97 ≤ b && b ≤ 122)

/-- The byte of one digit, letters for the digits from ten on. -/
def digitByte (d : Nat) : UInt8 := if d < 10 then UInt8.ofNat (48 + d) else UInt8.ofNat (87 + d)

/-- A number in positional notation, most significant digit first. -/
def numeral (base n : Nat) : Bytes :=
  if base ≤ 1 ∨ n < base then [digitByte n]
  else numeral base (n / base) ++ [digitByte (n % base)]
termination_by n
decreasing_by exact Nat.div_lt_self (by omega) (by omega)

def decimal (n : Nat) : Bytes := numeral 10 n

def hexadecimal (n : Nat) : Bytes := numeral 16 n

theorem isAsciiAlphanumeric_digitByte {d : Nat} (h : d < 16) :
    isAsciiAlphanumeric (digitByte d) = true := by
  have hall : ∀ d < 16, isAsciiAlphanumeric (digitByte d) = true := by decide
  exact hall d h

theorem isAsciiAlphanumeric_of_mem_numeral {base n : Nat} (h1 : 2 ≤ base) (h2 : base ≤ 16)
    {b : UInt8} (hb : b ∈ numeral base n) : isAsciiAlphanumeric b = true := by
  induction n using Nat.strong_induction_on with
  | _ n ih =>
      rw [numeral] at hb
      split at hb
      · rename_i hn
        rw [List.mem_singleton] at hb
        subst hb
        exact isAsciiAlphanumeric_digitByte (by omega)
      · rename_i hn
        rcases List.mem_append.mp hb with hb | hb
        · exact ih (n / base) (Nat.div_lt_self (by omega) (by omega)) hb
        · rw [List.mem_singleton] at hb
          subst hb
          have hmod := Nat.mod_lt n (show base > 0 by omega)
          exact isAsciiAlphanumeric_digitByte (by omega)

end Ascii

section Whitespace

def isOws (b : UInt8) : Bool := b == 32 || b == 9

def trimOws (value : Bytes) : Bytes := (value.dropWhile isOws).rdropWhile isOws

theorem trimOws_within (value : Bytes) : trimOws value <:+: value :=
  (List.rdropWhile_prefix isOws _).isInfix.trans (List.dropWhile_suffix isOws).isInfix

@[simp] theorem trimOws_space (value : Bytes) : trimOws (32 :: value) = trimOws value := by
  simp [trimOws, isOws]

private theorem dropWhile_rdropWhile_dropWhile (p : UInt8 → Bool) (l : Bytes) :
    ((l.dropWhile p).rdropWhile p).dropWhile p = (l.dropWhile p).rdropWhile p := by
  rw [List.dropWhile_eq_self_iff]
  intro hpos hp
  have hpre := List.rdropWhile_prefix p (l.dropWhile p)
  have hne : l.dropWhile p ≠ [] := by
    intro hnil
    simp [hnil] at hpos
  have hhead := List.dropWhile_get_zero_not p l (List.length_pos_iff.mpr hne)
  refine hhead ?_
  rw [List.get_eq_getElem]
  rw [← hpre.getElem hpos]
  exact hp

@[simp] theorem trimOws_idem (value : Bytes) : trimOws (trimOws value) = trimOws value := by
  simp only [trimOws]
  rw [dropWhile_rdropWhile_dropWhile]
  exact List.rdropWhile_idempotent isOws _

end Whitespace

end Ramjet.Base.Octets
