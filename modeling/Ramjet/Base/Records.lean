/- digest: A stream of records of one width: the whole ones at its front, and what is left over. -/

import Mathlib.Data.List.Basic
import Mathlib.Tactic.Common

set_option autoImplicit false
set_option relaxedAutoImplicit false

namespace Ramjet.Base.Records

variable {α β : Type}

/-- The first `n` pieces of `width` elements. -/
def pieces (width : Nat) : Nat → List α → List (List α)
  | 0, _ => []
  | n + 1, xs => xs.take width :: pieces width n (xs.drop width)

/-- The whole records at the front of a stream. -/
def records (width : Nat) (xs : List α) : List (List α) := pieces width (xs.length / width) xs

/-- What is left behind the last whole record. -/
def remainder (width : Nat) (xs : List α) : List α := xs.drop (xs.length / width * width)

section Cutting

variable {width : Nat}

theorem records_of_short {xs : List α} (h : xs.length < width) :
    records width xs = [] ∧ remainder width xs = xs := by
  have hnone : xs.length / width = 0 := Nat.div_eq_of_lt h
  simp [records, remainder, hnone, pieces]

theorem records_append_left (hwidth : 0 < width) {x : List α} (hx : x.length = width)
    (xs : List α) :
    records width (x ++ xs) = x :: records width xs ∧
      remainder width (x ++ xs) = remainder width xs := by
  have hcount : (x ++ xs).length / width = xs.length / width + 1 := by
    rw [List.length_append, hx, Nat.add_comm, Nat.add_div_right _ hwidth]
  constructor
  · rw [records, hcount, pieces, List.take_left' hx, List.drop_left' hx, records]
  · rw [remainder, hcount, Nat.add_mul, Nat.one_mul, Nat.add_comm, ← List.drop_drop,
      List.drop_left' hx, remainder]

/-- A stream is cut by taking one record off its front until it is too short for another. -/
theorem cutting_induction (hwidth : 0 < width) {motive : List α → Prop}
    (short : ∀ xs, xs.length < width → motive xs)
    (record : ∀ x xs, x.length = width → motive xs → motive (x ++ xs)) (xs : List α) :
    motive xs := by
  induction hlen : xs.length using Nat.strongRecOn generalizing xs with
  | _ n ih =>
      by_cases hshort : xs.length < width
      · exact short xs hshort
      · rw [← List.take_append_drop width xs]
        apply record
        · rw [List.length_take]
          omega
        · apply ih (xs.drop width).length _ _ rfl
          rw [List.length_drop]
          omega

theorem remainder_length_lt (hwidth : 0 < width) (xs : List α) :
    (remainder width xs).length < width := by
  induction xs using cutting_induction hwidth with
  | short xs hxs => rwa [(records_of_short hxs).2]
  | record x xs hx ih => rwa [(records_append_left hwidth hx xs).2]

/-- A stream cut in two is cut where the first part left off. -/
theorem records_append (hwidth : 0 < width) (xs ys : List α) :
    records width (xs ++ ys) = records width xs ++ records width (remainder width xs ++ ys) ∧
      remainder width (xs ++ ys) = remainder width (remainder width xs ++ ys) := by
  induction xs using cutting_induction hwidth with
  | short xs hxs =>
      obtain ⟨hnone, hall⟩ := records_of_short hxs
      rw [hnone, hall, List.nil_append]
      exact ⟨rfl, rfl⟩
  | record x xs hx ih =>
      obtain ⟨hfirst, hleft⟩ := records_append_left hwidth hx xs
      obtain ⟨hwhole, hrest⟩ := records_append_left hwidth hx (xs ++ ys)
      rw [List.append_assoc, hwhole, hrest, hfirst, hleft, ih.1, ih.2, List.cons_append]
      exact ⟨rfl, rfl⟩

/-- Records written one behind the other are the records read. -/
theorem records_flatten (hwidth : 0 < width) {pieces : List (List α)}
    (h : ∀ x ∈ pieces, x.length = width) :
    records width pieces.flatten = pieces ∧ remainder width pieces.flatten = [] := by
  induction pieces with
  | nil => exact records_of_short hwidth
  | cons x pieces ih =>
      have hx := h x (List.mem_cons_self ..)
      obtain ⟨hwhole, hrest⟩ := records_append_left hwidth hx pieces.flatten
      obtain ⟨ihwhole, ihrest⟩ := ih fun y hy => h y (List.mem_cons_of_mem x hy)
      rw [List.flatten_cons, hwhole, hrest, ihwhole, ihrest]
      exact ⟨rfl, rfl⟩

theorem records_count (hwidth : 0 < width) (xs : List α) :
    (records width xs).length = xs.length / width := by
  induction xs using cutting_induction hwidth with
  | short xs hxs => simp [(records_of_short hxs).1, Nat.div_eq_of_lt hxs]
  | record x xs hx ih =>
      rw [(records_append_left hwidth hx xs).1, List.length_cons, ih, List.length_append, hx,
        Nat.add_comm width, Nat.add_div_right _ hwidth]

/-- The records of a stream's beginning are the first of its records. -/
theorem records_beginning (hwidth : 0 < width) (xs ys : List α) :
    records width xs = (records width (xs ++ ys)).take (xs.length / width) := by
  rw [(records_append hwidth xs ys).1, ← records_count hwidth xs, List.take_left]

end Cutting

section Reading

variable (width : Nat) (decode : List α → Option β)

/-- One read behind what the reads before it left over. -/
def readOne (carried bytes : List α) : List β × List α :=
  ((records width (carried ++ bytes)).filterMap decode, remainder width (carried ++ bytes))

/-- The reads of one reader, one behind the other. -/
def readAll (carried : List α) : List (List α) → List β × List α
  | [] => ([], carried)
  | bytes :: reads =>
      let (now, left) := readOne width decode carried bytes
      let (later, left) := readAll left reads
      (now ++ later, left)

/-- What a reader hands out over all its reads does not depend on where they were cut. -/
theorem readAll_eq_readOne (hwidth : 0 < width) {carried : List α}
    (hshort : carried.length < width) (reads : List (List α)) :
    readAll width decode carried reads = readOne width decode carried reads.flatten := by
  induction reads generalizing carried with
  | nil =>
      obtain ⟨hnone, hall⟩ := records_of_short hshort
      simp [readAll, readOne, hnone, hall]
  | cons bytes reads ih =>
      have hleft := remainder_length_lt hwidth (carried ++ bytes)
      obtain ⟨hwhole, hrest⟩ := records_append hwidth (carried ++ bytes) reads.flatten
      simp only [readAll, readOne, ih hleft, List.flatten_cons]
      rw [← List.append_assoc, hwhole, hrest, List.filterMap_append]

end Reading

end Ramjet.Base.Records
