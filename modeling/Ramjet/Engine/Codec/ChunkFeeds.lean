/- digest: The bulk path of the chunk scanner, its panics, and feeds of any cut. -/

import Mathlib.Algebra.Ring.Nat
import Mathlib.Data.List.Basic
import Ramjet.Engine.Codec.Chunked

set_option autoImplicit false
set_option relaxedAutoImplicit false

namespace Ramjet.Engine.Codec.ChunkFeeds

open Ramjet.Base.Octets
open Ramjet.Engine.Codec.MessageHead
open Ramjet.Engine.Codec.Chunked

/-- What ends a scan inside its input: an error it answers with, or a panic. -/
inductive Halt where
  | answered (e : CodecError)
  | overflow
  | unreachable
  deriving DecidableEq

/-- The panic one step would raise: 64 bits that do not hold the next size, or the arm of `step`
that `scan` is to consume in bulk. -/
def raised (s : ChunkScan) (b : UInt8) : Option Halt :=
  match s.state with
  | .data _ => some .unreachable
  | .size value digits =>
      match hexValue b with
      | some d =>
          if s.line + 1 ≤ MAX_CHUNK_LINE ∧ digits < 16 ∧ 2 ^ 64 ≤ value * 16 + d then some .overflow
          else none
      | none => none
  | _ => none

def stepChecked (s : ChunkScan) (b : UInt8) : Except Halt ChunkScan :=
  match raised s b with
  | some halt => .error halt
  | none => (s.step b).mapError .answered

/-- The scanner behind `take` of the `left` bytes of a chunk. -/
def afterData (s : ChunkScan) (left take : Nat) : ChunkScan :=
  { s with state := if left - take = 0 then .dataCr else .data (left - take) }

def inData (s : ChunkScan) : Nat :=
  match s.state with
  | .data _ => 1
  | _ => 0

private theorem inData_le (s : ChunkScan) : inData s ≤ 1 := by
  unfold inData
  split
  · exact le_refl 1
  · exact Nat.zero_le 1

/-- `ChunkScan::scan`, which takes chunk data in bulk and everything else byte by byte. -/
def scanBulk (s : ChunkScan) (input : Bytes) : Except Halt (Nat × ChunkScan) :=
  if hnil : input = [] then .ok (0, s)
  else
    match _hstate : s.state with
    | .done => .ok (0, s)
    | .data left =>
        (scanBulk (afterData s left (min left input.length))
          (input.drop (min left input.length))).map fun r => (min left input.length + r.1, r.2)
    | _ =>
        match stepChecked s (input.head hnil) with
        | .error halt => .error halt
        | .ok next => (scanBulk next input.tail).map fun r => (r.1 + 1, r.2)
termination_by 2 * input.length + inData s
decreasing_by
  · have hpos : 0 < input.length := List.length_pos_iff.mpr hnil
    have hone : inData s = 1 := by simp only [inData, _hstate]
    rw [List.length_drop]
    by_cases hleft : left = 0
    · have hzero : inData (afterData s left (min left input.length)) = 0 := by
        subst hleft
        simp [afterData, inData]
      omega
    · have hle := inData_le (afterData s left (min left input.length))
      omega
  all_goals
    have hpos : 0 < input.length := List.length_pos_iff.mpr hnil
    have hle := inData_le next
    rw [List.length_tail]
    omega

/-- Feeds until one of them ends the body or is refused, with all they consumed. -/
def feedAll (s : ChunkScan) (consumed : Nat) : List Bytes → Except Halt (Nat × Bool)
  | [] => .ok (consumed, s.isDone)
  | piece :: pieces =>
      match scanBulk s piece with
      | .error halt => .error halt
      | .ok (n, last) =>
          if last.isDone then .ok (consumed + n, true)
          else feedAll last (consumed + n) pieces

/-- What every size read so far keeps: sixteen digits at most, and no more than they can name. -/
structure Sane (s : ChunkScan) : Prop where
  size : ∀ value digits, s.state = .size value digits → digits ≤ 16 ∧ value < 16 ^ digits
  data : ∀ left, s.state = .data left → 0 < left

theorem Sane.fresh : Sane {} where
  size := by
    intro value digits h
    cases h
    decide
  data := by
    intro left h
    cases h

/-- A state that carries no size keeps everything. -/
private theorem Sane.plain {s : ChunkScan} (hsize : ∀ value digits, s.state ≠ .size value digits)
    (hdata : ∀ left, s.state ≠ .data left) : Sane s where
  size := fun value digits h => (hsize value digits h).elim
  data := fun left h => (hdata left h).elim

private theorem toNat_sub_le {b lo hi : UInt8} (h : lo ≤ b ∧ b ≤ hi) :
    (b - lo).toNat ≤ hi.toNat - lo.toNat := by
  have hlo := UInt8.le_iff_toNat_le.mp h.1
  have hhi := UInt8.le_iff_toNat_le.mp h.2
  rw [UInt8.toNat_sub_of_le _ _ h.1]
  omega

theorem hexValue_lt {b : UInt8} {d : Nat} (h : hexValue b = some d) : d < 16 := by
  unfold hexValue at h
  split at h
  · rename_i hdigit
    have hle := toNat_sub_le hdigit
    cases h
    simp at hle ⊢
    omega
  · split at h
    · rename_i hlower
      have hle := toNat_sub_le hlower
      cases h
      simp at hle ⊢
      omega
    · split at h
      · rename_i hupper
        have hle := toNat_sub_le hupper
        cases h
        simp at hle ⊢
        omega
      · cases h

theorem hexValue_cr : hexValue CR = none := by decide

theorem hexValue_semicolon : hexValue 59 = none := by decide

/-- One size-line byte that does not overrun the line. -/
theorem stepSizeLine_ok {s next : ChunkScan} {r : Except CodecError State}
    (h : stepSizeLine s r = .ok next) :
    s.line + 1 ≤ MAX_CHUNK_LINE ∧
      ∃ state, r = .ok state ∧ next = { s with state := state, line := s.line + 1 } := by
  unfold stepSizeLine at h
  split at h
  · cases h
  · rename_i hline
    cases hr : r with
    | error e => simp [hr, Except.map] at h
    | ok state =>
        simp only [hr, Except.map, Except.ok.injEq] at h
        exact ⟨by omega, state, rfl, h.symm⟩

theorem stepTrailer_ok {s next : ChunkScan} {b : UInt8} {closing : State}
    (h : stepTrailer s b closing = .ok next) :
    s.trailer + 1 ≤ MAX_TRAILER ∧ b ≠ LF ∧
      next = { s with state := if b = CR then closing else .trailerLine,
                      trailer := s.trailer + 1 } := by
  unfold stepTrailer at h
  split at h
  · cases h
  · split at h
    · cases h
    · rename_i htrailer hlf
      cases h
      exact ⟨by omega, hlf, rfl⟩

/-- A byte of a chunk size: the CR or the semicolon behind it, or one more digit. -/
theorem step_size {s next : ChunkScan} {b : UInt8} {value digits : Nat}
    (hstate : s.state = .size value digits) (h : s.step b = .ok next) :
    s.line + 1 ≤ MAX_CHUNK_LINE ∧
      ((b = CR ∧ 0 < digits ∧
          next = { s with state := .sizeLf value, line := s.line + 1 }) ∨
        (b = 59 ∧ 0 < digits ∧ next = { s with state := .ext value, line := s.line + 1 }) ∨
        ∃ d, hexValue b = some d ∧ digits < 16 ∧
          next = { s with state := .size (value * 16 + d) (digits + 1), line := s.line + 1 }) := by
  simp only [ChunkScan.step, hstate] at h
  obtain ⟨hline, state, hr, rfl⟩ := stepSizeLine_ok h
  refine ⟨hline, ?_⟩
  split at hr
  · rename_i hcr
    cases hr
    exact .inl ⟨hcr.1, hcr.2, rfl⟩
  · split at hr
    · rename_i hsemicolon
      cases hr
      exact .inr (.inl ⟨hsemicolon.1, hsemicolon.2, rfl⟩)
    · split at hr
      · cases hr
      · rename_i d hd
        split at hr
        · cases hr
        · rename_i hdigits
          cases hr
          exact .inr (.inr ⟨d, hd, by omega, rfl⟩)

theorem step_ext {s next : ChunkScan} {b : UInt8} {size : Nat} (hstate : s.state = .ext size)
    (h : s.step b = .ok next) :
    s.line + 1 ≤ MAX_CHUNK_LINE ∧
      ((b = CR ∧ next = { s with state := .sizeLf size, line := s.line + 1 }) ∨
        (b ≠ CR ∧ b ≠ LF ∧ next = { s with state := .ext size, line := s.line + 1 })) := by
  simp only [ChunkScan.step, hstate] at h
  obtain ⟨hline, state, hr, rfl⟩ := stepSizeLine_ok h
  refine ⟨hline, ?_⟩
  split at hr
  · rename_i hcr
    cases hr
    exact .inl ⟨hcr, rfl⟩
  · rename_i hcr
    split at hr
    · cases hr
    · rename_i hlf
      cases hr
      exact .inr ⟨hcr, hlf, rfl⟩

theorem step_sizeLf {s next : ChunkScan} {b : UInt8} {size : Nat}
    (hstate : s.state = .sizeLf size) (h : s.step b = .ok next) :
    b = LF ∧
      next = { s with state := if size = 0 then .trailerStart else .data size, line := 0 } := by
  simp only [ChunkScan.step, hstate] at h
  split at h
  · rename_i hlf
    cases h
    exact ⟨hlf, rfl⟩
  · cases h

theorem Sane.step {s next : ChunkScan} {b : UInt8} (hs : Sane s) (h : s.step b = .ok next) :
    Sane next := by
  cases hstate : s.state with
  | size value digits =>
      obtain ⟨-, ⟨-, -, rfl⟩ | ⟨-, -, rfl⟩ | ⟨d, hd, hdigits, rfl⟩⟩ := step_size hstate h
      · exact .plain (by simp) (by simp)
      · exact .plain (by simp) (by simp)
      · refine ⟨?_, by simp⟩
        intro value' digits' heq
        simp only [State.size.injEq] at heq
        obtain ⟨rfl, rfl⟩ := heq
        have hd16 := hexValue_lt hd
        have hvalue := (hs.size value digits hstate).2
        refine ⟨hdigits, ?_⟩
        rw [Nat.pow_succ]
        omega
  | ext size =>
      obtain ⟨-, ⟨-, rfl⟩ | ⟨-, -, rfl⟩⟩ := step_ext hstate h
      · exact .plain (by simp) (by simp)
      · exact .plain (by simp) (by simp)
  | sizeLf size =>
      obtain ⟨-, rfl⟩ := step_sizeLf hstate h
      by_cases hsize : size = 0
      · exact .plain (by simp [hsize]) (by simp [hsize])
      · refine ⟨by simp [hsize], ?_⟩
        intro left heq
        simp only [if_neg hsize, State.data.injEq] at heq
        omega
  | data left =>
      simp only [ChunkScan.step, hstate, Except.ok.injEq] at h
      subst h
      by_cases hleft : left ≤ 1
      · exact .plain (by simp [hleft]) (by simp [hleft])
      · refine ⟨by simp [hleft], ?_⟩
        intro left' heq
        simp only [if_neg hleft, State.data.injEq] at heq
        omega
  | dataCr =>
      simp only [ChunkScan.step, hstate] at h
      split at h
      · cases h
        exact .plain (by simp) (by simp)
      · cases h
  | dataLf =>
      simp only [ChunkScan.step, hstate] at h
      split at h
      · cases h
        exact ⟨Sane.fresh.size, by simp⟩
      · cases h
  | trailerStart =>
      simp only [ChunkScan.step, hstate] at h
      obtain ⟨-, -, rfl⟩ := stepTrailer_ok h
      by_cases hcr : b = CR
      · exact .plain (by simp [hcr]) (by simp [hcr])
      · exact .plain (by simp [hcr]) (by simp [hcr])
  | trailerLine =>
      simp only [ChunkScan.step, hstate] at h
      obtain ⟨-, -, rfl⟩ := stepTrailer_ok h
      by_cases hcr : b = CR
      · exact .plain (by simp [hcr]) (by simp [hcr])
      · exact .plain (by simp [hcr]) (by simp [hcr])
  | trailerCr =>
      simp only [ChunkScan.step, hstate] at h
      split at h
      · cases h
        exact .plain (by simp) (by simp)
      · cases h
  | finalLf =>
      simp only [ChunkScan.step, hstate] at h
      split at h
      · cases h
        exact .plain (by simp) (by simp)
      · cases h
  | done =>
      simp only [ChunkScan.step, hstate, Except.ok.injEq] at h
      exact h ▸ hs

/-- No step of a sane scanner panics, chunk data aside. -/
theorem Sane.raised_none {s : ChunkScan} (hs : Sane s) (hdata : inData s = 0) (b : UInt8) :
    raised s b = none := by
  cases hstate : s.state with
  | data left => simp [inData, hstate] at hdata
  | size value digits =>
      simp only [raised, hstate]
      cases hd : hexValue b with
      | none => rfl
      | some d =>
          dsimp only
          rw [if_neg]
          rintro ⟨-, hdigits, hover⟩
          have hd16 := hexValue_lt hd
          have hvalue := (hs.size value digits hstate).2
          have hpow : 16 ^ digits ≤ 16 ^ 15 := Nat.pow_le_pow_right (by decide) (by omega)
          have hmul : (value + 1) * 16 ≤ 16 ^ 15 * 16 := Nat.mul_le_mul_right 16 (by omega)
          have hlim : (16 : Nat) ^ 15 * 16 = 2 ^ 64 := by decide
          omega
  | ext size => simp only [raised, hstate]
  | sizeLf size => simp only [raised, hstate]
  | dataCr => simp only [raised, hstate]
  | dataLf => simp only [raised, hstate]
  | trailerStart => simp only [raised, hstate]
  | trailerLine => simp only [raised, hstate]
  | trailerCr => simp only [raised, hstate]
  | finalLf => simp only [raised, hstate]
  | done => simp only [raised, hstate]

section Bulk

theorem scanBulk_nil (s : ChunkScan) : scanBulk s [] = .ok (0, s) := by
  rw [scanBulk, dif_pos rfl]

theorem scanBulk_data {s : ChunkScan} {left : Nat} (hstate : s.state = .data left) {input : Bytes}
    (hnil : input ≠ []) :
    scanBulk s input =
      (scanBulk (afterData s left (min left input.length))
        (input.drop (min left input.length))).map fun r => (min left input.length + r.1, r.2) := by
  rw [scanBulk, dif_neg hnil]
  split
  all_goals simp_all

theorem scanBulk_done {s : ChunkScan} (hdone : s.isDone = true) (input : Bytes) :
    scanBulk s input = .ok (0, s) := by
  have hstate : s.state = .done := by simpa [ChunkScan.isDone] using hdone
  by_cases hnil : input = []
  · rw [hnil, scanBulk_nil]
  · rw [scanBulk, dif_neg hnil]
    split
    all_goals simp_all

theorem scanBulk_step {s : ChunkScan} (hdone : s.isDone = false) (hdata : inData s = 0) (b : UInt8)
    (rest : Bytes) :
    scanBulk s (b :: rest) =
      match stepChecked s b with
      | .error halt => .error halt
      | .ok next => (scanBulk next rest).map fun r => (r.1 + 1, r.2) := by
  rw [scanBulk, dif_neg (List.cons_ne_nil b rest)]
  split
  · simp_all [ChunkScan.isDone]
  · simp_all [inData]
  all_goals rfl

/-- Chunk data taken at once is chunk data taken byte by byte. -/
theorem scan_data {s : ChunkScan} {left : Nat} (hstate : s.state = .data left) (hpos : 0 < left)
    (input : Bytes) :
    s.scan input =
      ((afterData s left (min left input.length)).scan (input.drop (min left input.length))).map
        fun r => (min left input.length + r.1, r.2) := by
  induction input generalizing s left with
  | nil =>
      have hsame : afterData s left 0 = s := by
        rw [afterData, Nat.sub_zero, if_neg (by omega), ← hstate]
      rw [List.length_nil, Nat.min_zero, hsame]
      rfl
  | cons b rest ih =>
      have hopen : s.isDone = false := by simp [ChunkScan.isDone, hstate]
      have hstep : s.step b = .ok (afterData s left 1) := by
        simp only [ChunkScan.step, hstate, afterData]
        congr 3
        exact propext ⟨fun h => by omega, fun h => by omega⟩
      rw [scan_cons hopen hstep]
      by_cases hone : left = 1
      · subst hone
        have hmin : min 1 (b :: rest).length = 1 := by
          simp only [List.length_cons]
          omega
        rw [hmin]
        simp only [List.drop_succ_cons, List.drop_zero]
        congr 1
        funext r
        rw [Nat.add_comm]
      · have hnext : (afterData s left 1).state = .data (left - 1) := by
          rw [afterData]
          exact if_neg (by omega)
        have hmin : min left (b :: rest).length = min (left - 1) rest.length + 1 := by
          simp only [List.length_cons]
          omega
        have hafter : afterData (afterData s left 1) (left - 1) (min (left - 1) rest.length) =
            afterData s left (min (left - 1) rest.length + 1) := by
          simp only [afterData]
          have hsub : left - 1 - min (left - 1) rest.length =
              left - (min (left - 1) rest.length + 1) := by omega
          rw [hsub]
        rw [ih hnext (by omega), hmin, List.drop_succ_cons, hafter]
        cases (afterData s left (min (left - 1) rest.length + 1)).scan
            (rest.drop (min (left - 1) rest.length)) with
        | error e => rfl
        | ok r =>
            simp only [Except.map]
            congr 2
            omega

theorem Sane.afterData {s : ChunkScan} {left take : Nat} (htake : take ≤ left) :
    Sane (afterData s left take) := by
  by_cases hleft : left - take = 0
  · exact .plain (by simp [ChunkFeeds.afterData, hleft]) (by simp [ChunkFeeds.afterData, hleft])
  · refine ⟨by simp [ChunkFeeds.afterData, hleft], ?_⟩
    intro left' heq
    simp only [ChunkFeeds.afterData, if_neg hleft, State.data.injEq] at heq
    omega

private theorem map_mapError {α β : Type} (r : Except CodecError α) (f : α → β) :
    (r.mapError Halt.answered).map f = (r.map f).mapError Halt.answered := by
  cases r with
  | error e => rfl
  | ok a => rfl

/-- The scanner of the source, bulk path and panics included, is the scanner byte by byte. -/
theorem scanBulk_eq {s : ChunkScan} (hs : Sane s) (input : Bytes) :
    scanBulk s input = (s.scan input).mapError .answered := by
  induction hk : 2 * input.length + inData s using Nat.strong_induction_on
    generalizing s input with
  | _ k ih =>
  cases input with
  | nil => exact scanBulk_nil s
  | cons b rest =>
      cases hdone : s.isDone with
      | true =>
          rw [scanBulk_done hdone, scan_done hdone]
          rfl
      | false =>
          by_cases hdata : inData s = 0
          · rw [scanBulk_step hdone hdata, stepChecked, hs.raised_none hdata]
            dsimp only
            cases hstep : s.step b with
            | error e => simp [ChunkScan.scan, hdone, hstep, bind, Except.bind, Except.mapError]
            | ok next =>
                rw [scan_cons hdone hstep, ← map_mapError]
                have hle := inData_le next
                rw [← ih _ (by simp only [List.length_cons] at hk; omega) (hs.step hstep) rest rfl]
                rfl
          · obtain ⟨left, hstate⟩ : ∃ left, s.state = .data left := by
              unfold inData at hdata
              split at hdata
              · rename_i left hstate
                exact ⟨left, hstate⟩
              · exact (hdata rfl).elim
            have hpos := hs.data left hstate
            have htake : 0 < min left (b :: rest).length := by
              simp only [List.length_cons]
              omega
            rw [scanBulk_data hstate (List.cons_ne_nil b rest), scan_data hstate hpos,
              ← map_mapError]
            have hle := inData_le (ChunkFeeds.afterData s left (min left (b :: rest).length))
            rw [← ih _ _ (Sane.afterData (Nat.min_le_left _ _)) _ rfl]
            rw [List.length_drop]
            omega

end Bulk

section Feeds

theorem scan_cons_ok {s last : ChunkScan} {b : UInt8} {rest : Bytes} {n : Nat}
    (hopen : s.isDone = false) (h : s.scan (b :: rest) = .ok (n, last)) :
    ∃ next m, s.step b = .ok next ∧ next.scan rest = .ok (m, last) ∧ n = m + 1 := by
  cases hstep : s.step b with
  | error e => simp [ChunkScan.scan, hopen, hstep, bind, Except.bind] at h
  | ok next =>
      rw [scan_cons hopen hstep] at h
      cases hrest : next.scan rest with
      | error e => simp [hrest, Except.map] at h
      | ok r =>
          simp only [hrest, Except.map, Except.ok.injEq, Prod.mk.injEq] at h
          obtain ⟨hn, rfl⟩ := h
          exact ⟨next, r.1, rfl, hrest, hn.symm⟩

theorem Sane.scan {s last : ChunkScan} (hs : Sane s) {input : Bytes} {n : Nat}
    (h : s.scan input = .ok (n, last)) : Sane last := by
  induction input generalizing s n with
  | nil =>
      cases h
      exact hs
  | cons b rest ih =>
      cases hdone : s.isDone with
      | true =>
          rw [scan_done hdone] at h
          cases h
          exact hs
      | false =>
          obtain ⟨next, m, hstep, hrest, -⟩ := scan_cons_ok hdone h
          exact ih (hs.step hstep) hrest

theorem scan_append_error {s : ChunkScan} {front : Bytes} {e : CodecError}
    (h : s.scan front = .error e) (back : Bytes) : s.scan (front ++ back) = .error e := by
  induction front generalizing s with
  | nil => cases h
  | cons b rest ih =>
      cases hdone : s.isDone with
      | true =>
          rw [scan_done hdone] at h
          cases h
      | false =>
          cases hstep : s.step b with
          | error e' =>
              simp only [ChunkScan.scan, hdone, Bool.false_eq_true, if_false, hstep, bind,
                Except.bind, Except.error.injEq] at h
              simp [List.cons_append, ChunkScan.scan, hdone, hstep, bind, Except.bind, h]
          | ok next =>
              rw [scan_cons hdone hstep] at h
              cases hrest : next.scan rest with
              | ok r => simp [hrest, Except.map] at h
              | error e' =>
                  simp only [hrest, Except.map, Except.error.injEq] at h
                  subst h
                  rw [List.cons_append, scan_cons hdone hstep, ih hrest]
                  rfl

theorem scan_append_done {s last : ChunkScan} {front : Bytes} {n : Nat}
    (h : s.scan front = .ok (n, last)) (hlast : last.isDone = true) (back : Bytes) :
    s.scan (front ++ back) = .ok (n, last) := by
  induction front generalizing s n with
  | nil =>
      cases h
      exact scan_done hlast back
  | cons b rest ih =>
      cases hdone : s.isDone with
      | true =>
          rw [scan_done hdone] at h ⊢
          exact h
      | false =>
          obtain ⟨next, m, hstep, hrest, rfl⟩ := scan_cons_ok hdone h
          rw [List.cons_append, scan_cons hdone hstep, ih hrest]
          rfl

/-- Feeds cut anywhere answer what one feed of the whole answers. -/
theorem feedAll_eq {s : ChunkScan} (hs : Sane s) (hopen : s.isDone = false) (consumed : Nat)
    (pieces : List Bytes) :
    feedAll s consumed pieces =
      (scanBulk s pieces.flatten).map fun r => (consumed + r.1, r.2.isDone) := by
  induction pieces generalizing s consumed with
  | nil =>
      rw [List.flatten_nil, scanBulk_nil]
      rfl
  | cons piece pieces ih =>
      rw [List.flatten_cons, feedAll, scanBulk_eq hs, scanBulk_eq hs]
      cases hscan : s.scan piece with
      | error e =>
          rw [scan_append_error hscan]
          rfl
      | ok r =>
          obtain ⟨n, last⟩ := r
          simp only [Except.mapError]
          cases hlast : last.isDone with
          | true =>
              rw [scan_append_done hscan hlast]
              simp only [if_true, Except.map, hlast]
          | false =>
              have hall : n = piece.length := by
                rcases scan_all_or_done hscan with hall | hdone
                · exact hall
                · rw [hlast] at hdone
                  cases hdone
              subst hall
              rw [scan_append hscan, if_neg (by decide), ih (hs.scan hscan) hlast,
                scanBulk_eq (hs.scan hscan)]
              cases last.scan pieces.flatten with
              | error e => rfl
              | ok q => simp only [Except.mapError, Except.map, Nat.add_assoc]

end Feeds

end Ramjet.Engine.Codec.ChunkFeeds
