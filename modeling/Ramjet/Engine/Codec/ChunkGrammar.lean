/- digest: The grammar of chunked bodies, and the scanner that accepts exactly it. -/

import Mathlib.Algebra.Ring.Nat
import Ramjet.Engine.Codec.ChunkFeeds

set_option autoImplicit false
set_option relaxedAutoImplicit false

namespace Ramjet.Engine.Codec.ChunkGrammar

open Ramjet.Base.Octets
open Ramjet.Engine.Codec.MessageHead
open Ramjet.Engine.Codec.Chunked
open Ramjet.Engine.Codec.ChunkFeeds

section Grammar

def CRLF : Bytes := [CR, LF]

/-- A byte string that breaks no line. -/
def OneLine (bytes : Bytes) : Prop := CR ∉ bytes ∧ LF ∉ bytes

/-- The size a run of hexadecimal digits names, behind digits that named `value`. -/
def hexSize (value : Nat) : Bytes → Option Nat
  | [] => some value
  | b :: rest => (hexValue b).bind fun d => hexSize (value * 16 + d) rest

/-- What may stand between the digits of a size line and its end. -/
def Extension (ext : Bytes) : Prop := ext = [] ∨ ∃ text, ext = 59 :: text ∧ OneLine text

/-- A line that names `size`. `eol` says how many bytes of its CRLF its limit counts. -/
inductive SizeLine (eol size : Nat) : Bytes → Prop where
  | mk (digits ext : Bytes) (one : 1 ≤ digits.length) (sixteen : digits.length ≤ 16)
      (names : hexSize 0 digits = some size) (extension : Extension ext)
      (limit : digits.length + ext.length + eol ≤ MAX_CHUNK_LINE) :
      SizeLine eol size (digits ++ (ext ++ CRLF))

def trailer (lines : List Bytes) : Bytes := lines.flatMap (· ++ CRLF)

/-- What a trailer section counts: its lines and the empty line that ends the body. -/
def trailerCount (eol : Nat) (lines : List Bytes) : Nat :=
  (lines.map fun line => line.length + eol).sum + eol

/-- A well-formed chunked body. -/
inductive ChunkedBody (eol : Nat) : Bytes → Prop where
  | chunk {line data rest : Bytes} (positive : 0 < data.length)
      (size : SizeLine eol data.length line) (more : ChunkedBody eol rest) :
      ChunkedBody eol (line ++ (data ++ (CRLF ++ rest)))
  | last {line : Bytes} {lines : List Bytes} (size : SizeLine eol 0 line)
      (fields : ∀ field ∈ lines, field ≠ [] ∧ OneLine field)
      (limit : trailerCount eol lines ≤ MAX_TRAILER) :
      ChunkedBody eol (line ++ (trailer lines ++ CRLF))

end Grammar

/-- The scanner takes every byte and stands at `last` behind them. -/
def Reads (s : ChunkScan) (bytes : Bytes) (last : ChunkScan) : Prop :=
  s.scan bytes = .ok (bytes.length, last)

section Reading

theorem reads_nil {s last : ChunkScan} : Reads s [] last ↔ last = s := by
  constructor
  · intro h
    cases h
    rfl
  · rintro rfl
    rfl

theorem reads_cons {s last : ChunkScan} {b : UInt8} {rest : Bytes} (hopen : s.isDone = false) :
    Reads s (b :: rest) last ↔ ∃ next, s.step b = .ok next ∧ Reads next rest last := by
  constructor
  · intro h
    obtain ⟨next, m, hstep, hrest, hm⟩ := scan_cons_ok hopen h
    obtain rfl : m = rest.length := by
      rw [List.length_cons] at hm
      omega
    exact ⟨next, hstep, hrest⟩
  · rintro ⟨next, hstep, hrest⟩
    rw [Reads, scan_cons hopen hstep, hrest]
    rfl

theorem Reads.append {s mid last : ChunkScan} {front back : Bytes} (hfront : Reads s front mid)
    (hback : Reads mid back last) : Reads s (front ++ back) last := by
  rw [Reads, scan_append hfront, hback, List.length_append]
  rfl

/-- The bytes a scan counted are the bytes it read. -/
theorem reads_of_scan {s last : ChunkScan} {input : Bytes} {n : Nat}
    (h : s.scan input = .ok (n, last)) : Reads s (input.take n) last := by
  induction input generalizing s n with
  | nil =>
      cases h
      rfl
  | cons b rest ih =>
      cases hdone : s.isDone with
      | true =>
          rw [scan_done hdone] at h
          cases h
          exact reads_nil.mpr rfl
      | false =>
          obtain ⟨next, m, hstep, hrest, rfl⟩ := scan_cons_ok hdone h
          rw [List.take_succ_cons]
          exact (reads_cons hdone).mpr ⟨next, hstep, ih hrest⟩

/-- A scanner that has not ended has something left to read. -/
private theorem reads_some {s last : ChunkScan} {bytes : Bytes} (hopen : s.isDone = false)
    (hlast : last.isDone = true) (h : Reads s bytes last) :
    ∃ b rest next, bytes = b :: rest ∧ s.step b = .ok next ∧ Reads next rest last := by
  cases bytes with
  | nil =>
      rw [reads_nil.mp h, hopen] at hlast
      cases hlast
  | cons b rest =>
      obtain ⟨next, hstep, hrest⟩ := (reads_cons hopen).mp h
      exact ⟨b, rest, next, rfl, hstep, hrest⟩

end Reading

section Soundness

variable {last : ChunkScan}

theorem reads_sizeLf (hlast : last.isDone = true) {size line trailer : Nat} {bytes : Bytes}
    (h : Reads ⟨.sizeLf size, line, trailer⟩ bytes last) :
    ∃ tail, bytes = LF :: tail ∧
      Reads ⟨if size = 0 then .trailerStart else .data size, 0, trailer⟩ tail last := by
  obtain ⟨b, tail, next, rfl, hstep, htail⟩ := reads_some rfl hlast h
  obtain ⟨rfl, rfl⟩ := step_sizeLf rfl hstep
  exact ⟨tail, rfl, htail⟩

theorem reads_ext (hlast : last.isDone = true) {size line trailer : Nat} {bytes : Bytes}
    (h : Reads ⟨.ext size, line, trailer⟩ bytes last) :
    ∃ text tail, bytes = text ++ CR :: tail ∧ OneLine text ∧
      line + text.length + 1 ≤ MAX_CHUNK_LINE ∧
      Reads ⟨.sizeLf size, line + text.length + 1, trailer⟩ tail last := by
  induction bytes generalizing line with
  | nil =>
      rw [reads_nil.mp h] at hlast
      cases hlast
  | cons b rest ih =>
      obtain ⟨next, hstep, hrest⟩ := (reads_cons rfl).mp h
      obtain ⟨hline, ⟨rfl, rfl⟩ | ⟨hcr, hlf, rfl⟩⟩ := step_ext rfl hstep
      · exact ⟨[], rest, rfl, ⟨List.not_mem_nil, List.not_mem_nil⟩, hline, hrest⟩
      · obtain ⟨text, tail, rfl, hone, hlimit, htail⟩ := ih hrest
        have hlen : line + (b :: text).length + 1 = line + 1 + text.length + 1 := by
          rw [List.length_cons]
          omega
        refine ⟨b :: text, tail, rfl, ⟨?_, ?_⟩, by rw [hlen]; exact hlimit, ?_⟩
        · exact List.not_mem_cons_of_ne_of_not_mem (Ne.symm hcr) hone.1
        · exact List.not_mem_cons_of_ne_of_not_mem (Ne.symm hlf) hone.2
        · rw [hlen]
          exact htail

/-- A size line, from wherever in its digits the scanner is. -/
theorem reads_size (hlast : last.isDone = true) {value digits line trailer : Nat} {bytes : Bytes}
    (hdigits : digits ≤ 16) (h : Reads ⟨.size value digits, line, trailer⟩ bytes last) :
    ∃ run ext tail size, bytes = run ++ (ext ++ CR :: tail) ∧ hexSize value run = some size ∧
      1 ≤ digits + run.length ∧ digits + run.length ≤ 16 ∧ Extension ext ∧
      line + run.length + ext.length + 1 ≤ MAX_CHUNK_LINE ∧
      Reads ⟨.sizeLf size, line + run.length + ext.length + 1, trailer⟩ tail last := by
  induction bytes generalizing value digits line with
  | nil =>
      rw [reads_nil.mp h] at hlast
      cases hlast
  | cons b rest ih =>
      obtain ⟨next, hstep, hrest⟩ := (reads_cons rfl).mp h
      obtain ⟨hline, ⟨rfl, hone, rfl⟩ | ⟨rfl, hone, rfl⟩ | ⟨d, hd, hmore, rfl⟩⟩ :=
        step_size rfl hstep
      · exact ⟨[], [], rest, value, rfl, rfl, hone, hdigits, .inl rfl, hline, hrest⟩
      · obtain ⟨text, tail, rfl, htext, hlimit, htail⟩ := reads_ext hlast hrest
        have hlen : line + 0 + (59 :: text).length + 1 = line + 1 + text.length + 1 := by
          rw [List.length_cons]
          omega
        refine ⟨[], 59 :: text, tail, value, rfl, rfl, hone, hdigits, .inr ⟨text, rfl, htext⟩,
          ?_, ?_⟩
        · rw [List.length_nil, hlen]
          exact hlimit
        · rw [List.length_nil, hlen]
          exact htail
      · obtain ⟨run, ext, tail, size, rfl, hnames, -, hsixteen, hext, hlimit, htail⟩ :=
          ih (by omega) hrest
        have hlen : line + (b :: run).length + ext.length + 1 =
            line + 1 + run.length + ext.length + 1 := by
          rw [List.length_cons]
          omega
        refine ⟨b :: run, ext, tail, size, rfl, ?_, ?_, ?_, hext, ?_, ?_⟩
        · rw [hexSize, hd]
          exact hnames
        · rw [List.length_cons]
          omega
        · rw [List.length_cons]
          omega
        · rw [hlen]
          exact hlimit
        · rw [hlen]
          exact htail

theorem reads_data (hlast : last.isDone = true) {left line trailer : Nat} (hpos : 0 < left)
    {bytes : Bytes} (h : Reads ⟨.data left, line, trailer⟩ bytes last) :
    ∃ data tail, bytes = data ++ tail ∧ data.length = left ∧
      Reads ⟨.dataCr, line, trailer⟩ tail last := by
  induction bytes generalizing left with
  | nil =>
      rw [reads_nil.mp h] at hlast
      cases hlast
  | cons b rest ih =>
      obtain ⟨next, hstep, hrest⟩ := (reads_cons rfl).mp h
      simp only [ChunkScan.step, Except.ok.injEq] at hstep
      subst hstep
      by_cases hone : left ≤ 1
      · rw [if_pos hone] at hrest
        refine ⟨[b], rest, rfl, ?_, hrest⟩
        rw [List.length_singleton]
        omega
      · rw [if_neg hone] at hrest
        obtain ⟨data, tail, rfl, hlen, htail⟩ := ih (by omega) hrest
        refine ⟨b :: data, tail, rfl, ?_, htail⟩
        rw [List.length_cons]
        omega

theorem reads_dataEnd (hlast : last.isDone = true) {line trailer : Nat} {bytes : Bytes}
    (h : Reads ⟨.dataCr, line, trailer⟩ bytes last) :
    ∃ tail, bytes = CRLF ++ tail ∧ Reads ⟨.size 0 0, line, trailer⟩ tail last := by
  obtain ⟨b, rest, next, rfl, hstep, hrest⟩ := reads_some rfl hlast h
  simp only [ChunkScan.step] at hstep
  split at hstep
  · rename_i hcr
    cases hstep
    obtain ⟨b', tail, next, rfl, hstep, htail⟩ := reads_some rfl hlast hrest
    simp only [ChunkScan.step] at hstep
    split at hstep
    · rename_i hlf
      cases hstep
      refine ⟨tail, ?_, htail⟩
      rw [hcr, hlf]
      rfl
    · cases hstep
  · cases hstep

theorem reads_trailerLine (hlast : last.isDone = true) {line count : Nat} {bytes : Bytes}
    (h : Reads ⟨.trailerLine, line, count⟩ bytes last) :
    ∃ text tail, bytes = text ++ (CRLF ++ tail) ∧ OneLine text ∧
      Reads ⟨.trailerStart, line, count + text.length + 1⟩ tail last := by
  induction bytes generalizing count with
  | nil =>
      rw [reads_nil.mp h] at hlast
      cases hlast
  | cons b rest ih =>
      obtain ⟨next, hstep, hrest⟩ := (reads_cons rfl).mp h
      obtain ⟨-, hlf, rfl⟩ := stepTrailer_ok hstep
      by_cases hcr : b = CR
      · simp only [if_pos hcr] at hrest
        obtain ⟨b', tail, next, rfl, hstep', htail⟩ := reads_some rfl hlast hrest
        simp only [ChunkScan.step] at hstep'
        split at hstep'
        · rename_i hlf'
          cases hstep'
          refine ⟨[], tail, ?_, ⟨List.not_mem_nil, List.not_mem_nil⟩, htail⟩
          rw [hcr, hlf']
          rfl
        · cases hstep'
      · simp only [if_neg hcr] at hrest
        obtain ⟨text, tail, rfl, hone, htail⟩ := ih hrest
        have hlen : count + (b :: text).length + 1 = count + 1 + text.length + 1 := by
          rw [List.length_cons]
          omega
        refine ⟨b :: text, tail, rfl, ⟨?_, ?_⟩, ?_⟩
        · exact List.not_mem_cons_of_ne_of_not_mem (Ne.symm hcr) hone.1
        · exact List.not_mem_cons_of_ne_of_not_mem (Ne.symm hlf) hone.2
        · rw [hlen]
          exact htail

theorem trailerCount_cons (eol : Nat) (field : Bytes) (lines : List Bytes) :
    trailerCount eol (field :: lines) = field.length + eol + trailerCount eol lines := by
  simp only [trailerCount, List.map_cons, List.sum_cons]
  omega

theorem trailer_cons (field : Bytes) (lines : List Bytes) :
    trailer (field :: lines) = field ++ (CRLF ++ trailer lines) := by
  rw [trailer, List.flatMap_cons, List.append_assoc]
  rfl

/-- The trailer section: nothing is read behind the empty line that ends the body. -/
theorem reads_trailer (hlast : last.isDone = true) {line count : Nat} {bytes : Bytes}
    (h : Reads ⟨.trailerStart, line, count⟩ bytes last) :
    ∃ lines, bytes = trailer lines ++ CRLF ∧ (∀ field ∈ lines, field ≠ [] ∧ OneLine field) ∧
      count + trailerCount 1 lines ≤ MAX_TRAILER := by
  induction hk : bytes.length using Nat.strong_induction_on generalizing bytes count with
  | _ k ih =>
  obtain ⟨b, rest, next, rfl, hstep, hrest⟩ := reads_some rfl hlast h
  obtain ⟨hlimit, hlf, rfl⟩ := stepTrailer_ok hstep
  by_cases hcr : b = CR
  · simp only [if_pos hcr] at hrest
    obtain ⟨b', tail, next, rfl, hstep', htail⟩ := reads_some rfl hlast hrest
    simp only [ChunkScan.step] at hstep'
    split at hstep'
    · rename_i hlf'
      cases hstep'
      cases tail with
      | nil =>
          refine ⟨[], ?_, fun field hfield => (List.not_mem_nil hfield).elim, hlimit⟩
          rw [hcr, hlf']
          rfl
      | cons b'' tail =>
          rw [Reads, scan_done rfl, List.length_cons] at htail
          simp at htail
    · cases hstep'
  · simp only [if_neg hcr] at hrest
    obtain ⟨text, tail, rfl, hone, htail⟩ := reads_trailerLine hlast hrest
    obtain ⟨lines, rfl, hfields, hcount⟩ := ih tail.length (by
      simp only [List.length_cons, List.length_append] at hk
      omega) htail rfl
    refine ⟨(b :: text) :: lines, ?_, ?_, ?_⟩
    · rw [trailer_cons]
      simp only [List.cons_append, List.append_assoc]
    · intro field hfield
      rcases List.mem_cons.mp hfield with rfl | hfield
      · refine ⟨List.cons_ne_nil b text, ?_, ?_⟩
        · exact List.not_mem_cons_of_ne_of_not_mem (Ne.symm hcr) hone.1
        · exact List.not_mem_cons_of_ne_of_not_mem (Ne.symm hlf) hone.2
      · exact hfields field hfield
    · rw [trailerCount_cons, List.length_cons]
      omega

/-- What a fresh scanner reads to its end is one chunked body. -/
theorem reads_body (hlast : last.isDone = true) {bytes : Bytes} (h : Reads {} bytes last) :
    ChunkedBody 1 bytes := by
  induction hk : bytes.length using Nat.strong_induction_on generalizing bytes with
  | _ k ih =>
  obtain ⟨run, ext, tail, size, rfl, hnames, hone, hsixteen, hext, hlimit, htail⟩ :=
    reads_size hlast (Nat.zero_le 16) h
  obtain ⟨tail', rfl, hnext⟩ := reads_sizeLf hlast htail
  have hline : SizeLine 1 size (run ++ (ext ++ CRLF)) :=
    .mk run ext (by omega) (by omega) hnames hext (by omega)
  have hcut (rest : Bytes) :
      run ++ (ext ++ CR :: LF :: rest) = (run ++ (ext ++ CRLF)) ++ rest := by
    simp only [CRLF, List.append_assoc, List.cons_append, List.nil_append]
  rw [hcut]
  by_cases hzero : size = 0
  · rw [if_pos hzero] at hnext
    obtain ⟨lines, rfl, hfields, hcount⟩ := reads_trailer hlast hnext
    rw [Nat.zero_add] at hcount
    exact .last (hzero ▸ hline) hfields hcount
  · rw [if_neg hzero] at hnext
    obtain ⟨data, tail', rfl, rfl, hend⟩ := reads_data hlast (by omega) hnext
    have hpos : 0 < data.length := by omega
    obtain ⟨tail'', rfl, hmore⟩ := reads_dataEnd hlast hend
    refine .chunk hpos hline (ih tail''.length ?_ hmore rfl)
    simp only [List.length_append, List.length_cons] at hk
    omega

end Soundness

section Completeness

theorem hexValue_ne {b : UInt8} {d : Nat} (h : hexValue b = some d) : b ≠ CR ∧ b ≠ 59 := by
  constructor
  · rintro rfl
    rw [hexValue_cr] at h
    cases h
  · rintro rfl
    rw [hexValue_semicolon] at h
    cases h

/-- Reading goes on from a byte that steps. -/
theorem reads_step {s next last : ChunkScan} {b : UInt8} {rest : Bytes} (hopen : s.isDone = false)
    (hstep : s.step b = .ok next) (hrest : Reads next rest last) : Reads s (b :: rest) last :=
  (reads_cons hopen).mpr ⟨next, hstep, hrest⟩

theorem stepSizeLine_of {s : ChunkScan} {state : State} (hline : s.line + 1 ≤ MAX_CHUNK_LINE) :
    stepSizeLine s (.ok state) = .ok { s with state := state, line := s.line + 1 } := by
  rw [stepSizeLine, if_neg (by omega)]
  rfl

theorem reads_digits {value digits line trailer size : Nat} {run : Bytes}
    (hnames : hexSize value run = some size) (hsixteen : digits + run.length ≤ 16)
    (hlimit : line + run.length ≤ MAX_CHUNK_LINE) :
    Reads ⟨.size value digits, line, trailer⟩ run
      ⟨.size size (digits + run.length), line + run.length, trailer⟩ := by
  induction run generalizing value digits line with
  | nil =>
      cases hnames
      exact reads_nil.mpr rfl
  | cons b run ih =>
      rw [List.length_cons] at hsixteen hlimit
      obtain ⟨d, hd, hrun⟩ := Option.bind_eq_some_iff.mp hnames
      obtain ⟨hcr, hsemicolon⟩ := hexValue_ne hd
      have hstep : ChunkScan.step ⟨.size value digits, line, trailer⟩ b =
          .ok ⟨.size (value * 16 + d) (digits + 1), line + 1, trailer⟩ := by
        simp only [ChunkScan.step, hd]
        rw [if_neg (fun h => hcr h.1), if_neg (fun h => hsemicolon h.1), if_neg (by omega)]
        exact stepSizeLine_of (by show line + 1 ≤ MAX_CHUNK_LINE; omega)
      have hlen (n : Nat) : n + (b :: run).length = n + 1 + run.length := by
        rw [List.length_cons]
        omega
      rw [hlen, hlen]
      exact reads_step rfl hstep (ih hrun (by omega) (by omega))

theorem reads_text {size line trailer : Nat} {text : Bytes} (hone : OneLine text)
    (hlimit : line + text.length + 1 ≤ MAX_CHUNK_LINE) :
    Reads ⟨.ext size, line, trailer⟩ (text ++ [CR])
      ⟨.sizeLf size, line + text.length + 1, trailer⟩ := by
  induction text generalizing line with
  | nil =>
      refine reads_step rfl ?_ (reads_nil.mpr rfl)
      simp only [ChunkScan.step, if_true]
      exact stepSizeLine_of hlimit
  | cons b text ih =>
      rw [List.length_cons] at hlimit
      have hcr : b ≠ CR := fun h => hone.1 (h ▸ List.mem_cons_self)
      have hlf : b ≠ LF := fun h => hone.2 (h ▸ List.mem_cons_self)
      have hstep : ChunkScan.step ⟨.ext size, line, trailer⟩ b =
          .ok ⟨.ext size, line + 1, trailer⟩ := by
        simp only [ChunkScan.step, if_neg hcr, if_neg hlf]
        exact stepSizeLine_of (by show line + 1 ≤ MAX_CHUNK_LINE; omega)
      have hlen : line + (b :: text).length + 1 = line + 1 + text.length + 1 := by
        rw [List.length_cons]
        omega
      rw [hlen]
      refine reads_step rfl hstep (ih ⟨?_, ?_⟩ (by omega))
      · exact fun h => hone.1 (List.mem_cons_of_mem b h)
      · exact fun h => hone.2 (List.mem_cons_of_mem b h)

theorem reads_lineFeed (size line trailer : Nat) :
    Reads ⟨.sizeLf size, line, trailer⟩ [LF]
      ⟨if size = 0 then .trailerStart else .data size, 0, trailer⟩ := by
  refine reads_step rfl ?_ (reads_nil.mpr rfl)
  simp only [ChunkScan.step, if_true]

theorem SizeLine.reads {size : Nat} {line : Bytes} (h : SizeLine 1 size line) :
    Reads {} line ⟨if size = 0 then .trailerStart else .data size, 0, 0⟩ := by
  obtain ⟨run, ext, hone, hsixteen, hnames, hext, hlimit⟩ := h
  have hdigits : Reads {} run ⟨.size size run.length, run.length, 0⟩ := by
    have hrun : Reads {} run ⟨.size size (0 + run.length), 0 + run.length, 0⟩ :=
      reads_digits hnames (by omega) (by omega)
    rw [Nat.zero_add] at hrun
    exact hrun
  have hpos : 0 < run.length := hone
  refine hdigits.append ?_
  rcases hext with rfl | ⟨text, rfl, htext⟩
  · have hcr : ChunkScan.step ⟨.size size run.length, run.length, 0⟩ CR =
        .ok ⟨.sizeLf size, run.length + 1, 0⟩ := by
      simp only [ChunkScan.step, true_and]
      rw [if_pos hpos]
      exact stepSizeLine_of (by
        simp only [List.length_nil] at hlimit
        show run.length + 1 ≤ MAX_CHUNK_LINE
        omega)
    exact reads_step rfl hcr (reads_lineFeed size _ 0)
  · have hsemicolon : ChunkScan.step ⟨.size size run.length, run.length, 0⟩ 59 =
        .ok ⟨.ext size, run.length + 1, 0⟩ := by
      simp only [ChunkScan.step, true_and]
      rw [if_neg (fun h => absurd h.1 (by decide)), if_pos hpos]
      exact stepSizeLine_of (by
        simp only [List.length_cons] at hlimit
        show run.length + 1 ≤ MAX_CHUNK_LINE
        omega)
    refine reads_step rfl hsemicolon ?_
    show Reads ⟨.ext size, run.length + 1, 0⟩ (text ++ CRLF) _
    have hcut : text ++ CRLF = (text ++ [CR]) ++ [LF] := by
      rw [List.append_assoc]
      rfl
    rw [hcut]
    refine (reads_text htext ?_).append (reads_lineFeed size _ 0)
    rw [List.length_cons] at hlimit
    omega

theorem reads_dataBytes {left line trailer : Nat} {data : Bytes} (hlen : data.length = left)
    (hpos : 0 < left) :
    Reads ⟨.data left, line, trailer⟩ data ⟨.dataCr, line, trailer⟩ := by
  have hscan := scan_data (s := ⟨.data left, line, trailer⟩) rfl hpos data
  have hmin : min left data.length = data.length := by omega
  rw [hmin, List.drop_length] at hscan
  rw [Reads, hscan, afterData, if_pos (by omega)]
  rfl

theorem reads_crlf (line trailer : Nat) :
    Reads ⟨.dataCr, line, trailer⟩ CRLF ⟨.size 0 0, line, trailer⟩ := by
  refine reads_step rfl rfl ?_
  exact reads_step rfl rfl (reads_nil.mpr rfl)

theorem stepTrailer_of {s : ChunkScan} {b : UInt8} {closing : State}
    (hlimit : s.trailer + 1 ≤ MAX_TRAILER) (hlf : b ≠ LF) :
    stepTrailer s b closing =
      .ok { s with state := if b = CR then closing else .trailerLine,
                   trailer := s.trailer + 1 } := by
  rw [stepTrailer, if_neg (by omega), if_neg hlf]

theorem reads_field {line count : Nat} {text : Bytes} (hone : OneLine text)
    (hlimit : count + text.length + 1 ≤ MAX_TRAILER) :
    Reads ⟨.trailerLine, line, count⟩ (text ++ CRLF)
      ⟨.trailerStart, line, count + text.length + 1⟩ := by
  induction text generalizing count with
  | nil =>
      refine reads_step rfl (stepTrailer_of hlimit (by decide)) ?_
      exact reads_step rfl rfl (reads_nil.mpr rfl)
  | cons b text ih =>
      rw [List.length_cons] at hlimit
      have hcr : b ≠ CR := fun h => hone.1 (h ▸ List.mem_cons_self)
      have hlf : b ≠ LF := fun h => hone.2 (h ▸ List.mem_cons_self)
      have hlen : count + (b :: text).length + 1 = count + 1 + text.length + 1 := by
        rw [List.length_cons]
        omega
      rw [hlen]
      have hnext : count + 1 ≤ MAX_TRAILER := by omega
      have hrest : count + 1 + text.length + 1 ≤ MAX_TRAILER := by omega
      refine reads_step rfl (stepTrailer_of hnext hlf) ?_
      rw [if_neg hcr]
      refine ih ⟨?_, ?_⟩ hrest
      · exact fun h => hone.1 (List.mem_cons_of_mem b h)
      · exact fun h => hone.2 (List.mem_cons_of_mem b h)

theorem reads_trailerSection {line count : Nat} {lines : List Bytes}
    (hfields : ∀ field ∈ lines, field ≠ [] ∧ OneLine field)
    (hlimit : count + trailerCount 1 lines ≤ MAX_TRAILER) :
    Reads ⟨.trailerStart, line, count⟩ (trailer lines ++ CRLF)
      ⟨.done, line, count + trailerCount 1 lines⟩ := by
  induction lines generalizing count with
  | nil =>
      refine reads_step rfl (stepTrailer_of hlimit (by decide)) ?_
      exact reads_step rfl rfl (reads_nil.mpr rfl)
  | cons field lines ih =>
      obtain ⟨hne, hone⟩ := hfields field List.mem_cons_self
      cases field with
      | nil => exact (hne rfl).elim
      | cons b text =>
          rw [trailerCount_cons, List.length_cons] at hlimit
          have hcr : b ≠ CR := fun h => hone.1 (h ▸ List.mem_cons_self)
          have hlf : b ≠ LF := fun h => hone.2 (h ▸ List.mem_cons_self)
          have hcut : trailer ((b :: text) :: lines) ++ CRLF =
              b :: ((text ++ CRLF) ++ (trailer lines ++ CRLF)) := by
            rw [trailer_cons]
            simp only [List.cons_append, List.append_assoc]
          have hlen : count + trailerCount 1 ((b :: text) :: lines) =
              count + 1 + text.length + 1 + trailerCount 1 lines := by
            rw [trailerCount_cons, List.length_cons]
            omega
          rw [hcut, hlen]
          have hnext : count + 1 ≤ MAX_TRAILER := by omega
          have hfield : count + 1 + text.length + 1 ≤ MAX_TRAILER := by omega
          have hrest : count + 1 + text.length + 1 + trailerCount 1 lines ≤ MAX_TRAILER := by omega
          refine reads_step rfl (stepTrailer_of hnext hlf) ?_
          rw [if_neg hcr]
          refine Reads.append (reads_field ⟨?_, ?_⟩ hfield)
            (ih (fun field hmem => hfields field (List.mem_cons_of_mem _ hmem)) hrest)
          · exact fun h => hone.1 (List.mem_cons_of_mem b h)
          · exact fun h => hone.2 (List.mem_cons_of_mem b h)

/-- A fresh scanner reads a chunked body whole and ends with it. -/
theorem ChunkedBody.reads {body : Bytes} (h : ChunkedBody 1 body) :
    ∃ last, last.isDone = true ∧ Reads {} body last := by
  induction h with
  | @chunk line data rest hpos hsize hmore ih =>
      obtain ⟨last, hlast, hrest⟩ := ih
      have hline := hsize.reads
      rw [if_neg (by omega)] at hline
      refine ⟨last, hlast, hline.append ?_⟩
      exact (reads_dataBytes rfl hpos).append ((reads_crlf 0 0).append hrest)
  | @last line lines hsize hfields hlimit =>
      have hline := hsize.reads
      rw [if_pos rfl] at hline
      refine ⟨_, ?_, hline.append (reads_trailerSection hfields (by omega))⟩
      rfl

end Completeness

/-- Fed in any cut, the scanner answers done exactly behind a chunked body. -/
theorem feedAll_done_iff (pieces : List Bytes) (n : Nat) :
    feedAll {} 0 pieces = .ok (n, true) ↔
      ∃ body rest, pieces.flatten = body ++ rest ∧ ChunkedBody 1 body ∧ n = body.length := by
  rw [feedAll_eq Sane.fresh rfl, scanBulk_eq Sane.fresh]
  constructor
  · intro h
    cases hscan : ({} : ChunkScan).scan pieces.flatten with
    | error e => simp [hscan, Except.mapError, Except.map] at h
    | ok r =>
        obtain ⟨m, last⟩ := r
        simp only [hscan, Except.mapError, Except.map, Nat.zero_add, Except.ok.injEq,
          Prod.mk.injEq] at h
        obtain ⟨rfl, hlast⟩ := h
        refine ⟨pieces.flatten.take m, pieces.flatten.drop m, ?_, ?_, ?_⟩
        · exact (List.take_append_drop m _).symm
        · exact reads_body hlast (reads_of_scan hscan)
        · rw [List.length_take]
          have hle := scan_le hscan
          omega
  · rintro ⟨body, rest, hstream, hbody, rfl⟩
    obtain ⟨last, hlast, hreads⟩ := hbody.reads
    rw [hstream, scan_append_done hreads hlast]
    simp only [Except.mapError, Except.map, Nat.zero_add, hlast]

/-- The scanner accepts its grammar however the stream is cut, a line counted with its CR and
without its LF, and no stream makes it panic. -/
theorem feeds_accept_grammar (pieces : List Bytes) :
    feedAll {} 0 pieces =
        (scanBulk {} pieces.flatten).map (fun r => (r.1, r.2.isDone)) ∧
      (∀ n, feedAll {} 0 pieces = .ok (n, true) ↔
        ∃ body rest, pieces.flatten = body ++ rest ∧ ChunkedBody 1 body ∧ n = body.length) ∧
      feedAll {} 0 pieces ≠ .error .overflow ∧ feedAll {} 0 pieces ≠ .error .unreachable := by
  have hone := feedAll_eq Sane.fresh rfl 0 pieces
  refine ⟨?_, feedAll_done_iff pieces, ?_, ?_⟩
  · rw [hone]
    cases scanBulk {} pieces.flatten with
    | error halt => rfl
    | ok r => simp only [Except.map, Nat.zero_add]
  · rw [hone, scanBulk_eq Sane.fresh]
    cases ({} : ChunkScan).scan pieces.flatten with
    | error e => simp [Except.mapError, Except.map]
    | ok r => simp [Except.mapError, Except.map]
  · rw [hone, scanBulk_eq Sane.fresh]
    cases ({} : ChunkScan).scan pieces.flatten with
    | error e => simp [Except.mapError, Except.map]
    | ok r => simp [Except.mapError, Except.map]

section LongLines

/-- A zero chunk whose size line has `k` bytes of extension text. -/
def longLine (k : Nat) : Bytes := 48 :: 59 :: List.replicate k 97 ++ (CRLF ++ CRLF)

theorem longLine_body {eol k : Nat} (hline : k + 2 + eol ≤ MAX_CHUNK_LINE)
    (heol : eol ≤ MAX_TRAILER) : ChunkedBody eol (longLine k) := by
  have hsize : SizeLine eol 0 ([48] ++ ((59 :: List.replicate k 97) ++ CRLF)) := by
    refine .mk [48] (59 :: List.replicate k 97) (by decide) (by decide) (by decide)
      (.inr ⟨List.replicate k 97, rfl, ?_, ?_⟩) ?_
    · exact fun h => absurd (List.eq_of_mem_replicate h) (by decide)
    · exact fun h => absurd (List.eq_of_mem_replicate h) (by decide)
    · simp only [List.length_cons, List.length_nil, List.length_replicate]
      omega
  have hcut : longLine k =
      [48] ++ ((59 :: List.replicate k 97) ++ CRLF) ++ (trailer [] ++ CRLF) := by
    simp only [longLine, trailer, List.flatMap_nil, List.nil_append, List.cons_append,
      List.append_assoc]
  rw [hcut]
  refine .last hsize (fun field hfield => (List.not_mem_nil hfield).elim) ?_
  simpa [trailerCount] using heol

private theorem hexSize_free {value size : Nat} {run : Bytes} (h : hexSize value run = some size) :
    CR ∉ run := by
  induction run generalizing value with
  | nil => exact List.not_mem_nil
  | cons b run ih =>
      obtain ⟨d, hd, hrun⟩ := Option.bind_eq_some_iff.mp h
      exact List.not_mem_cons_of_ne_of_not_mem (hexValue_ne hd).1.symm (ih hrun)

/-- The first line of a chunked body keeps the limit. -/
theorem ChunkedBody.line_limit {eol : Nat} {body rest front tail : Bytes}
    (h : ChunkedBody eol body) (hcut : body ++ rest = front ++ CR :: tail) (hfree : CR ∉ front) :
    front.length + eol ≤ MAX_CHUNK_LINE := by
  obtain ⟨size, line, more, hline, rfl⟩ :
      ∃ size line more, SizeLine eol size line ∧ body = line ++ more := by
    cases h with
    | chunk hpos hsize hmore => exact ⟨_, _, _, hsize, rfl⟩
    | last hsize hfields hlimit => exact ⟨_, _, _, hsize, rfl⟩
  obtain ⟨run, ext, -, -, hnames, hext, hlimit⟩ := hline
  have hrun : CR ∉ run := hexSize_free hnames
  have hextFree : CR ∉ ext := by
    rcases hext with rfl | ⟨text, rfl, htext⟩
    · exact List.not_mem_nil
    · exact List.not_mem_cons_of_ne_of_not_mem (by decide) htext.1
  have hall : CR ∉ run ++ ext := by
    rw [List.mem_append]
    exact not_or.mpr ⟨hrun, hextFree⟩
  have hidx := congrArg (List.idxOf CR) hcut
  rw [List.idxOf_append_of_notMem hfree, List.idxOf_cons_self] at hidx
  have hleft : run ++ (ext ++ CRLF) ++ more ++ rest = (run ++ ext) ++ CR :: (LF :: more ++ rest) := by
    simp only [CRLF, List.append_assoc, List.cons_append, List.nil_append]
  rw [hleft, List.idxOf_append_of_notMem hall, List.idxOf_cons_self, List.length_append] at hidx
  omega

private theorem longLine_cut (k : Nat) :
    longLine k = (48 :: 59 :: List.replicate k 97) ++ CR :: (LF :: CRLF) ∧
      CR ∉ (48 :: 59 :: List.replicate k 97 : Bytes) := by
  refine ⟨rfl, ?_⟩
  refine List.not_mem_cons_of_ne_of_not_mem (by decide) ?_
  refine List.not_mem_cons_of_ne_of_not_mem (by decide) ?_
  exact fun h => absurd (List.eq_of_mem_replicate h) (by decide)

theorem longLine_refused {eol k : Nat} (hline : MAX_CHUNK_LINE < k + 2 + eol) :
    ¬ ∃ body rest, longLine k = body ++ rest ∧ ChunkedBody eol body := by
  rintro ⟨body, rest, hcut, hbody⟩
  have hlimit := hbody.line_limit (hcut.symm.trans (longLine_cut k).1) (longLine_cut k).2
  simp only [List.length_cons, List.length_replicate] at hlimit
  omega

/-- Neither a line without its CRLF nor a line with it is what the limits count. -/
theorem limit_counts_cr :
    (ChunkedBody 0 (longLine 1022) ∧ ∀ n, feedAll {} 0 [longLine 1022] ≠ .ok (n, true)) ∧
      feedAll {} 0 [longLine 1021] = .ok (1027, true) ∧
      ¬ ∃ body rest, longLine 1021 = body ++ rest ∧ ChunkedBody 2 body := by
  refine ⟨⟨longLine_body (by decide) (by decide), ?_⟩, ?_, longLine_refused (by decide)⟩
  · intro n hdone
    obtain ⟨body, rest, hcut, hbody, -⟩ := (feedAll_done_iff _ n).mp hdone
    rw [List.flatten_singleton] at hcut
    exact longLine_refused (by decide) ⟨body, rest, hcut, hbody⟩
  · refine (feedAll_done_iff _ _).mpr ⟨longLine 1021, [], ?_, ?_, ?_⟩
    · rw [List.flatten_singleton, List.append_nil]
    · exact longLine_body (by decide) (by decide)
    · simp only [longLine, CRLF, List.length_append, List.length_cons, List.length_nil,
        List.length_replicate]

end LongLines

end Ramjet.Engine.Codec.ChunkGrammar
