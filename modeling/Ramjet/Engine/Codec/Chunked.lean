/- digest: A scanner that finds the end of a chunked body, and reads cut anywhere in it. -/

import Ramjet.Engine.Codec.BodyFraming

set_option autoImplicit false
set_option relaxedAutoImplicit false

namespace Ramjet.Engine.Codec.Chunked

open Ramjet.Base.Octets
open Ramjet.Engine.Codec.MessageHead

/-- Longest chunk-size line, extensions included. -/
def MAX_CHUNK_LINE : Nat := 1024

/-- Longest trailer section. -/
def MAX_TRAILER : Nat := 8 * 1024

/-- Where in the chunked grammar the scanner is. -/
inductive State where
  | size (value digits : Nat)
  | ext (size : Nat)
  | sizeLf (size : Nat)
  | data (left : Nat)
  | dataCr
  | dataLf
  | trailerStart
  | trailerLine
  | trailerCr
  | finalLf
  | done
  deriving DecidableEq, Repr

/-- A scanner over one chunked body. -/
structure ChunkScan where
  state : State := .size 0 0
  line : Nat := 0
  trailer : Nat := 0
  deriving DecidableEq, Repr

def ChunkScan.isDone (s : ChunkScan) : Bool := s.state == .done

def hexValue (b : UInt8) : Option Nat :=
  if 48 ≤ b ∧ b ≤ 57 then some (b - 48).toNat
  else if 97 ≤ b ∧ b ≤ 102 then some ((b - 97).toNat + 10)
  else if 65 ≤ b ∧ b ≤ 70 then some ((b - 65).toNat + 10)
  else none

def CR : UInt8 := 13

def LF : UInt8 := 10

/-- One byte of a size line, in the digits or in the extension behind them. -/
def stepSizeLine (s : ChunkScan) (next : Except CodecError State) : Except CodecError ChunkScan :=
  if MAX_CHUNK_LINE < s.line + 1 then .error (.malformed "chunk size line too long")
  else next.map fun state => { s with state := state, line := s.line + 1 }

/-- One byte of the trailer section that is not the LF closing a line of it. -/
def stepTrailer (s : ChunkScan) (b : UInt8) (closing : State) : Except CodecError ChunkScan :=
  if MAX_TRAILER < s.trailer + 1 then .error (.malformed "trailer section too long")
  else if b = LF then .error (.malformed "bare LF in a trailer")
  else .ok { s with state := if b = CR then closing else .trailerLine, trailer := s.trailer + 1 }

/-- One byte of the body. Chunk data is taken byte by byte here and in bulk by the source. -/
def ChunkScan.step (s : ChunkScan) (b : UInt8) : Except CodecError ChunkScan :=
  match s.state with
  | .size value digits =>
      stepSizeLine s <|
        if b = CR ∧ 0 < digits then .ok (.sizeLf value)
        else if b = 59 ∧ 0 < digits then .ok (.ext value)
        else
          match hexValue b with
          | none => .error (.malformed "chunk size is not hexadecimal")
          | some d =>
              if 16 ≤ digits then .error (.malformed "chunk size too large")
              else .ok (.size (value * 16 + d) (digits + 1))
  | .ext size =>
      stepSizeLine s <|
        if b = CR then .ok (.sizeLf size)
        else if b = LF then .error (.malformed "bare LF in a chunk extension")
        else .ok (.ext size)
  | .sizeLf size =>
      if b = LF then
        .ok { s with state := if size = 0 then .trailerStart else .data size, line := 0 }
      else .error (.malformed "chunk size line not closed by CRLF")
  | .data left => .ok { s with state := if left ≤ 1 then .dataCr else .data (left - 1) }
  | .dataCr =>
      if b = CR then .ok { s with state := .dataLf }
      else .error (.malformed "chunk data not closed by CRLF")
  | .dataLf =>
      if b = LF then .ok { s with state := .size 0 0 }
      else .error (.malformed "chunk data not closed by CRLF")
  | .trailerStart => stepTrailer s b .finalLf
  | .trailerLine => stepTrailer s b .trailerCr
  | .trailerCr =>
      if b = LF then .ok { s with state := .trailerStart }
      else .error (.malformed "trailer line not closed by CRLF")
  | .finalLf =>
      if b = LF then .ok { s with state := .done }
      else .error (.malformed "chunked body not closed by CRLF")
  | .done => .ok s

/-- How many leading bytes of the input belong to the body, and the scanner behind them. -/
def ChunkScan.scan (s : ChunkScan) : Bytes → Except CodecError (Nat × ChunkScan)
  | [] => .ok (0, s)
  | b :: rest =>
      if s.isDone then .ok (0, s)
      else do
        let next ← s.step b
        let (n, last) ← next.scan rest
        return (n + 1, last)

theorem scan_done {s : ChunkScan} (h : s.isDone = true) (input : Bytes) :
    s.scan input = .ok (0, s) := by
  cases input with
  | nil => rfl
  | cons b rest => simp only [ChunkScan.scan, h, if_true]

theorem scan_cons {s next : ChunkScan} {b : UInt8} (h : s.isDone = false)
    (hstep : s.step b = .ok next) (rest : Bytes) :
    s.scan (b :: rest) = (next.scan rest).map fun r => (r.1 + 1, r.2) := by
  simp only [ChunkScan.scan, h, Bool.false_eq_true, if_false, hstep, bind, Except.bind]
  cases next.scan rest with
  | error e => rfl
  | ok r => rfl

theorem scan_le {s last : ChunkScan} {input : Bytes} {n : Nat}
    (h : s.scan input = .ok (n, last)) : n ≤ input.length := by
  induction input generalizing s n last with
  | nil =>
      cases h
      exact le_refl 0
  | cons b rest ih =>
      cases hd : s.isDone with
      | true =>
          rw [scan_done hd] at h
          cases h
          exact Nat.zero_le _
      | false =>
          cases hs : s.step b with
          | error e => simp [ChunkScan.scan, hd, hs, bind, Except.bind] at h
          | ok next =>
              rw [scan_cons hd hs] at h
              cases hr : next.scan rest with
              | error e => simp [hr, Except.map] at h
              | ok r =>
                  simp only [hr, Except.map, Except.ok.injEq, Prod.mk.injEq] at h
                  have hrest : next.scan rest = .ok (r.1, last) := by rw [hr, ← h.2]
                  have hle := ih hrest
                  simp only [List.length_cons]
                  omega

/-- A scan that stops short of its input has found the end of the body. -/
theorem scan_all_or_done {s last : ChunkScan} {input : Bytes} {n : Nat}
    (h : s.scan input = .ok (n, last)) : n = input.length ∨ last.isDone = true := by
  induction input generalizing s n last with
  | nil =>
      cases h
      exact .inl rfl
  | cons b rest ih =>
      cases hd : s.isDone with
      | true =>
          rw [scan_done hd] at h
          cases h
          exact .inr hd
      | false =>
          cases hs : s.step b with
          | error e => simp [ChunkScan.scan, hd, hs, bind, Except.bind] at h
          | ok next =>
              rw [scan_cons hd hs] at h
              cases hr : next.scan rest with
              | error e => simp [hr, Except.map] at h
              | ok r =>
                  simp only [hr, Except.map, Except.ok.injEq, Prod.mk.injEq] at h
                  obtain ⟨hn, hl⟩ := h
                  have hrest : next.scan rest = .ok (r.1, last) := by rw [hr, ← hl]
                  rcases ih hrest with hall | hdone
                  · left
                    simp only [List.length_cons]
                    omega
                  · exact .inr hdone

/-- Reads cut anywhere: a body scanned up to a cut goes on from the scanner left there. -/
theorem scan_append {s mid : ChunkScan} {front : Bytes}
    (h : s.scan front = .ok (front.length, mid)) (back : Bytes) :
    s.scan (front ++ back) = (mid.scan back).map fun r => (front.length + r.1, r.2) := by
  induction front generalizing s with
  | nil =>
      cases h
      cases hb : mid.scan back with
      | error e => simp [hb, Except.map]
      | ok r => simp [hb, Except.map]
  | cons b rest ih =>
      cases hd : s.isDone with
      | true =>
          rw [scan_done hd] at h
          simp at h
      | false =>
          cases hs : s.step b with
          | error e => simp [ChunkScan.scan, hd, hs, bind, Except.bind] at h
          | ok next =>
              rw [scan_cons hd hs] at h
              cases hr : next.scan rest with
              | error e => simp [hr, Except.map] at h
              | ok r =>
                  simp only [hr, Except.map, Except.ok.injEq, Prod.mk.injEq,
                    List.length_cons] at h
                  have hnext : next.scan rest = .ok (rest.length, mid) := by
                    rw [hr, ← h.2]
                    have hlen : r.1 = rest.length := by omega
                    rw [← hlen]
                  rw [List.cons_append, scan_cons hd hs, ih hnext]
                  cases mid.scan back with
                  | error e => rfl
                  | ok q =>
                      simp only [Except.map, List.length_cons]
                      congr 2
                      omega

example : (({} : ChunkScan).scan (ascii "5\r\nhello\r\n0\r\n\r\nNEXT")).map (·.1) = .ok 15 := by
  decide +kernel

end Ramjet.Engine.Codec.Chunked
