/- digest: An accepted response head is the same head however much arrives behind it. -/

import Ramjet.Engine.Codec.HeadArrival
import Ramjet.Engine.Headers

set_option autoImplicit false
set_option relaxedAutoImplicit false

namespace Ramjet.Engine.HeadGrowth

open Ramjet.Base.Octets
open Ramjet.Base.Search
open Ramjet.Engine.Codec.MessageHead
open Ramjet.Engine.Codec.BodyFraming
open Ramjet.Engine.Codec.AcceptedHead
open Ramjet.Engine.Codec.HeadArrival
open Ramjet.Engine.Headers

section Parsing

variable {buf : Bytes} {h0 head : Head}

theorem findHeadEnd_same {e : Nat} (h : findHeadEnd .standard buf h0 = (.ok (some e), head)) :
    head = h0 := by
  simp only [findHeadEnd] at h
  split at h
  · split at h
    · cases h
    · cases h
      rfl
  · split at h <;> cases h

theorem findHeadEnd_append {e : Nat} (h : findHeadEnd .standard buf h0 = (.ok (some e), head))
    (more : Bytes) : findHeadEnd .standard (buf ++ more) h0 = (.ok (some e), head) := by
  have hempty : findSub crlfcrlf ([] : Bytes) = none := rfl
  simp only [findHeadEnd] at h ⊢
  split at h
  · rename_i e' hfound
    obtain ⟨i, hi, rfl⟩ := Option.map_eq_some_iff.mp hfound
    -- A search that starts past the end finds nothing.
    have hstart : h0.scanned - 3 ≤ buf.length := by
      by_contra hpast
      rw [Nat.min_eq_right (by omega), List.drop_length, hempty] at hi
      cases hi
    rw [Nat.min_eq_left hstart] at hi h
    have hmore : min (h0.scanned - 3) (buf ++ more).length = h0.scanned - 3 := by
      rw [List.length_append]
      omega
    rw [hmore, List.drop_append_of_le_length hstart, findSub_append hi]
    exact h
  · split at h <;> cases h

/-- What the spans of an accepted head are read from, and where it ends. -/
private theorem accepted_block (h : parseResponseHead .standard buf h0 = (.ok true, head)) :
    ∃ e, findHeadEnd .standard buf h0 = (.ok (some e), h0) ∧
      parseBlock .standard parseStatusLine (fun _ => .ok ()) buf e h0 = (.ok true, head) ∧
      head.len = e ∧ ∀ s ∈ spans head, Inside (e - 4) s := by
  simp only [parseResponseHead] at h
  split at h
  · cases h
  · cases h
  rename_i out e next hfound
  obtain rfl : next = h0 := findHeadEnd_same hfound
  have hblock : readBlock .response buf e next = (.ok true, head) :=
    (readBlock_eq .response (findHeadEnd_le hfound) next).trans h
  have hanswer : answer (readBlock .response buf e next) = some (.ok head) := by
    rw [hblock]
    rfl
  exact ⟨e, hfound, h, readBlock_inside hanswer⟩

/-- What was enough to read a head is enough with more behind it. -/
theorem parseResponseHead_append (h : parseResponseHead .standard buf h0 = (.ok true, head))
    (more : Bytes) : parseResponseHead .standard (buf ++ more) h0 = (.ok true, head) := by
  have hlen := (accepted_len (.inr h)).2
  obtain ⟨e, hfound, hblock, hend, -⟩ := accepted_block h
  have htake : (buf ++ more).take (e - 4) = buf.take (e - 4) :=
    List.take_append_of_le_length (by omega)
  simp only [parseResponseHead, findHeadEnd_append hfound more]
  simp only [parseBlock, htake] at hblock ⊢
  exact hblock

/-- No span of an accepted response head reaches past what it was read from. -/
theorem accepted_spans (h : parseResponseHead .standard buf h0 = (.ok true, head)) :
    ∀ s ∈ spans head, Inside buf.length s := by
  have hlen := (accepted_len (.inr h)).2
  obtain ⟨e, -, -, hend, hinside⟩ := accepted_block h
  exact fun s hs => (hinside s hs).mono (by omega)

theorem bytes_append_of_inside {s : Span} (h : Inside buf.length s) (more : Bytes) :
    s.bytes (buf ++ more) = s.bytes buf := by
  have hinside : Inside (buf ++ more).length s := h.mono (by simp)
  rw [← bytes_take_of_inside h (buf ++ more), List.take_left]

end Parsing

section Reading

variable {buf : Bytes} {h0 head : Head}

theorem iter_append (h : parseResponseHead .standard buf h0 = (.ok true, head)) (more : Bytes) :
    head.iter (buf ++ more) = head.iter buf := by
  have hinside := accepted_spans h
  refine List.map_congr_left fun f hf => ?_
  have hname : f.name ∈ spans head :=
    List.mem_append_right _ (List.mem_flatMap.mpr ⟨f, hf, by simp⟩)
  have hvalue : f.value ∈ spans head :=
    List.mem_append_right _ (List.mem_flatMap.mpr ⟨f, hf, by simp⟩)
  rw [bytes_append_of_inside (hinside _ hname), bytes_append_of_inside (hinside _ hvalue)]

theorem headersNamed_append (h : parseResponseHead .standard buf h0 = (.ok true, head))
    (more name : Bytes) : head.headersNamed (buf ++ more) name = head.headersNamed buf name := by
  unfold Head.headersNamed
  rw [iter_append h]

theorem connectionLists_append (h : parseResponseHead .standard buf h0 = (.ok true, head))
    (more name : Bytes) :
    connectionLists head (buf ++ more) name = connectionLists head buf name := by
  unfold connectionLists
  rw [headersNamed_append h]

/-- The body behind a response head is framed the same way whatever follows. -/
theorem responseFraming_append (h : parseResponseHead .standard buf h0 = (.ok true, head))
    (more : Bytes) (methodWasHead : Bool) :
    responseFraming head (buf ++ more) methodWasHead = responseFraming head buf methodWasHead := by
  unfold responseFraming transferEncodingIsChunked contentLength
  rw [headersNamed_append h, headersNamed_append h]

/-- And the head is rewritten the same way. -/
theorem writeDownstreamResponse_append
    (h : parseResponseHead .standard buf h0 = (.ok true, head)) (more : Bytes)
    (reasonOf : Nat → Bytes) (framing : Framing) (close : Bool) (upgrade : Option Bytes) :
    writeDownstreamResponse reasonOf head (buf ++ more) framing close upgrade =
      writeDownstreamResponse reasonOf head buf framing close upgrade := by
  have hrelayed : ∀ name, isRelayed head (buf ++ more) name = isRelayed head buf name := by
    intro name
    unfold isRelayed
    rw [connectionLists_append h]
  have hinside := accepted_spans h
  unfold writeDownstreamResponse
  split
  · rfl
  · rename_i code reason version hstart
    have hreason : reason ∈ spans head := by
      unfold spans
      rw [hstart]
      simp [startSpans]
    simp only [hrelayed, iter_append h, bytes_append_of_inside (hinside reason hreason)]

end Reading

end Ramjet.Engine.HeadGrowth
