/- digest: A rewritten head is read with the framing it is relayed under, save what Connection drops. -/

import Ramjet.Engine.RewrittenFields

set_option autoImplicit false
set_option relaxedAutoImplicit false

namespace Ramjet.Engine.FramingAgreement

open Ramjet.Base.Octets
open Ramjet.Base.Net
open Ramjet.Base.Outcome
open Ramjet.Engine.Codec.MessageHead
open Ramjet.Engine.Codec.AcceptedHead
open Ramjet.Engine.Codec.BodyFraming
open Ramjet.Engine.Headers
open Ramjet.Engine.WrittenHead
open Ramjet.Engine.RewrittenFields

section Writable

variable {head : Head} {buf : Bytes}

theorem header_mem {name v : Bytes} (h : head.header buf name = some v) :
    ∃ f ∈ head.iter buf, f.2 = v := by
  obtain ⟨f, hf, rfl⟩ := Option.map_eq_some_iff.mp h
  exact ⟨f, List.mem_of_find?_eq_some hf, rfl⟩

private theorem clean_trimOws {v : Bytes} (h : Clean v) : Clean (trimOws v) :=
  fun b hb => h b ((trimOws_within v).subset hb)

private theorem clean_header (hread : ∀ f ∈ head.iter buf, FieldRead f) {name v : Bytes}
    (h : head.header buf name = some v) : Clean v := by
  obtain ⟨f, hf, rfl⟩ := header_mem h
  exact (hread f hf).value_clean

/-- The protocol an accepted head asks to upgrade to can be written on a field line. -/
theorem clean_upgradeProtocol (hread : ∀ f ∈ head.iter buf, FieldRead f) {p : Bytes}
    (h : upgradeProtocol head buf = some p) : Clean p := by
  simp only [upgradeProtocol] at h
  split at h
  · split at h
    · cases h
    rename_i value hvalue
    split at h
    · cases h
    cases h
    exact clean_trimOws (clean_header hread hvalue)
  · cases h

private theorem clean_requestId (hread : ∀ f ∈ head.iter buf, FieldRead f) (fresh : HexId) :
    Clean (requestId head buf fresh) := by
  have hfresh : Clean fresh.bytes :=
    clean_of_alphanumeric (by simpa using fresh.alphanumeric)
  simp only [requestId, inboundRequestId]
  split
  · simpa using hfresh
  · rename_i existing hexisting
    split
    · simpa using hfresh
    · simpa using clean_trimOws (clean_header hread hexisting)

private theorem clean_forwardedForValue (hread : ∀ f ∈ head.iter buf, FieldRead f) (hop : Hop) :
    Clean (forwardedForValue head buf hop) := by
  refine clean_append ?_ (IpAddr.clean_display hop.client)
  intro b hb
  obtain ⟨v, hv, hb⟩ := List.mem_flatMap.mp hb
  obtain ⟨f, hf, rfl⟩ := List.mem_map.mp (List.mem_filter.mp hv).1
  have hvalue : Clean (trimOws f.2) :=
    clean_trimOws (hread f (List.mem_filter.mp hf).1).value_clean
  exact clean_append hvalue (clean_literal (by decide)) b hb

private theorem fieldOk_literal {name : String} {v : Bytes}
    (hname : (ascii name).all isTchar = true ∧ ascii name ≠ []) (hv : Clean v) :
    FieldOk (ascii name, v) :=
  ⟨hname.2, by simpa using hname.1, hv⟩

private theorem fieldOk_closingList {upgrade : Option Bytes} (hupgrade : ∀ p ∈ upgrade, Clean p)
    (framing : Framing) (close : Bool) : ∀ f ∈ closingList framing close upgrade, FieldOk f := by
  intro f hf
  rcases List.mem_append.mp hf with hf | hf
  · split at hf
    · rw [List.mem_singleton] at hf
      subst hf
      exact fieldOk_literal (by decide) (clean_literal (by decide))
    · simp at hf
  · cases upgrade with
    | some p =>
        simp only [List.mem_cons, List.not_mem_nil, or_false] at hf
        rcases hf with rfl | rfl
        · exact fieldOk_literal (by decide) (clean_literal (by decide))
        · exact fieldOk_literal (by decide) (hupgrade p rfl)
    | none =>
        simp only at hf
        split at hf
        · rw [List.mem_singleton] at hf
          subst hf
          exact fieldOk_literal (by decide) (clean_literal (by decide))
        · simp at hf

private theorem fieldOk_hopList (hread : ∀ f ∈ head.iter buf, FieldRead f) (hop : Hop)
    (endpoint : SocketAddr) (fresh : HexId) :
    ∀ f ∈ hopList head buf hop endpoint fresh, FieldOk f := by
  intro f hf
  simp only [hopList, List.append_assoc, List.mem_append, List.mem_cons, List.not_mem_nil,
    or_false] at hf
  rcases hf with hf | (rfl | rfl | rfl) | hf | rfl
  · split at hf
    · rw [List.mem_singleton] at hf
      subst hf
      exact fieldOk_literal (by decide) (SocketAddr.clean_display endpoint)
    · simp at hf
  · exact fieldOk_literal (by decide) (clean_forwardedForValue hread hop)
  · exact fieldOk_literal (by decide) (IpAddr.clean_display hop.client)
  · refine fieldOk_literal (by decide) ?_
    cases hop.scheme <;> exact clean_literal (by decide)
  · split at hf
    · rename_i host hhost
      rw [List.mem_singleton] at hf
      subst hf
      exact fieldOk_literal (by decide) (clean_header hread hhost)
    · simp at hf
  · exact fieldOk_literal (by decide) (clean_requestId hread fresh)

/-- Every field of the upstream request can be written on one line and read back. -/
theorem fieldOk_upstreamFields (hread : ∀ f ∈ head.iter buf, FieldRead f)
    {upgrade : Option Bytes} (hupgrade : ∀ p ∈ upgrade, Clean p) (hop : Hop)
    (endpoint : SocketAddr) (framing : Framing) (close : Bool) (fresh : HexId) :
    ∀ f ∈ upstreamFields head buf hop endpoint framing close upgrade fresh, FieldOk f := by
  intro f hf
  simp only [upstreamFields, List.mem_append] at hf
  rcases hf with (hf | hf) | hf
  · exact (hread f (List.mem_filter.mp hf).1).toFieldOk
  · exact fieldOk_hopList hread hop endpoint fresh f hf
  · exact fieldOk_closingList hupgrade framing close f hf

theorem fieldOk_downstreamFields (hread : ∀ f ∈ head.iter buf, FieldRead f)
    {upgrade : Option Bytes} (hupgrade : ∀ p ∈ upgrade, Clean p) (framing : Framing)
    (close : Bool) : ∀ f ∈ downstreamFields head buf framing close upgrade, FieldOk f := by
  intro f hf
  rcases List.mem_append.mp hf with hf | hf
  · exact (hread f (List.mem_filter.mp hf).1).toFieldOk
  · exact fieldOk_closingList hupgrade framing close f hf

end Writable

section NamedFields

variable {head : Head} {buf : Bytes}

private theorem named_values_forwarded (hread : ∀ f ∈ head.iter buf, FieldRead f)
    {p : Bytes → Bool} (hp : ∀ a b, eqIgnoreAsciiCase a b = true → p a = p b) (name : Bytes) :
    (named (readBack ((head.iter buf).filter fun f => p f.1)) name).map (·.2) =
      if p name then (head.headersNamed buf name).map (·.2) else [] := by
  rw [readBack_eq_self fun f hf => hread f (List.mem_filter.mp hf).1, named_filter _ hp]
  split <;> simp [Head.headersNamed]

theorem named_hopList {name : Bytes}
    (hname : ∀ n ∈ [ascii "Host", ascii "X-Forwarded-For", ascii "X-Real-IP",
      ascii "X-Forwarded-Proto", ascii "X-Forwarded-Host", ascii "X-Request-Id"],
      eqIgnoreAsciiCase n name = false) (hop : Hop) (endpoint : SocketAddr) (fresh : HexId) :
    named (hopList head buf hop endpoint fresh) name = [] := by
  rw [named, List.filter_eq_nil_iff]
  intro f hf
  have hmem : f.1 ∈ [ascii "Host", ascii "X-Forwarded-For", ascii "X-Real-IP",
      ascii "X-Forwarded-Proto", ascii "X-Forwarded-Host", ascii "X-Request-Id"] := by
    simp only [hopList, List.append_assoc, List.mem_append, List.mem_cons, List.not_mem_nil,
      or_false] at hf
    rcases hf with hf | (rfl | rfl | rfl) | hf | rfl
    · split at hf <;> simp_all
    · simp
    · simp
    · simp
    · split at hf <;> simp_all
    · simp
  rw [hname f.1 hmem]
  simp

private theorem named_closingList_values (framing : Framing) (close : Bool)
    (upgrade : Option Bytes) :
    (named (readBack (closingList framing close upgrade)) (ascii "content-length")).map (·.2) = [] ∧
    (named (readBack (closingList framing close upgrade)) (ascii "transfer-encoding")).map (·.2) =
      (if framing = .chunked then [ascii "chunked"] else []) ∧
    named (readBack (closingList framing close upgrade)) (ascii "host") = [] := by
  simp only [closingList]
  by_cases hframing : framing = .chunked
  · simp only [hframing, if_true]
    cases upgrade with
    | some p => exact ⟨rfl, rfl, rfl⟩
    | none => cases close <;> exact ⟨rfl, rfl, rfl⟩
  · simp only [hframing, if_false]
    cases upgrade with
    | some p => exact ⟨rfl, rfl, rfl⟩
    | none => cases close <;> exact ⟨rfl, rfl, rfl⟩

private theorem isForwardable_contentLength :
    isForwardable head buf (ascii "content-length") =
      !connectionLists head buf (ascii "content-length") := by
  have hconst : (!eqIgnoreAsciiCase (ascii "content-length") (ascii "connection") &&
      !isHopByHop (ascii "content-length") && !isSelfWritten (ascii "content-length")) = true := by
    decide
  rw [isForwardable, hconst, Bool.true_and]

private theorem isRelayed_contentLength :
    isRelayed head buf (ascii "content-length") =
      !connectionLists head buf (ascii "content-length") := by
  have hconst : (!eqIgnoreAsciiCase (ascii "content-length") (ascii "connection") &&
      !isHopByHop (ascii "content-length")) = true := by decide
  rw [isRelayed, hconst, Bool.true_and]

private theorem hopByHop_transferEncoding : isHopByHop (ascii "transfer-encoding") = true := by
  decide

/-- The declared lengths left once `Connection` has had its say. -/
def keptLengths (head : Head) (buf : Bytes) : List Bytes :=
  if connectionLists head buf (ascii "content-length") then []
  else (head.headersNamed buf (ascii "content-length")).map (·.2)

/-- The transfer codings a rewritten head restates. -/
def restatedCodings (framing : Framing) : List Bytes :=
  if framing = .chunked then [ascii "chunked"] else []

theorem upstream_named (hread : ∀ f ∈ head.iter buf, FieldRead f) {name : Bytes}
    (hname : ∀ n ∈ [ascii "Host", ascii "X-Forwarded-For", ascii "X-Real-IP",
      ascii "X-Forwarded-Proto", ascii "X-Forwarded-Host", ascii "X-Request-Id"],
      eqIgnoreAsciiCase n name = false) (hop : Hop) (endpoint : SocketAddr) (framing : Framing)
    (close : Bool) (upgrade : Option Bytes) (fresh : HexId) :
    (named (readBack (upstreamFields head buf hop endpoint framing close upgrade fresh))
      name).map (·.2) =
      (if isForwardable head buf name then (head.headersNamed buf name).map (·.2) else []) ++
        (named (readBack (closingList framing close upgrade)) name).map (·.2) := by
  have hfields := named_values_forwarded hread
    (fun a b h => isForwardable_congr h head buf) name
  have hhop : named (readBack (hopList head buf hop endpoint fresh)) name = [] := by
    rw [named_readBack, named_hopList hname]
    rfl
  simp only [upstreamFields, readBack_append, named_append, List.map_append, hfields, hhop,
    List.append_nil]

theorem upstream_lengths (hread : ∀ f ∈ head.iter buf, FieldRead f) (hop : Hop)
    (endpoint : SocketAddr) (framing : Framing) (close : Bool) (upgrade : Option Bytes)
    (fresh : HexId) :
    (named (readBack (upstreamFields head buf hop endpoint framing close upgrade fresh))
      (ascii "content-length")).map (·.2) = keptLengths head buf := by
  rw [upstream_named hread (by decide), (named_closingList_values framing close upgrade).1,
    isForwardable_contentLength]
  cases hlisted : connectionLists head buf (ascii "content-length") <;> simp [keptLengths, hlisted]

theorem upstream_codings (hread : ∀ f ∈ head.iter buf, FieldRead f) (hop : Hop)
    (endpoint : SocketAddr) (framing : Framing) (close : Bool) (upgrade : Option Bytes)
    (fresh : HexId) :
    (named (readBack (upstreamFields head buf hop endpoint framing close upgrade fresh))
      (ascii "transfer-encoding")).map (·.2) = restatedCodings framing := by
  have hdropped : isForwardable head buf (ascii "transfer-encoding") = false := by
    simp [isForwardable, hopByHop_transferEncoding]
  rw [upstream_named hread (by decide), (named_closingList_values framing close upgrade).2.1,
    hdropped]
  simp [restatedCodings]

/-- At most one site is named upstream, the client's or the endpoint's. -/
theorem upstream_hosts
    (hhost : (head.headersNamed buf (ascii "host")).length ≤ 1) (hop : Hop)
    (endpoint : SocketAddr) (framing : Framing) (close : Bool) (upgrade : Option Bytes)
    (fresh : HexId) :
    (named (readBack (upstreamFields head buf hop endpoint framing close upgrade fresh))
      (ascii "host")).length ≤ 1 := by
  have hkept : (named ((head.iter buf).filter fun f => isForwardable head buf f.1)
      (ascii "host")).length ≤ (head.headersNamed buf (ascii "host")).length := by
    rw [named_filter _ fun a b h => isForwardable_congr h head buf]
    split <;> simp [Head.headersNamed]
  have hhop : (named (hopList head buf hop endpoint fresh) (ascii "host")).length =
      if (head.headersNamed buf (ascii "host")).isEmpty then 1 else 0 := by
    simp only [hopList]
    cases head.header buf (ascii "host") <;> split <;> rfl
  have hclosing := (named_closingList_values framing close upgrade).2.2
  have hseen : (head.headersNamed buf (ascii "host")).isEmpty = true ↔
      (head.headersNamed buf (ascii "host")).length = 0 := by simp
  rw [upstreamFields, readBack_append, readBack_append, named_append, named_append, hclosing]
  rw [List.length_append, List.length_append, named_readBack, named_readBack,
    readBack_length, readBack_length, hhop, List.length_nil]
  by_cases hempty : (head.headersNamed buf (ascii "host")).isEmpty = true
  · have hnone := hseen.mp hempty
    rw [if_pos hempty]
    omega
  · rw [if_neg hempty]
    omega

theorem downstream_lengths (hread : ∀ f ∈ head.iter buf, FieldRead f) (framing : Framing)
    (close : Bool) (upgrade : Option Bytes) :
    (named (readBack (downstreamFields head buf framing close upgrade))
      (ascii "content-length")).map (·.2) = keptLengths head buf := by
  have hfields := named_values_forwarded hread (fun a b h => isRelayed_congr h head buf)
    (ascii "content-length")
  rw [downstreamFields, readBack_append, named_append, List.map_append, hfields,
    (named_closingList_values framing close upgrade).1, isRelayed_contentLength]
  cases hlisted : connectionLists head buf (ascii "content-length") <;> simp [keptLengths, hlisted]

theorem downstream_codings (hread : ∀ f ∈ head.iter buf, FieldRead f) (framing : Framing)
    (close : Bool) (upgrade : Option Bytes) :
    (named (readBack (downstreamFields head buf framing close upgrade))
      (ascii "transfer-encoding")).map (·.2) = restatedCodings framing := by
  have hfields := named_values_forwarded hread (fun a b h => isRelayed_congr h head buf)
    (ascii "transfer-encoding")
  have hdropped : isRelayed head buf (ascii "transfer-encoding") = false := by
    simp [isRelayed, hopByHop_transferEncoding]
  rw [downstreamFields, readBack_append, named_append, List.map_append, hfields,
    (named_closingList_values framing close upgrade).2.1, hdropped]
  simp [restatedCodings]

end NamedFields

section Framing

variable {head : Head} {buf : Bytes}

/-- Reading a restated coding list says whether the framing was chunked. -/
private theorem chunkedValues_restated (framing : Framing) :
    chunkedValues (restatedCodings framing) false = .ok (decide (framing = .chunked)) := by
  unfold restatedCodings
  by_cases h : framing = .chunked
  · simp only [h, if_true]
    decide
  · simp [h, chunkedValues]

/-- The length left for the next hop: none once `Connection` has dropped it. -/
theorem lengthValues_kept {length : Option Nat}
    (hlength : contentLength head buf = .ok length) :
    lengthValues (keptLengths head buf) =
      .ok (if connectionLists head buf (ascii "content-length") then none else length) := by
  unfold keptLengths
  split
  · rfl
  · exact hlength

/-- What the two readings of an accepted request head establish about its framing. -/
theorem requestFraming_cases {framing : Framing} (h : requestFraming head buf = .ok framing) :
    (framing = .chunked ∧ contentLength head buf = .ok none) ∨
      (framing = .empty ∧ (contentLength head buf = .ok none ∨
        contentLength head buf = .ok (some 0))) ∨
      ∃ n, framing = .length n ∧ n ≠ 0 ∧ contentLength head buf = .ok (some n) := by
  obtain ⟨chunked, hchunked, h⟩ := bind_eq_ok.mp h
  obtain ⟨length, hlength, h⟩ := bind_eq_ok.mp h
  rcases chunked with _ | _ <;> rcases length with _ | _ | n
  · cases h
    exact Or.inr (Or.inl ⟨rfl, Or.inl hlength⟩)
  · cases h
    exact Or.inr (Or.inl ⟨rfl, Or.inr hlength⟩)
  · cases h
    exact Or.inr (Or.inr ⟨n + 1, rfl, by omega, hlength⟩)
  · cases h
    exact Or.inl ⟨rfl, hlength⟩
  · cases h
  · cases h

/-- And what the reading of an accepted response head establishes about its own. -/
theorem responseFraming_cases {framing : Framing} {code : Nat} {reason : Span}
    {version : Version} {methodWasHead : Bool} (hstart : head.start = .status code reason version)
    (h : responseFraming head buf methodWasHead = .ok framing) :
    (bodyless code methodWasHead = true ∧ framing = .empty) ∨
      (bodyless code methodWasHead = false ∧
        ((framing = .chunked ∧ contentLength head buf = .ok none) ∨
          (framing = .untilClose ∧ contentLength head buf = .ok none) ∨
          (framing = .empty ∧ contentLength head buf = .ok (some 0)) ∨
          ∃ n, framing = .length n ∧ n ≠ 0 ∧ contentLength head buf = .ok (some n))) := by
  simp only [responseFraming, hstart] at h
  cases hbodyless : bodyless code methodWasHead with
  | true =>
      simp only [hbodyless, if_true] at h
      cases h
      exact Or.inl ⟨rfl, rfl⟩
  | false =>
      simp only [hbodyless, Bool.false_eq_true, if_false] at h
      refine Or.inr ⟨rfl, ?_⟩
      obtain ⟨chunked, hchunked, h⟩ := bind_eq_ok.mp h
      obtain ⟨length, hlength, h⟩ := bind_eq_ok.mp h
      rcases chunked with _ | _ <;> rcases length with _ | _ | n
      · cases h
        exact Or.inr (Or.inl ⟨rfl, hlength⟩)
      · cases h
        exact Or.inr (Or.inr (Or.inl ⟨rfl, hlength⟩))
      · cases h
        exact Or.inr (Or.inr (Or.inr ⟨n + 1, rfl, by omega, hlength⟩))
      · cases h
        exact Or.inl ⟨rfl, hlength⟩
      · cases h
      · cases h

end Framing

section Reparse

/-- The framing a second reading of an emitted request head arrives at. -/
def reparseRequestFraming (out : Bytes) : Option Framing :=
  match parseRequestHead Limits.unlimited out {} with
  | (.ok true, head) => (requestFraming head out).toOption
  | _ => none

/-- The framing a second reading of an emitted response head arrives at. -/
def reparseResponseFraming (out : Bytes) (methodWasHead : Bool) : Option Framing :=
  match parseResponseHead Limits.unlimited out {} with
  | (.ok true, head) => (responseFraming head out methodWasHead).toOption
  | _ => none

variable {head : Head} {buf : Bytes} {framing : Framing} {upgrade : Option Bytes}

/-- The request line this hop writes is one its own parser accepts. -/
theorem parseRequestLine_written {method target : Span}
    (h : RequestLineOk buf method target) :
    ∃ start, parseRequestLine
        (method.bytes buf ++ 32 :: (target.bytes buf ++ 32 :: ascii "HTTP/1.1")) = .ok start := by
  have hmethod : (32 : UInt8) ∉ method.bytes buf :=
    fun hin => (isTchar_ne (h.method_tchar _ hin)).2.1 rfl
  have htarget : (32 : UInt8) ∉ target.bytes buf :=
    fun hin => h.target_clean _ hin (Or.inl (by decide))
  have hsplit : splitn (32 : UInt8) 3
      (method.bytes buf ++ 32 :: (target.bytes buf ++ 32 :: ascii "HTTP/1.1")) =
        [method.bytes buf, target.bytes buf, ascii "HTTP/1.1"] := by
    simp only [splitn, splitOnce_append hmethod, splitOnce_append htarget]
  have hm : ((method.bytes buf).isEmpty || !(method.bytes buf).all isTchar) = false := by
    have hall : (method.bytes buf).all isTchar = true := by simpa using h.method_tchar
    simp [hall, h.method_ne]
  have ht : (target.bytes buf).isEmpty = false := by simpa using h.target_ne
  have hc : ((target.bytes buf).any fun b => b ≤ 0x20 || b == 0x7f) = false := by
    rw [List.any_eq_false]
    intro b hb
    simpa using h.target_clean b hb
  have hv : parseVersion (ascii "HTTP/1.1") = .ok .http11 := by decide
  simp only [parseRequestLine, hsplit, hm, ht, hc, hv]
  exact ⟨_, rfl⟩

theorem crlfFree_requestLine {method target : Span} (h : RequestLineOk buf method target) :
    CrlfFree (method.bytes buf ++ 32 :: (target.bytes buf ++ 32 :: ascii "HTTP/1.1")) := by
  refine crlfFree_of_not_mem ?_
  simp only [List.mem_append, List.mem_cons, not_or]
  refine ⟨fun hin => (isTchar_ne (h.method_tchar _ hin)).1 rfl, by decide, ?_, by decide, by decide⟩
  exact fun hin => h.target_clean _ hin (Or.inl (by decide))

/-- The second reading of a rewritten request sees the restated coding and the kept lengths. -/
private theorem reparseRequestFraming_eq {h0 : Head}
    (hparse : parseRequestHead Limits.standard buf h0 = (.ok true, head))
    (hframing : requestFraming head buf = .ok framing) (hupgrade : ∀ p ∈ upgrade, Clean p)
    (hop : Hop) (endpoint : SocketAddr) (close : Bool) (fresh : HexId) :
    reparseRequestFraming
        (writeUpstreamRequest head buf hop endpoint framing close upgrade fresh) =
      if connectionLists head buf (ascii "content-length") ∧ framing ≠ .chunked then some .empty
      else some framing := by
  obtain ⟨method, target, version, hstart, hline, hread, hhost⟩ := accepted_request hparse
  obtain ⟨start, hwritten⟩ := parseRequestLine_written hline
  obtain ⟨reread, hreparse, -, hiter⟩ := parseRequestHead_written hwritten
    (crlfFree_requestLine hline)
    (fieldOk_upstreamFields hread hupgrade hop endpoint framing close fresh)
    (upstream_hosts hhost hop endpoint framing close upgrade fresh)
  have hcodings := upstream_codings hread hop endpoint framing close upgrade fresh
  have hlengths := upstream_lengths hread hop endpoint framing close upgrade fresh
  rw [writeUpstreamRequest_eq head buf hop endpoint framing close upgrade fresh hstart]
  rw [← hiter] at hcodings hlengths
  simp only [reparseRequestFraming, hreparse, requestFraming, transferEncodingIsChunked,
    contentLength, Head.headersNamed, hcodings, hlengths, chunkedValues_restated]
  -- Only a framing by length is lost, and only when the length itself was listed.
  rcases requestFraming_cases hframing with ⟨rfl, hlength⟩ | ⟨rfl, hlength⟩ | ⟨n, rfl, hn, hlength⟩
  · rw [lengthValues_kept hlength]
    simp [bind, Except.bind, pure, Except.pure, Except.toOption]
  · rcases hlength with hlength | hlength <;> rw [lengthValues_kept hlength]
    · simp [bind, Except.bind, pure, Except.pure, Except.toOption]
    · split <;> simp [bind, Except.bind, pure, Except.pure, Except.toOption]
  · rw [lengthValues_kept hlength]
    split <;> simp_all [bind, Except.bind, pure, Except.pure, Except.toOption]

private theorem digitByte_read {d : Nat} (h : d < 10) :
    isAsciiDigit (digitByte d) = true ∧ (digitByte d - 48).toNat = d := by
  have hall : ∀ d < 10, isAsciiDigit (digitByte d) = true ∧ (digitByte d - 48).toNat = d := by
    decide
  exact hall d h

private theorem statusCode_decimal {code : Nat} (h : code < 1000) :
    statusCode (decimal code) = if 100 ≤ code then some code else none := by
  rw [decimal, numeral]
  by_cases hone : code < 10
  · rw [if_pos (Or.inr hone), if_neg (by omega)]
    rfl
  · rw [if_neg (by omega), numeral]
    by_cases htwo : code / 10 < 10
    · rw [if_pos (Or.inr htwo), if_neg (by omega)]
      rfl
    · obtain ⟨hfirst, hhundreds⟩ := digitByte_read (show code / 10 / 10 < 10 by omega)
      obtain ⟨hsecond, htens⟩ := digitByte_read (show code / 10 % 10 < 10 by omega)
      obtain ⟨hthird, hunits⟩ := digitByte_read (show code % 10 < 10 by omega)
      rw [if_neg (by omega), numeral, if_pos (by omega), if_pos (by omega)]
      simp only [List.cons_append, List.nil_append, statusCode, hfirst, hsecond, hthird,
        Bool.and_self, if_true, hhundreds, htens, hunits]
      congr 1
      omega

/-- The status line written for a code is read back as that code, given its three digits. -/
theorem parseStatusLine_written {code : Nat} (hcode : code < 1000) (reason : Bytes) :
    parseStatusLine (ascii "HTTP/1.1" ++ 32 :: (decimal code ++ 32 :: reason)) =
      if 100 ≤ code then
        .ok (.status code (if reason.isEmpty then Span.EMPTY else
          ⟨versionLen (ascii "HTTP/1.1" ++ 32 :: (decimal code ++ 32 :: reason)) + 1 + 3 + 1,
            reason.length⟩) .http11)
      else .error (.malformed "status code is not three digits") := by
  have hdecimal : (32 : UInt8) ∉ decimal code := by
    intro hin
    have halnum := isAsciiAlphanumeric_of_mem_numeral (by omega) (by omega) hin
    revert halnum
    decide
  have hsplit : splitn (32 : UInt8) 3 (ascii "HTTP/1.1" ++ 32 :: (decimal code ++ 32 :: reason)) =
      [ascii "HTTP/1.1", decimal code, reason] := by
    simp only [splitn, splitOnce_append (show (32 : UInt8) ∉ ascii "HTTP/1.1" by decide),
      splitOnce_append hdecimal]
  have hv : parseVersion (ascii "HTTP/1.1") = .ok .http11 := by decide
  simp only [parseStatusLine, hsplit, hv, statusCode_decimal hcode, List.headD_cons]
  split
  · rename_i hnone
    split at hnone
    · cases hnone
    · simp_all [bind, Except.bind]
  · rename_i c hsome
    split at hsome
    · simp_all [bind, Except.bind, pure, Except.pure]
    · cases hsome

theorem crlfFree_statusLine (code : Nat) {reason : Bytes} (h : CrlfFree reason) :
    CrlfFree (ascii "HTTP/1.1" ++ 32 :: (decimal code ++ 32 :: reason)) := by
  have hdecimal : (13 : UInt8) ∉ decimal code := fun hin => isControl_ne (clean_decimal code _ hin) rfl
  have hpre : (13 : UInt8) ∉ ascii "HTTP/1.1" ++ 32 :: (decimal code ++ [32]) := by
    simp only [List.mem_append, List.mem_cons, not_or]
    exact ⟨by decide, by decide, hdecimal, by decide⟩
  simpa using h.append_of_not_mem hpre

/-- The second reading of a rewritten response: refused below code one hundred, else as kept. -/
private theorem reparseResponseFraming_eq {reasonOf : Nat → Bytes}
    (hreason : ∀ code, CrlfFree (reasonOf code)) {h0 : Head} {methodWasHead : Bool}
    (hparse : parseResponseHead Limits.standard buf h0 = (.ok true, head))
    (hframing : responseFraming head buf methodWasHead = .ok framing)
    (hupgrade : ∀ p ∈ upgrade, Clean p) (close : Bool) {code : Nat}
    (hstatus : head.status = some code) :
    reparseResponseFraming
        (writeDownstreamResponse reasonOf head buf framing close upgrade) methodWasHead =
      if 100 ≤ code then
        if connectionLists head buf (ascii "content-length") ∧
            bodyless code methodWasHead = false ∧ framing ≠ .chunked then some .untilClose
        else some framing
      else none := by
  obtain ⟨code', reason, version, hstart, hcode, hfree, hread⟩ := accepted_response hparse
  obtain rfl : code' = code := by simpa [Head.status, hstart] using hstatus
  have hphrase : CrlfFree (if reason.isEmpty then reasonOf code' else reason.bytes buf) := by
    split
    · exact hreason code'
    · exact hfree
  have hfields := fieldOk_downstreamFields hread hupgrade framing close
  have hwritten := parseStatusLine_written hcode
    (if reason.isEmpty then reasonOf code' else reason.bytes buf)
  rw [writeDownstreamResponse_eq head buf framing close upgrade reasonOf hstart]
  by_cases hdigits : 100 ≤ code'
  · rw [if_pos hdigits] at hwritten ⊢
    obtain ⟨reread, hreparse, hrestart, hiter⟩ :=
      parseResponseHead_written hwritten (crlfFree_statusLine code' hphrase) hfields
    have hcodings := downstream_codings hread framing close upgrade
    have hlengths := downstream_lengths hread framing close upgrade
    rw [← hiter] at hcodings hlengths
    simp only [reparseResponseFraming, hreparse, responseFraming, hrestart,
      transferEncodingIsChunked, contentLength, Head.headersNamed, hcodings, hlengths,
      chunkedValues_restated]
    rcases responseFraming_cases hstart hframing with ⟨hbodyless, rfl⟩ | ⟨hbodyless, hcases⟩
    · simp [hbodyless, Except.toOption]
    · simp only [hbodyless, Bool.false_eq_true, if_false]
      rcases hcases with ⟨rfl, hlength⟩ | ⟨rfl, hlength⟩ | ⟨rfl, hlength⟩ | ⟨n, rfl, hn, hlength⟩
      · rw [lengthValues_kept hlength]
        simp [bind, Except.bind, pure, Except.pure, Except.toOption]
      · rw [lengthValues_kept hlength]
        simp [bind, Except.bind, pure, Except.pure, Except.toOption]
      · rw [lengthValues_kept hlength]
        split <;> simp_all [bind, Except.bind, pure, Except.pure, Except.toOption]
      · rw [lengthValues_kept hlength]
        split <;> simp_all [bind, Except.bind, pure, Except.pure, Except.toOption]
  · rw [if_neg hdigits] at hwritten ⊢
    have hrefused := parseResponseHead_written_error hwritten
      (crlfFree_statusLine code' hphrase) hfields
    simp only [reparseResponseFraming]
    split
    · rename_i reread hreparse
      rw [hreparse] at hrefused
      cases hrefused
    · rfl

end Reparse

section Agreement

/-- A protocol the engine restates: absent, or named by an accepted head of the exchange. -/
def Restated (upgrade : Option Bytes) : Prop :=
  ∀ p ∈ upgrade, ∃ buf h0 head,
    (parseRequestHead Limits.standard buf h0 = (.ok true, head) ∨
      parseResponseHead Limits.standard buf h0 = (.ok true, head)) ∧
    upgradeProtocol head buf = some p

theorem Restated.clean {upgrade : Option Bytes} (h : Restated upgrade) :
    ∀ p ∈ upgrade, Clean p := by
  intro p hp
  obtain ⟨buf, h0, head, hparse, hprotocol⟩ := h p hp
  rcases hparse with hparse | hparse
  · obtain ⟨_, _, _, _, _, hread, _⟩ := accepted_request hparse
    exact clean_upgradeProtocol hread hprotocol
  · obtain ⟨_, _, _, _, _, _, hread⟩ := accepted_response hparse
    exact clean_upgradeProtocol hread hprotocol

/-- The request a hop emits is framed as it is relayed, for one accepted head. -/
def RequestAgrees (head : Head) (buf : Bytes) (framing : Framing) (hop : Hop)
    (endpoint : SocketAddr) (close : Bool) (upgrade : Option Bytes) (fresh : HexId) : Prop :=
  reparseRequestFraming
    (writeUpstreamRequest head buf hop endpoint framing close upgrade fresh) = some framing

/-- The response a hop emits is framed as it is relayed, for one accepted head. -/
def ResponseAgrees (reasonOf : Nat → Bytes) (head : Head) (buf : Bytes) (framing : Framing)
    (methodWasHead close : Bool) (upgrade : Option Bytes) : Prop :=
  reparseResponseFraming
    (writeDownstreamResponse reasonOf head buf framing close upgrade) methodWasHead = some framing

/-- `Connection` names the `Content-Length` that declares a body. -/
def dropsDeclaredLength (head : Head) (buf : Bytes) : Bool :=
  connectionLists head buf (ascii "content-length") &&
    match contentLength head buf with
    | .ok (some n) => n != 0
    | _ => false

/-- `Connection` names the `Content-Length` that delimits a response of this status. -/
def dropsDelimitingLength (head : Head) (buf : Bytes) (code : Nat) (methodWasHead : Bool) : Bool :=
  connectionLists head buf (ascii "content-length") && !bodyless code methodWasHead &&
    match contentLength head buf with
    | .ok (some _) => true
    | _ => false

theorem request_agrees_iff {buf : Bytes} {h0 head : Head}
    (hparse : parseRequestHead Limits.standard buf h0 = (.ok true, head)) {framing : Framing}
    (hframing : requestFraming head buf = .ok framing) {upgrade : Option Bytes}
    (hupgrade : Restated upgrade) (hop : Hop) (endpoint : SocketAddr) (close : Bool)
    (fresh : HexId) :
    RequestAgrees head buf framing hop endpoint close upgrade fresh ↔
      dropsDeclaredLength head buf = false := by
  rw [RequestAgrees, reparseRequestFraming_eq hparse hframing hupgrade.clean]
  unfold dropsDeclaredLength
  cases connectionLists head buf (ascii "content-length") with
  | false => simp
  | true =>
      rcases requestFraming_cases hframing with ⟨rfl, hlength⟩ | ⟨rfl, hlength⟩ |
        ⟨n, rfl, hn, hlength⟩
      · simp [hlength]
      · rcases hlength with hlength | hlength <;> simp [hlength]
      · simp [hlength, hn]

theorem response_agrees_iff {reasonOf : Nat → Bytes} (hreason : ∀ code, CrlfFree (reasonOf code))
    {buf : Bytes} {h0 head : Head}
    (hparse : parseResponseHead Limits.standard buf h0 = (.ok true, head)) {framing : Framing}
    {methodWasHead : Bool} (hframing : responseFraming head buf methodWasHead = .ok framing)
    {upgrade : Option Bytes} (hupgrade : Restated upgrade) (close : Bool) {code : Nat}
    (hstatus : head.status = some code) :
    ResponseAgrees reasonOf head buf framing methodWasHead close upgrade ↔
      100 ≤ code ∧ dropsDelimitingLength head buf code methodWasHead = false := by
  obtain ⟨code', reason, version, hstart, -⟩ := accepted_response hparse
  obtain rfl : code' = code := by simpa [Head.status, hstart] using hstatus
  rw [ResponseAgrees, reparseResponseFraming_eq hreason hparse hframing hupgrade.clean close hstatus]
  unfold dropsDelimitingLength
  by_cases hdigits : 100 ≤ code'
  · simp only [hdigits, if_true, true_and]
    cases connectionLists head buf (ascii "content-length") with
    | false => simp
    | true =>
        rcases responseFraming_cases hstart hframing with ⟨hbodyless, rfl⟩ | ⟨hbodyless, hcases⟩
        · simp [hbodyless]
        · rcases hcases with ⟨rfl, hlength⟩ | ⟨rfl, hlength⟩ | ⟨rfl, hlength⟩ |
            ⟨n, rfl, hn, hlength⟩ <;> simp [hbodyless, hlength]
  · simp [hdigits]

/-- Every accepted head, in either direction, is emitted with the framing it is relayed under. -/
def HeadsAgree (reasonOf : Nat → Bytes) : Prop :=
  (∀ buf h0 head framing upgrade hop endpoint close fresh,
    parseRequestHead Limits.standard buf h0 = (.ok true, head) →
    requestFraming head buf = .ok framing → Restated upgrade →
    RequestAgrees head buf framing hop endpoint close upgrade fresh) ∧
  ∀ buf h0 head framing methodWasHead upgrade close,
    parseResponseHead Limits.standard buf h0 = (.ok true, head) →
    responseFraming head buf methodWasHead = .ok framing → Restated upgrade →
    ResponseAgrees reasonOf head buf framing methodWasHead close upgrade

/-- The two directions agree exactly where `Connection` drops no length that delimits a body. -/
theorem framing_agreement_iff (reasonOf : Nat → Bytes) (hreason : ∀ code, CrlfFree (reasonOf code)) :
    (∀ buf h0 head framing upgrade hop endpoint close fresh,
      parseRequestHead Limits.standard buf h0 = (.ok true, head) →
      requestFraming head buf = .ok framing → Restated upgrade →
      (RequestAgrees head buf framing hop endpoint close upgrade fresh ↔
        dropsDeclaredLength head buf = false)) ∧
    ∀ buf h0 head framing methodWasHead upgrade close code,
      parseResponseHead Limits.standard buf h0 = (.ok true, head) →
      responseFraming head buf methodWasHead = .ok framing → Restated upgrade →
      head.status = some code →
      (ResponseAgrees reasonOf head buf framing methodWasHead close upgrade ↔
        100 ≤ code ∧ dropsDelimitingLength head buf code methodWasHead = false) := by
  refine ⟨?_, ?_⟩
  · intro buf h0 head framing upgrade hop endpoint close fresh hparse hframing hupgrade
    exact request_agrees_iff hparse hframing hupgrade hop endpoint close fresh
  · intro buf h0 head framing methodWasHead upgrade close code hparse hframing hupgrade hstatus
    exact response_agrees_iff hreason hparse hframing hupgrade close hstatus

private def anyPhrase (_ : Nat) : Bytes := ascii "OK"

private def anyHop : Hop := ⟨.v4 #v[198, 51, 100, 4], .http⟩

private def anyEndpoint : SocketAddr := ⟨.v4 #v[10, 0, 0, 1], 8080, 0⟩

private def anyId : HexId := ⟨List.replicate 32 48, by decide, by decide⟩

private theorem crlfFree_anyPhrase (code : Nat) : CrlfFree (anyPhrase code) :=
  crlfFree_of_not_mem (by unfold anyPhrase; decide)

/-- A plain upload and a plain download, whose lengths `Connection` leaves alone. -/
theorem framing_agreement_plain :
    (let buf := ascii "POST / HTTP/1.1\r\nHost: a\r\nContent-Length: 5\r\n\r\n"
      let head := (parseRequestHead Limits.standard buf {}).2
      RequestAgrees head buf (.length 5) anyHop anyEndpoint false none anyId) ∧
    (let buf := ascii "HTTP/1.1 200 OK\r\nConnection: close\r\nContent-Length: 5\r\n\r\n"
      let head := (parseResponseHead Limits.standard buf {}).2
      ResponseAgrees anyPhrase head buf (.length 5) false false none) := by
  have hiff := framing_agreement_iff anyPhrase crlfFree_anyPhrase
  refine ⟨?_, ?_⟩
  · rw [ascii_ofList]
    exact (hiff.1 _ {} _ (.length 5) none anyHop anyEndpoint false anyId (by decide +kernel)
      (by decide +kernel) (by simp [Restated])).mpr (by decide +kernel)
  · rw [ascii_ofList]
    exact (hiff.2 _ {} _ (.length 5) false none false 200 (by decide +kernel)
      (by decide +kernel) (by simp [Restated]) (by decide +kernel)).mpr (by decide +kernel)

private def smuggling : Bytes :=
  ascii "POST / HTTP/1.1\r\nHost: a\r\nConnection: content-length\r\nContent-Length: 5\r\n\r\n"

private def readSmuggling : Head :=
  { start := .request ⟨0, 4⟩ ⟨5, 1⟩ .http11
    headers := [⟨⟨17, 4⟩, ⟨23, 1⟩⟩, ⟨⟨26, 10⟩, ⟨38, 14⟩⟩, ⟨⟨54, 14⟩, ⟨70, 1⟩⟩]
    len := 75 }

/-- Naming `content-length` in `Connection` removes the length of a body still relayed. -/
theorem framing_agreement_smuggled : ¬ HeadsAgree anyPhrase := by
  intro hagree
  have hread : parseRequestHead Limits.standard smuggling {} = (.ok true, readSmuggling) ∧
      requestFraming readSmuggling smuggling = .ok (.length 5) ∧
      reparseRequestFraming (writeUpstreamRequest readSmuggling smuggling anyHop anyEndpoint
        (.length 5) false none anyId) = some .empty := by
    rw [smuggling, ascii_ofList]
    decide +kernel
  obtain ⟨hparse, hframing, hempty⟩ := hread
  have hrequest := hagree.1 smuggling {} readSmuggling (.length 5) none anyHop anyEndpoint false
    anyId hparse hframing (by simp [Restated])
  rw [RequestAgrees, hempty] at hrequest
  cases hrequest

end Agreement

end Ramjet.Engine.FramingAgreement
