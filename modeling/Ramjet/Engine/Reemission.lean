/- digest: Accepted heads written out again: what a second reading finds, and what could be planted. -/

import Ramjet.Base.Search
import Ramjet.Engine.FramingAgreement

set_option autoImplicit false
set_option relaxedAutoImplicit false

namespace Ramjet.Engine.Reemission

open Ramjet.Base.Octets
open Ramjet.Base.Net
open Ramjet.Base.Search
open Ramjet.Engine.Codec.MessageHead
open Ramjet.Engine.Codec.AcceptedHead
open Ramjet.Engine.Codec.BodyFraming
open Ramjet.Engine.Headers
open Ramjet.Engine.WrittenHead
open Ramjet.Engine.RewrittenFields
open Ramjet.Engine.FramingAgreement

section Trimmed

/-- Text that optional whitespace neither starts nor ends. -/
def Trimmed (v : Bytes) : Prop := trimOws v = v

def NoOws (v : Bytes) : Prop := ∀ b ∈ v, isOws b = false

theorem noOws_literal {s : String} (h : (ascii s).any isOws = false) : NoOws (ascii s) := by
  intro b hb
  simpa using List.any_eq_false.mp h b hb

theorem noOws_append {a b : Bytes} (ha : NoOws a) (hb : NoOws b) : NoOws (a ++ b) := by
  intro x hx
  rcases List.mem_append.mp hx with hx | hx
  · exact ha x hx
  · exact hb x hx

theorem noOws_of_alphanumeric {v : Bytes} (h : ∀ b ∈ v, isAsciiAlphanumeric b = true) :
    NoOws v := by
  intro b hb
  have halnum := h b hb
  by_contra hows
  simp only [Bool.not_eq_false, isOws, Bool.or_eq_true, beq_iff_eq] at hows
  rcases hows with rfl | rfl
  · revert halnum
    decide
  · revert halnum
    decide

theorem noOws_decimal (n : Nat) : NoOws (decimal n) :=
  noOws_of_alphanumeric fun _ => isAsciiAlphanumeric_of_mem_numeral (by omega) (by omega)

theorem noOws_ip (ip : IpAddr) : NoOws ip.display := by
  intro b hb
  have hoctet := IpAddr.display_octets ip b hb
  rw [isAddressOctet, Bool.or_eq_true, Bool.or_eq_true, beq_iff_eq, beq_iff_eq] at hoctet
  rcases hoctet with (halnum | rfl) | rfl
  · exact noOws_of_alphanumeric (v := [b]) (fun x hx => by rwa [List.mem_singleton.mp hx]) b
      (List.mem_singleton_self b)
  · decide
  · decide

theorem noOws_socket (a : SocketAddr) : NoOws a.display := by
  have hip := noOws_ip a.ip
  have hcolon : NoOws (ascii ":") := noOws_literal (by decide)
  have hopen : NoOws (ascii "[") := noOws_literal (by decide)
  have hscope : NoOws (ascii "%") := noOws_literal (by decide)
  have hclose : NoOws (ascii "]:") := noOws_literal (by decide)
  simp only [SocketAddr.display]
  split
  · exact noOws_append (noOws_append hip hcolon) (noOws_decimal _)
  · refine noOws_append (noOws_append (noOws_append (noOws_append hopen hip) ?_) hclose)
      (noOws_decimal _)
    split
    · intro b hb
      exact (List.not_mem_nil hb).elim
    · exact noOws_append hscope (noOws_decimal _)

/-- Text is trimmed when neither its first nor its last byte is whitespace. -/
theorem trimmed_of_ends {v : Bytes} (hfirst : ∀ b ∈ v.head?, isOws b = false)
    (hlast : ∀ b ∈ v.getLast?, isOws b = false) : Trimmed v := by
  have hdrop : v.dropWhile isOws = v := by
    cases v with
    | nil => rfl
    | cons b rest =>
        rw [List.dropWhile_cons_of_neg]
        rw [hfirst b rfl]
        decide
  rw [Trimmed, trimOws, hdrop, List.rdropWhile_eq_self_iff]
  intro hne
  rw [hlast (v.getLast hne) (List.getLast?_eq_some_getLast hne)]
  decide

theorem NoOws.trimmed {v : Bytes} (h : NoOws v) : Trimmed v :=
  trimmed_of_ends (fun b hb => h b (List.mem_of_head? hb)) (fun b hb => h b (List.mem_of_getLast? hb))

theorem Trimmed.first {v : Bytes} (h : Trimmed v) : ∀ b ∈ v.head?, isOws b = false := by
  intro b hb
  cases v with
  | nil => cases hb
  | cons c rest =>
      cases hb
      by_contra hows
      rw [Bool.not_eq_false] at hows
      have hlen := congrArg List.length h
      have hle := (List.rdropWhile_prefix isOws ((b :: rest).dropWhile isOws)).length_le
      have hdrop := (List.dropWhile_suffix isOws (l := rest)).length_le
      rw [List.dropWhile_cons_of_pos hows] at hle
      rw [trimOws, List.dropWhile_cons_of_pos hows, List.length_cons] at hlen
      omega

end Trimmed

section Fields

variable {head : Head} {buf : Bytes}

theorem trimmed_upgradeProtocol {p : Bytes} (h : upgradeProtocol head buf = some p) :
    Trimmed p := by
  simp only [upgradeProtocol] at h
  split at h
  · split at h
    · cases h
    · split at h
      · cases h
      · cases h
        exact trimOws_idem _
  · cases h

theorem Restated.trimmed {upgrade : Option Bytes} (h : Restated upgrade) :
    ∀ p ∈ upgrade, Trimmed p := by
  intro p hp
  obtain ⟨buf, h0, head, -, hprotocol⟩ := h p hp
  exact trimmed_upgradeProtocol hprotocol

theorem trimmed_requestId (fresh : HexId) : Trimmed (requestId head buf fresh) := by
  rw [requestId]
  cases hid : inboundRequestId head buf with
  | none =>
      have halnum : NoOws fresh.bytes :=
        noOws_of_alphanumeric (List.all_eq_true.mp fresh.alphanumeric)
      exact halnum.trimmed
  | some id =>
      simp only [inboundRequestId] at hid
      split at hid
      · cases hid
      · split at hid
        · cases hid
        · cases hid
          exact trimOws_idem _

private theorem trimmed_trail {trail : List Bytes} (htrail : ∀ v ∈ trail, Trimmed v ∧ v ≠ [])
    {last : Bytes} (hlast : NoOws last) (hne : last ≠ []) :
    Trimmed (trail.flatMap (fun v => v ++ ascii ", ") ++ last) := by
  refine trimmed_of_ends ?_ ?_
  · cases trail with
    | nil =>
        rw [List.flatMap_nil, List.nil_append]
        exact fun b hb => hlast b (List.mem_of_head? hb)
    | cons v trail =>
        obtain ⟨hv, hvne⟩ := htrail v List.mem_cons_self
        rw [List.flatMap_cons, List.append_assoc, List.append_assoc, List.head?_append_of_ne_nil _ hvne]
        exact hv.first
  · rw [List.getLast?_append_of_ne_nil _ hne]
    exact fun b hb => hlast b (List.mem_of_getLast? hb)

theorem trimmed_forwardedForValue (hop : Hop) : Trimmed (forwardedForValue head buf hop) := by
  refine trimmed_trail ?_ (noOws_ip hop.client) (IpAddr.display_ne_nil hop.client)
  intro v hv
  obtain ⟨hv, hne⟩ := List.mem_filter.mp hv
  obtain ⟨f, -, rfl⟩ := List.mem_map.mp hv
  refine ⟨trimOws_idem f.2, ?_⟩
  rintro hnil
  rw [hnil] at hne
  cases hne

/-- Every field this hop writes itself reads back as it was written. -/
theorem trimmed_hopList (hread : ∀ f ∈ head.iter buf, FieldRead f) (hop : Hop)
    (endpoint : SocketAddr) (fresh : HexId) :
    ∀ f ∈ hopList head buf hop endpoint fresh, Trimmed f.2 := by
  intro f hf
  simp only [hopList, List.append_assoc, List.mem_append, List.mem_cons, List.not_mem_nil,
    or_false] at hf
  rcases hf with hf | (rfl | rfl | rfl) | hf | rfl
  · split at hf
    · rw [List.mem_singleton] at hf
      subst hf
      exact (noOws_socket endpoint).trimmed
    · cases hf
  · exact trimmed_forwardedForValue hop
  · exact (noOws_ip hop.client).trimmed
  · cases hop.scheme with
    | http => show trimOws _ = _; decide
    | https => show trimOws _ = _; decide
  · split at hf
    · rename_i host hhost
      rw [List.mem_singleton] at hf
      subst hf
      obtain ⟨g, hg, rfl⟩ := header_mem hhost
      exact (hread g hg).value_trimmed
    · cases hf
  · exact trimmed_requestId fresh

theorem trimmed_closingList {upgrade : Option Bytes} (hupgrade : ∀ p ∈ upgrade, Trimmed p)
    (framing : Framing) (close : Bool) :
    ∀ f ∈ closingList framing close upgrade, Trimmed f.2 := by
  intro f hf
  rcases List.mem_append.mp hf with hf | hf
  · split at hf
    · rw [List.mem_singleton] at hf
      subst hf
      show trimOws _ = _
      decide
    · cases hf
  · cases upgrade with
    | some protocol =>
        simp only [List.mem_cons, List.not_mem_nil, or_false] at hf
        rcases hf with rfl | rfl
        · show trimOws _ = _
          decide
        · exact hupgrade protocol rfl
    | none =>
        dsimp only at hf
        split at hf
        · rw [List.mem_singleton] at hf
          subst hf
          show trimOws _ = _
          decide
        · cases hf

theorem readBack_of_trimmed {fields : List (Bytes × Bytes)} (h : ∀ f ∈ fields, Trimmed f.2) :
    readBack fields = fields := by
  induction fields with
  | nil => rfl
  | cons f fs ih =>
      have hf : trimOws f.2 = f.2 := h f List.mem_cons_self
      have hfs := ih fun g hg => h g (List.mem_cons_of_mem f hg)
      rw [readBack, List.map_cons, hf]
      rw [readBack] at hfs
      rw [hfs]

theorem readBack_upstreamFields (hread : ∀ f ∈ head.iter buf, FieldRead f)
    {upgrade : Option Bytes} (hupgrade : Restated upgrade) (hop : Hop) (endpoint : SocketAddr)
    (framing : Framing) (close : Bool) (fresh : HexId) :
    readBack (upstreamFields head buf hop endpoint framing close upgrade fresh) =
      upstreamFields head buf hop endpoint framing close upgrade fresh := by
  refine readBack_of_trimmed ?_
  intro f hf
  simp only [upstreamFields, List.mem_append] at hf
  rcases hf with (hf | hf) | hf
  · exact (hread f (List.mem_filter.mp hf).1).value_trimmed
  · exact trimmed_hopList hread hop endpoint fresh f hf
  · exact trimmed_closingList (Restated.trimmed hupgrade) framing close f hf

theorem readBack_downstreamFields (hread : ∀ f ∈ head.iter buf, FieldRead f)
    {upgrade : Option Bytes} (hupgrade : Restated upgrade) (framing : Framing) (close : Bool) :
    readBack (downstreamFields head buf framing close upgrade) =
      downstreamFields head buf framing close upgrade := by
  refine readBack_of_trimmed ?_
  intro f hf
  rcases List.mem_append.mp hf with hf | hf
  · exact (hread f (List.mem_filter.mp hf).1).value_trimmed
  · exact trimmed_closingList (Restated.trimmed hupgrade) framing close f hf

end Fields

section StatusLine

/-- The status line of a stream keeps to text, and its code starts with a digit other than zero. -/
def cleanStatusLine (buf : Bytes) : Bool :=
  !(splitLine buf 0).1.any isControl && (splitLine buf 0).1[9]? != some 48

private theorem splitn_cases {line front digits : Bytes} {more : List Bytes}
    (h : splitn (32 : UInt8) 3 line = front :: digits :: more) :
    (32 : UInt8) ∉ front ∧
      (more = [] ∧ line = front ++ 32 :: digits ∨
        ∃ phrase, more = [phrase] ∧ line = front ++ 32 :: (digits ++ 32 :: phrase)) := by
  simp only [splitn] at h
  split at h
  · simp at h
  rename_i x y hxy
  obtain ⟨rfl, hx⟩ := splitOnce_spec hxy
  split at h
  · simp only [List.cons.injEq] at h
    obtain ⟨rfl, rfl, rfl⟩ := h
    exact ⟨hx, .inl ⟨rfl, rfl⟩⟩
  · rename_i u v huv
    obtain ⟨rfl, hu⟩ := splitOnce_spec huv
    simp only [List.cons.injEq] at h
    obtain ⟨rfl, rfl, rfl⟩ := h
    exact ⟨hx, .inr ⟨v, rfl, rfl⟩⟩

private theorem parseVersion_front {front : Bytes} {v : Version} (h : parseVersion front = .ok v) :
    front.length = 8 ∧ Clean front := by
  unfold parseVersion at h
  split_ifs at h with h11 h10
  · subst h11
    exact ⟨by decide, clean_literal (by decide)⟩
  · subst h10
    exact ⟨by decide, clean_literal (by decide)⟩

/-- What stands between the spaces of a status line that parses. -/
theorem parseStatusLine_parts {line : Bytes} {code : Nat} {reason : Span} {version : Version}
    (h : parseStatusLine line = .ok (.status code reason version)) :
    ∃ front digits rest, line = front ++ 32 :: (digits ++ rest) ∧ front.length = 8 ∧
      Clean front ∧ statusCode digits = some code ∧ (rest = [] ∨ rest.head? = some 32) ∧
      ∀ tail, reason.bytes (line ++ tail) = rest.tail := by
  simp only [parseStatusLine] at h
  split at h
  · rename_i front digits more hsplit
    obtain ⟨v, hv, h⟩ := Ramjet.Base.Outcome.bind_eq_ok.mp h
    split at h
    · cases h
    rename_i n hn
    cases h
    obtain ⟨hlen, hclean⟩ := parseVersion_front hv
    obtain ⟨hfree, ⟨rfl, hline⟩ | ⟨phrase, rfl, hline⟩⟩ := splitn_cases hsplit
    · refine ⟨front, digits, [], ?_, hlen, hclean, hn, .inl rfl, fun tail => rfl⟩
      rw [hline, List.append_nil]
    · refine ⟨front, digits, 32 :: phrase, hline, hlen, hclean, hn, .inr rfl, ?_⟩
      intro tail
      rw [List.headD_cons, List.tail_cons]
      cases phrase with
      | nil => rfl
      | cons b phrase =>
          have hversion : versionLen line = 8 := by
            rw [hline, versionLen, List.takeWhile_append_of_pos]
            · simpa using hlen
            · intro x hx
              simp only [bne_iff_ne, ne_eq]
              rintro rfl
              exact hfree hx
          have hcode := statusCode_length hn
          have happ := bytes_append (front ++ [32] ++ digits ++ [32]) (b :: phrase) tail
          simp only [List.length_append, List.length_singleton, hcode, hlen] at happ
          rw [if_neg (by simp), hversion, hline]
          simpa using happ
  · cases h

theorem clean_statusCode {digits : Bytes} {code : Nat} (h : statusCode digits = some code) :
    Clean digits ∧ (digits[0]? ≠ some 48 ↔ 100 ≤ code) := by
  unfold statusCode at h
  split at h
  · rename_i a b c
    split at h
    · rename_i hdigits
      simp only [Bool.and_eq_true] at hdigits
      obtain ⟨⟨ha, hb⟩, hc⟩ := hdigits
      have halnum : ∀ x ∈ [a, b, c], isAsciiAlphanumeric x = true := by
        intro x hx
        simp only [List.mem_cons, List.not_mem_nil, or_false] at hx
        rcases hx with rfl | rfl | rfl
        · simp [isAsciiAlphanumeric, ha]
        · simp [isAsciiAlphanumeric, hb]
        · simp [isAsciiAlphanumeric, hc]
      refine ⟨clean_of_alphanumeric halnum, ?_⟩
      cases h
      have hvalue : ∀ d : UInt8, isAsciiDigit d = true →
          (d - 48).toNat = d.toNat - 48 ∧ 48 ≤ d.toNat ∧ d.toNat ≤ 57 := by
        intro d hd
        simp only [isAsciiDigit, Bool.and_eq_true, decide_eq_true_eq] at hd
        have h1 : 48 ≤ d.toNat := hd.1
        have h2 : d.toNat ≤ 57 := hd.2
        rw [UInt8.toNat_sub_of_le _ _ hd.1]
        exact ⟨rfl, h1, h2⟩
      obtain ⟨hav, ha1, ha2⟩ := hvalue a ha
      obtain ⟨hbv, hb1, hb2⟩ := hvalue b hb
      obtain ⟨hcv, hc1, hc2⟩ := hvalue c hc
      rw [hav, hbv, hcv]
      simp only [List.length_cons, List.length_nil, Nat.zero_add, Nat.reduceAdd, Nat.zero_lt_succ,
        List.getElem?_eq_getElem, List.getElem_cons_zero, ne_eq, Option.some.injEq]
      constructor
      · intro hne
        have hne' : a.toNat ≠ 48 := fun heq => hne (UInt8.toNat_inj.mp heq)
        omega
      · rintro hle rfl
        have h48 : (48 : UInt8).toNat = 48 := rfl
        omega
    · cases h
  · cases h

theorem clean_append_iff {a b : Bytes} : Clean (a ++ b) ↔ Clean a ∧ Clean b := by
  constructor
  · intro h
    exact ⟨fun x hx => h x (List.mem_append_left _ hx), fun x hx => h x (List.mem_append_right _ hx)⟩
  · rintro ⟨ha, hb⟩
    exact clean_append ha hb

theorem clean_iff_any {v : Bytes} : Clean v ↔ v.any isControl = false := by
  rw [List.any_eq_false]
  constructor
  · intro h b hb
    rw [h b hb]
    decide
  · intro h b hb
    simpa using h b hb

/-- The test on the status line is the test on the phrase and on the code it declares. -/
theorem cleanStatusLine_iff {first tail : Bytes} {code : Nat} {reason : Span} {version : Version}
    (h : parseStatusLine first = .ok (.status code reason version)) :
    (!first.any isControl && first[9]? != some 48) = true ↔
      Clean (reason.bytes (first ++ tail)) ∧ 100 ≤ code := by
  obtain ⟨front, digits, rest, rfl, hlen, hfront, hcode, hrest, hreason⟩ :=
    parseStatusLine_parts h
  obtain ⟨hdigits, hfirst⟩ := clean_statusCode hcode
  have hthree := statusCode_length hcode
  have hnine : (front ++ 32 :: (digits ++ rest))[9]? = digits[0]? := by
    rw [List.getElem?_append_right (by omega), hlen, List.getElem?_cons_succ,
      List.getElem?_append_left (by omega)]
  have hspace : Clean [32] := by
    intro b hb
    rw [List.mem_singleton.mp hb]
    decide
  have hclean : Clean (front ++ 32 :: (digits ++ rest)) ↔ Clean rest.tail := by
    have hcut : front ++ 32 :: (digits ++ rest) = (front ++ [32] ++ digits) ++ rest := by simp
    rw [hcut, clean_append_iff]
    rcases hrest with rfl | hhead
    · exact ⟨fun hb => hb.2, fun hb => ⟨clean_append (clean_append hfront hspace) hdigits, hb⟩⟩
    · obtain ⟨phrase, rfl⟩ := List.head?_eq_some_iff.mp hhead
      rw [List.tail_cons]
      constructor
      · exact fun hb x hx => hb.2 x (List.mem_cons_of_mem 32 hx)
      · exact fun hb => ⟨clean_append (clean_append hfront hspace) hdigits, clean_append hspace hb⟩
  rw [hreason tail, ← hclean, ← hfirst, ← hnine, clean_iff_any, Bool.and_eq_true,
    Bool.not_eq_true', bne_iff_ne]

/-- An accepted block ends where its terminator was found and starts with a line that parses. -/
private theorem parseBlock_line {lim : Limits} {startLine : Bytes → Except CodecError StartLine}
    {check : Head → Except CodecError Unit} {buf : Bytes} {e : Nat} {h0 head : Head}
    (h : parseBlock lim startLine check buf e h0 = (.ok true, head)) :
    head.len = e ∧ startLine (splitLine (buf.take (e - 4)) 0).1 = .ok head.start := by
  simp only [parseBlock] at h
  split at h
  · cases h
  rename_i start hstart
  split at h
  · cases h
  split at h
  · cases h
  cases h
  exact ⟨rfl, hstart⟩

theorem findHeadEnd_cut {lim : Limits} {buf : Bytes} {h0 head : Head} {e : Nat}
    (h : findHeadEnd lim buf h0 = (.ok (some e), head)) :
    ∃ rest, buf = buf.take (e - 4) ++ (crlfcrlf ++ rest) := by
  simp only [findHeadEnd] at h
  split at h
  · rename_i e' he
    obtain ⟨i, hi, rfl⟩ := Option.map_eq_some_iff.mp he
    obtain ⟨⟨rest, hrest⟩, -⟩ := findSub_spec hi
    rw [List.drop_drop] at hrest
    split at h
    · cases h
    · cases h
      refine ⟨rest, ?_⟩
      rw [hrest, Nat.add_sub_cancel, List.take_append_drop]
  · split at h <;> cases h

/-- The first line of a buffer is the first line of the head found in it. -/
theorem splitLine_head {buf block rest : Bytes} (hbuf : buf = block ++ (crlfcrlf ++ rest)) :
    (splitLine buf 0).1 = (splitLine block 0).1 := by
  simp only [splitLine, List.drop_zero]
  cases hblock : findSub crlf block with
  | some i =>
      have hle := (findSub_spec hblock).2
      rw [hbuf, findSub_append hblock]
      exact List.take_append_of_le_length (by omega)
  | none =>
      have hfree : CrlfFree block := (findSub_eq_none_iff crlf block).mp hblock
      have hcut : buf = block ++ (crlf ++ (crlf ++ rest)) := hbuf
      rw [hcut, findSub_crlf_line hfree]
      exact List.take_left

theorem accepted_statusLine {lim : Limits} {buf : Bytes} {h0 head : Head}
    (h : parseResponseHead lim buf h0 = (.ok true, head)) :
    ∃ tail, buf = (splitLine buf 0).1 ++ tail ∧ parseStatusLine (splitLine buf 0).1 = .ok head.start := by
  simp only [parseResponseHead] at h
  split at h
  · cases h
  · cases h
  rename_i head' e he
  obtain ⟨rest, hcut⟩ := findHeadEnd_cut he
  obtain ⟨tail, htail⟩ := (splitLine_fst buf 0).2
  refine ⟨tail, htail.symm, ?_⟩
  rw [splitLine_head hcut]
  exact (parseBlock_line h).2

/-- A second reading takes the whole of a written head. -/
theorem reread_len {line : Bytes} {fields : List (Bytes × Bytes)} (hfree : CrlfFree line)
    (hfields : ∀ f ∈ fields, FieldOk f) {head : Head}
    (h : parseRequestHead Limits.unlimited (writtenHead line fields) {} = (.ok true, head) ∨
      parseResponseHead Limits.unlimited (writtenHead line fields) {} = (.ok true, head)) :
    head.len = (writtenHead line fields).length := by
  have hend := findHeadEnd_written hfree hfields
  rcases h with h | h
  · simp only [parseRequestHead, hend] at h
    exact (parseBlock_line h).1
  · simp only [parseResponseHead, hend] at h
    exact (parseBlock_line h).1

end StatusLine

section Reemitted

theorem restated_none : Restated none := by
  intro p hp
  cases hp

/-- A field whose name and value hold no control byte other than tab. -/
def CleanField (f : Bytes × Bytes) : Prop := Clean f.1 ∧ Clean f.2

/-- An accepted request head that can be written out again: its elements are clean, and whatever
is written for it is read back whole as the same request line and the fields chosen for it. -/
def RequestReemits (head : Head) (buf : Bytes) : Prop :=
  ∃ method target version, head.start = .request method target version ∧
    Clean (method.bytes buf) ∧ Clean (target.bytes buf) ∧ (∀ f ∈ head.iter buf, CleanField f) ∧
    ∀ hop endpoint framing close upgrade fresh, Restated upgrade →
      let out := writeUpstreamRequest head buf hop endpoint framing close upgrade fresh
      ∃ reread, parseRequestHead Limits.unlimited out {} = (.ok true, reread) ∧
        reread.len = out.length ∧ reread.method out = some (method.bytes buf) ∧
        reread.target out = some (target.bytes buf) ∧
        reread.iter out = upstreamFields head buf hop endpoint framing close upgrade fresh

/-- The same of a response head, its status code in the place of the method and the target. -/
def ResponseReemits (reasonOf : Nat → Bytes) (head : Head) (buf : Bytes) : Prop :=
  ∃ code reason version, head.start = .status code reason version ∧
    Clean (reason.bytes buf) ∧ (∀ f ∈ head.iter buf, CleanField f) ∧
    ∀ framing close upgrade, Restated upgrade →
      let out := writeDownstreamResponse reasonOf head buf framing close upgrade
      ∃ reread, parseResponseHead Limits.unlimited out {} = (.ok true, reread) ∧
        reread.len = out.length ∧ reread.status = some code ∧
        reread.iter out = downstreamFields head buf framing close upgrade

theorem clean_of_tchar {v : Bytes} (h : ∀ b ∈ v, isTchar b = true) : Clean v := by
  have hall : ∀ n < 256, isTchar (UInt8.ofNat n) = true → isControl (UInt8.ofNat n) = false := by
    decide +kernel
  intro b hb
  have hone := hall b.toNat b.toNat_lt
  rw [UInt8.ofNat_toNat] at hone
  exact hone (h b hb)

theorem FieldRead.clean {f : Bytes × Bytes} (h : FieldRead f) : CleanField f :=
  ⟨clean_of_tchar h.name_tchar, h.value_clean⟩

/-- The request line this hop writes names the method and the target it was given. -/
theorem parseRequestLine_reread {method target : Bytes} {start : StartLine} (tail : Bytes)
    (hmethod : (32 : UInt8) ∉ method) (htarget : (32 : UInt8) ∉ target)
    (h : parseRequestLine (method ++ 32 :: (target ++ 32 :: ascii "HTTP/1.1")) = .ok start) :
    ∃ m t version, start = .request m t version ∧
      m.bytes (method ++ 32 :: (target ++ 32 :: ascii "HTTP/1.1") ++ tail) = method ∧
      t.bytes (method ++ 32 :: (target ++ 32 :: ascii "HTTP/1.1") ++ tail) = target := by
  have hsplit : splitn (32 : UInt8) 3 (method ++ 32 :: (target ++ 32 :: ascii "HTTP/1.1")) =
      [method, target, ascii "HTTP/1.1"] := by
    simp only [splitn, splitOnce_append hmethod, splitOnce_append htarget]
  simp only [parseRequestLine, hsplit] at h
  split_ifs at h
  obtain ⟨v, -, hv⟩ := Ramjet.Base.Outcome.bind_eq_ok.mp h
  cases hv
  refine ⟨_, _, v, rfl, ?_, ?_⟩
  · simpa using bytes_append [] method (32 :: (target ++ 32 :: ascii "HTTP/1.1") ++ tail)
  · have happ := bytes_append (method ++ [32]) target (32 :: (ascii "HTTP/1.1" ++ tail))
    simp only [List.length_append, List.length_singleton] at happ
    simpa using happ

theorem request_reemits {lim : Limits} {buf : Bytes} {h0 head : Head}
    (h : parseRequestHead lim buf h0 = (.ok true, head)) : RequestReemits head buf := by
  obtain ⟨method, target, version, hstart, hline, hread, hhost⟩ := accepted_request h
  have hmethod : (32 : UInt8) ∉ method.bytes buf :=
    fun hin => (isTchar_ne (hline.method_tchar _ hin)).2.1 rfl
  have htarget : (32 : UInt8) ∉ target.bytes buf :=
    fun hin => hline.target_clean _ hin (Or.inl (by decide))
  refine ⟨method, target, version, hstart, clean_of_tchar hline.method_tchar, ?_,
    fun f hf => FieldRead.clean (hread f hf), ?_⟩
  · intro b hb
    have hclean := hline.target_clean b hb
    have hlow : ¬ b < 0x20 := fun hb => hclean (.inl (UInt8.le_of_lt hb))
    have hdel : ¬ b = 0x7f := fun hb => hclean (.inr hb)
    simp [isControl, hlow, hdel]
  · intro hop endpoint framing close upgrade fresh hupgrade
    have hfields := fieldOk_upstreamFields hread hupgrade.clean hop endpoint framing close fresh
    have hfree := crlfFree_requestLine hline
    obtain ⟨start, hwritten⟩ := parseRequestLine_written hline
    obtain ⟨reread, hparse, hrestart, hiter⟩ := parseRequestHead_written hwritten hfree hfields
      (upstream_hosts hhost hop endpoint framing close upgrade fresh)
    obtain ⟨m, t, v, rfl, hm, ht⟩ := parseRequestLine_reread
      (crlf ++ ((upstreamFields head buf hop endpoint framing close upgrade fresh).flatMap
        (fun f => field f.1 f.2) ++ crlf)) hmethod htarget hwritten
    rw [writeUpstreamRequest_eq head buf hop endpoint framing close upgrade fresh hstart]
    refine ⟨reread, hparse, reread_len hfree hfields (.inl hparse), ?_, ?_, ?_⟩
    · rw [Head.method, hrestart]
      exact congrArg some hm
    · rw [Head.target, hrestart]
      exact congrArg some ht
    · rw [hiter]
      exact readBack_upstreamFields hread hupgrade hop endpoint framing close fresh

theorem response_reemits_iff {reasonOf : Nat → Bytes} (hreason : ∀ code, Clean (reasonOf code))
    {lim : Limits} {buf : Bytes} {h0 head : Head}
    (h : parseResponseHead lim buf h0 = (.ok true, head)) :
    ResponseReemits reasonOf head buf ↔ cleanStatusLine buf = true := by
  obtain ⟨code, reason, version, hstart, hcode, hfree, hread⟩ := accepted_response h
  obtain ⟨tail, hbuf, hparsed⟩ := accepted_statusLine h
  rw [hstart] at hparsed
  have htest := @cleanStatusLine_iff _ tail _ _ _ hparsed
  rw [← hbuf] at htest
  rw [cleanStatusLine, htest]
  have hphrase : CrlfFree (if reason.isEmpty then reasonOf code else reason.bytes buf) := by
    split
    · exact crlfFree_of_not_mem fun hin => isControl_ne (hreason code _ hin) rfl
    · exact hfree
  have hline := crlfFree_statusLine code hphrase
  have hwritten := parseStatusLine_written hcode
    (if reason.isEmpty then reasonOf code else reason.bytes buf)
  constructor
  · rintro ⟨code', reason', version', hstart', hclean, -, hagain⟩
    rw [hstart] at hstart'
    cases hstart'
    refine ⟨hclean, ?_⟩
    by_contra hshort
    rw [if_neg hshort] at hwritten
    have hfields := fieldOk_downstreamFields hread (Restated.clean restated_none) Framing.empty false
    have hrefused := parseResponseHead_written_error hwritten hline hfields
    obtain ⟨reread, hparse, -⟩ := hagain .empty false none restated_none
    rw [writeDownstreamResponse_eq head buf .empty false none reasonOf hstart] at hparse
    rw [hparse] at hrefused
    cases hrefused
  · rintro ⟨hclean, hdigits⟩
    refine ⟨code, reason, version, hstart, hclean, fun f hf => FieldRead.clean (hread f hf), ?_⟩
    intro framing close upgrade hupgrade
    rw [if_pos hdigits] at hwritten
    have hfields := fieldOk_downstreamFields hread hupgrade.clean framing close
    obtain ⟨reread, hparse, hrestart, hiter⟩ := parseResponseHead_written hwritten hline hfields
    rw [writeDownstreamResponse_eq head buf framing close upgrade reasonOf hstart]
    refine ⟨reread, hparse, reread_len hline hfields (.inr hparse), ?_, ?_⟩
    · rw [Head.status, hrestart]
    · rw [hiter]
      exact readBack_downstreamFields hread hupgrade framing close

/-- Every accepted request head can be written out again, and an accepted response head exactly
where its status line is clean: the reason phrase is the one element that nothing validates, and a
code below one hundred is written with fewer than three digits. -/
theorem heads_reemit_iff (reasonOf : Nat → Bytes) (hreason : ∀ code, Clean (reasonOf code)) :
    (∀ buf h0 head, parseRequestHead Limits.standard buf h0 = (.ok true, head) →
      RequestReemits head buf) ∧
    ∀ buf h0 head, parseResponseHead Limits.standard buf h0 = (.ok true, head) →
      (ResponseReemits reasonOf head buf ↔ cleanStatusLine buf = true) := by
  refine ⟨?_, ?_⟩
  · intro buf h0 head h
    exact request_reemits h
  · intro buf h0 head h
    exact response_reemits_iff hreason h

private def okPhrase (_ : Nat) : Bytes := ascii "OK"

private theorem clean_okPhrase (code : Nat) : Clean (okPhrase code) := by
  unfold okPhrase
  exact clean_literal (by decide)

private def plainRequest : Bytes := ascii "GET /a HTTP/1.1\r\nHost: a\r\n\r\n"

private def plainResponse : Bytes := ascii "HTTP/1.1 200 OK\r\nContent-Length: 0\r\n\r\n"

/-- A plain exchange. -/
theorem heads_reemit_plain :
    RequestReemits (parseRequestHead Limits.standard plainRequest {}).2 plainRequest ∧
      ResponseReemits okPhrase (parseResponseHead Limits.standard plainResponse {}).2
        plainResponse := by
  have hall := heads_reemit_iff okPhrase clean_okPhrase
  refine ⟨?_, ?_⟩
  · exact hall.1 _ {} _ (by decide +kernel)
  · exact (hall.2 _ {} _ (by decide +kernel)).mpr (by decide +kernel)

/-- A line planted behind a bare LF in a reason phrase, which the parser accepts. -/
private def plantedLine : Bytes := ascii "HTTP/1.1 200 OK\nSet-Cookie: a=b\r\n\r\n"

theorem planted_line_accepted :
    (parseResponseHead Limits.standard plantedLine {}).1 = .ok true ∧
      ¬ ResponseReemits okPhrase (parseResponseHead Limits.standard plantedLine {}).2
        plantedLine := by
  have hparse : parseResponseHead Limits.standard plantedLine {} =
      (.ok true, (parseResponseHead Limits.standard plantedLine {}).2) := by decide +kernel
  refine ⟨by rw [hparse], ?_⟩
  rw [response_reemits_iff clean_okPhrase hparse]
  decide +kernel

end Reemitted

end Ramjet.Engine.Reemission
