/- digest: What the spans of an accepted head point at: tokens, clean values, one status line. -/

import Ramjet.Base.Outcome
import Ramjet.Engine.Codec.MessageHead

set_option autoImplicit false
set_option relaxedAutoImplicit false

namespace Ramjet.Engine.Codec.AcceptedHead

open Ramjet.Base.Octets
open Ramjet.Base.Outcome
open Ramjet.Engine.Codec.MessageHead

/-- A field that can be written on one line and read back: a token and a clean value. -/
structure FieldOk (f : Bytes × Bytes) : Prop where
  name_ne : f.1 ≠ []
  name_tchar : ∀ b ∈ f.1, isTchar b = true
  value_clean : ∀ b ∈ f.2, isControl b = false

/-- A field as the parser leaves it: writable, and trimmed. -/
structure FieldRead (f : Bytes × Bytes) : Prop extends FieldOk f where
  value_trimmed : trimOws f.2 = f.2

/-- The name and the value a field's spans point at. -/
def fieldOf (buf : Bytes) (span : HeaderSpan) : Bytes × Bytes :=
  (span.name.bytes buf, span.value.bytes buf)

theorem bytes_append (pre a rest : Bytes) :
    Span.bytes ⟨pre.length, a.length⟩ (pre ++ (a ++ rest)) = a := by
  simp [Span.bytes]

/-- The spans of a field line point at its name and its trimmed value, wherever it stands. -/
theorem fieldOf_parseFieldLine {pre line : Bytes} {span : HeaderSpan} (tail : Bytes)
    (h : parseFieldLine pre.length line = .ok span) :
    ∃ name rawValue, line = name ++ 58 :: rawValue ∧ FieldOk (name, rawValue) ∧
      fieldOf (pre ++ (line ++ tail)) span = (name, trimOws rawValue) := by
  simp only [parseFieldLine] at h
  split at h
  · cases h
  split at h
  · cases h
  rename_i name rawValue hsplit
  split at h
  · cases h
  rename_i hname
  split at h
  · cases h
  rename_i hvalue
  cases h
  obtain ⟨hline, -⟩ := splitOnce_spec hsplit
  have hok : FieldOk (name, rawValue) :=
    ⟨by simp_all, by simp_all, by simpa using hvalue⟩
  refine ⟨name, rawValue, hline, hok, ?_⟩
  subst hline
  have hn : Span.bytes ⟨pre.length, name.length⟩ (pre ++ (name ++ 58 :: rawValue ++ tail)) =
      name := by
    simpa using bytes_append pre name (58 :: (rawValue ++ tail))
  have hv : Span.bytes ⟨pre.length + name.length + 1 + (rawValue.takeWhile isOws).length,
      (trimOws rawValue).length⟩ (pre ++ (name ++ 58 :: rawValue ++ tail)) =
        trimOws rawValue := by
    obtain ⟨spaces, hspaces⟩ := List.rdropWhile_prefix isOws (rawValue.dropWhile isOws)
    have hraw : rawValue = rawValue.takeWhile isOws ++ (trimOws rawValue ++ spaces) := by
      rw [trimOws, hspaces, List.takeWhile_append_dropWhile]
    have hbuf : pre ++ (name ++ 58 :: rawValue ++ tail) =
        (pre ++ name ++ [58] ++ rawValue.takeWhile isOws) ++
          (trimOws rawValue ++ (spaces ++ tail)) := by
      conv_lhs => rw [hraw]
      simp
    rw [hbuf]
    have hlen : pre.length + name.length + 1 + (rawValue.takeWhile isOws).length =
        (pre ++ name ++ [58] ++ rawValue.takeWhile isOws).length := by
      simp only [List.length_append, List.length_singleton]
    rw [hlen]
    exact bytes_append _ _ _
  rw [fieldOf, hn, hv]

theorem FieldOk.trim {name rawValue : Bytes} (h : FieldOk (name, rawValue)) :
    FieldRead (name, trimOws rawValue) where
  name_ne := h.name_ne
  name_tchar := h.name_tchar
  value_clean := fun b hb => h.value_clean b ((trimOws_within rawValue).subset hb)
  value_trimmed := trimOws_idem rawValue

/-- The line at a cursor is terminator-free and stands in the buffer at that offset. -/
theorem splitLine_fst (block : Bytes) (cursor : Nat) :
    CrlfFree (splitLine block cursor).1 ∧ (splitLine block cursor).1 <+: block.drop cursor := by
  simp only [splitLine]
  split
  · rename_i i hi
    exact ⟨not_infix_take_of_findSub (by simp [crlf]) hi, List.take_prefix _ _⟩
  · rename_i hnone
    exact ⟨(findSub_eq_none_iff crlf _).mp hnone, List.prefix_rfl⟩

private theorem fieldRead_of_parseFieldLine {buf line : Bytes} {cursor : Nat} {span : HeaderSpan}
    (h : parseFieldLine cursor line = .ok span) (hcursor : cursor ≤ buf.length)
    (hline : line <+: buf.drop cursor) : FieldRead (fieldOf buf span) := by
  obtain ⟨tail, htail⟩ := hline
  have hbuf : buf = buf.take cursor ++ (line ++ tail) := by
    rw [htail, List.take_append_drop]
  have hlen : (buf.take cursor).length = cursor := List.length_take_of_le hcursor
  rw [← hlen] at h
  obtain ⟨name, rawValue, -, hok, hfield⟩ := fieldOf_parseFieldLine tail h
  rw [hbuf, hfield]
  exact hok.trim

/-- Every field of an accepted block is a token and a clean, trimmed value. -/
theorem parseFields_fieldRead {lim : Limits} {block buf : Bytes} (hblock : block <+: buf)
    (cursor : Nat) (headers : List HeaderSpan)
    (hheaders : ∀ span ∈ headers, FieldRead (fieldOf buf span)) {result : List HeaderSpan}
    (h : parseFields lim block cursor headers = (.ok (), result)) :
    ∀ span ∈ result, FieldRead (fieldOf buf span) := by
  fun_induction parseFields lim block cursor headers with
  | case1 cursor headers hlt line next hempty ih => exact ih hheaders h
  | case2 cursor headers hlt line hempty e he => cases h
  | case3 cursor headers hlt line hempty span hspan hfull => cases h
  | case4 cursor headers hlt line next hempty span hspan hfull ih =>
      refine ih ?_ h
      intro s hs
      rcases List.mem_append.mp hs with hs | hs
      · exact hheaders s hs
      · rw [List.mem_singleton] at hs
        subst hs
        have hpre := (splitLine_fst block cursor).2.trans (hblock.drop cursor)
        have hle := hblock.length_le
        exact fieldRead_of_parseFieldLine hspan (by omega) hpre
  | case5 cursor headers hge =>
      cases h
      exact hheaders

/-- What an accepted request line holds. -/
structure RequestLineOk (buf : Bytes) (method target : Span) : Prop where
  method_ne : method.bytes buf ≠ []
  method_tchar : ∀ b ∈ method.bytes buf, isTchar b = true
  target_ne : target.bytes buf ≠ []
  target_clean : ∀ b ∈ target.bytes buf, ¬ (b ≤ 0x20 ∨ b = 0x7f)

theorem splitn_three {line a b c : Bytes} (h : splitn (32 : UInt8) 3 line = [a, b, c]) :
    line = a ++ 32 :: (b ++ 32 :: c) ∧ (32 : UInt8) ∉ a ∧ (32 : UInt8) ∉ b := by
  simp only [splitn] at h
  split at h
  · simp at h
  rename_i x y hxy
  obtain ⟨rfl, hx⟩ := splitOnce_spec hxy
  split at h
  · simp at h
  rename_i u v huv
  obtain ⟨rfl, hu⟩ := splitOnce_spec huv
  simp only [List.cons.injEq, and_true] at h
  obtain ⟨rfl, rfl, rfl⟩ := h
  exact ⟨rfl, hx, hu⟩

theorem splitn_three_tail {line a b : Bytes} {rest : List Bytes}
    (h : splitn (32 : UInt8) 3 line = a :: b :: rest) (hrest : ¬ (rest.headD []).isEmpty = true) :
    ∃ c, rest = [c] := by
  cases rest with
  | nil => simp at hrest
  | cons c more =>
      have hlen : (splitn (32 : UInt8) 3 line).length ≤ 3 := by
        simp only [splitn]
        split
        · simp
        · split <;> simp
      simp only [h, List.length_cons] at hlen
      obtain rfl : more = [] := List.length_eq_zero_iff.mp (by omega)
      exact ⟨c, rfl⟩

theorem statusCode_length {code : Bytes} {n : Nat} (h : statusCode code = some n) :
    code.length = 3 := by
  unfold statusCode at h
  split at h
  · rfl
  · cases h

theorem statusCode_lt {code : Bytes} {n : Nat} (h : statusCode code = some n) : n < 1000 := by
  unfold statusCode at h
  split at h
  · rename_i a b c
    split at h
    · rename_i hdigits
      have hdigit : ∀ d : UInt8, isAsciiDigit d = true → (d - 48).toNat ≤ 9 := by
        intro d hd
        simp only [isAsciiDigit, Bool.and_eq_true, decide_eq_true_eq] at hd
        have h1 : 48 ≤ d.toNat := hd.1
        have h2 : d.toNat ≤ 57 := hd.2
        rw [UInt8.toNat_sub_of_le _ _ hd.1]
        show d.toNat - 48 ≤ 9
        omega
      simp only [Bool.and_eq_true] at hdigits
      have ha := hdigit a hdigits.1.1
      have hb := hdigit b hdigits.1.2
      have hc := hdigit c hdigits.2
      cases h
      omega
    · cases h
  · cases h

theorem parseRequestLine_spec {line : Bytes} {start : StartLine} (tail : Bytes)
    (h : parseRequestLine line = .ok start) :
    ∃ method target version, start = .request method target version ∧
      RequestLineOk (line ++ tail) method target := by
  simp only [parseRequestLine] at h
  split at h
  · rename_i method target version hsplit
    split at h
    · cases h
    split at h
    · cases h
    split at h
    · cases h
    rename_i hmethod htarget hclean
    obtain ⟨v, -, hv⟩ := bind_eq_ok.mp h
    cases hv
    obtain ⟨hline, -, -⟩ := splitn_three hsplit
    subst hline
    have hm : Span.bytes ⟨0, method.length⟩
        (method ++ 32 :: (target ++ 32 :: version) ++ tail) = method := by
      simpa using bytes_append [] method (32 :: (target ++ 32 :: version) ++ tail)
    have ht : Span.bytes ⟨method.length + 1, target.length⟩
        (method ++ 32 :: (target ++ 32 :: version) ++ tail) = target := by
      have happ := bytes_append (method ++ [32]) target (32 :: (version ++ tail))
      simp only [List.length_append, List.length_singleton] at happ
      simpa using happ
    refine ⟨_, _, v, rfl, ⟨?_, ?_, ?_, ?_⟩⟩
    · rw [hm]
      simp_all
    · rw [hm]
      simp_all
    · rw [ht]
      simpa using htarget
    · rw [ht]
      simpa using hclean
  · cases h

/-- A status line declares a code below one thousand and a terminator-free reason. -/
theorem parseStatusLine_spec {line : Bytes} {start : StartLine} (tail : Bytes)
    (hfree : CrlfFree line) (h : parseStatusLine line = .ok start) :
    ∃ code reason version, start = .status code reason version ∧ code < 1000 ∧
      CrlfFree (reason.bytes (line ++ tail)) := by
  simp only [parseStatusLine] at h
  split at h
  · rename_i version code rest hsplit
    obtain ⟨v, -, h⟩ := bind_eq_ok.mp h
    split at h
    · cases h
    rename_i n hn
    cases h
    refine ⟨n, _, v, rfl, statusCode_lt hn, ?_⟩
    by_cases hreason : (rest.headD []).isEmpty = true
    · rw [if_pos hreason]
      exact fun hin => by simpa [Span.EMPTY, Span.bytes, crlf] using hin.length_le
    · rw [if_neg hreason]
      obtain ⟨reason, rfl⟩ : ∃ reason, rest = [reason] := splitn_three_tail hsplit hreason
      obtain ⟨hline, hversion, -⟩ := splitn_three hsplit
      subst hline
      have hlen : versionLen (version ++ 32 :: (code ++ 32 :: reason)) = version.length := by
        simp only [versionLen]
        rw [List.takeWhile_append_of_pos]
        · simp
        · intro b hb
          simp only [bne_iff_ne, ne_eq]
          rintro rfl
          exact hversion hb
      have hbytes : Span.bytes ⟨versionLen (version ++ 32 :: (code ++ 32 :: reason)) + 1 + 3 + 1,
          reason.length⟩ (version ++ 32 :: (code ++ 32 :: reason) ++ tail) = reason := by
        have hcode := statusCode_length hn
        have happ := bytes_append (version ++ [32] ++ code ++ [32]) reason tail
        simp only [List.length_append, List.length_singleton, hcode] at happ
        rw [hlen]
        simpa using happ
      rw [List.headD_cons, hbytes]
      exact hfree.of_within ⟨version ++ 32 :: (code ++ [32]), [], by simp⟩
  · cases h

theorem findHeadEnd_some {lim : Limits} {buf : Bytes} {h0 head : Head} {e : Nat}
    (h : findHeadEnd lim buf h0 = (.ok (some e), head)) : 4 ≤ e ∧ e ≤ buf.length := by
  simp only [findHeadEnd] at h
  split at h
  · rename_i e' he
    obtain ⟨i, hi, rfl⟩ := Option.map_eq_some_iff.mp he
    have hspec := (findSub_spec hi).2
    simp only [crlfcrlf, List.length_cons, List.length_nil, List.length_drop] at hspec
    split at h
    · cases h
    · cases h
      omega
  · split at h <;> cases h

/-- What a block parse that accepts has established: its start line and its fields. -/
private theorem parseBlock_accepted {lim : Limits} {startLine : Bytes → Except CodecError StartLine}
    {check : Head → Except CodecError Unit} {buf : Bytes} {e : Nat} {h0 head : Head}
    (h : parseBlock lim startLine check buf e h0 = (.ok true, head)) :
    (∃ line tail, CrlfFree line ∧ buf = line ++ tail ∧ startLine line = .ok head.start) ∧
      (∀ f ∈ head.iter buf, FieldRead f) ∧ head.len = e ∧
      ∃ read, read.headers = head.headers ∧ check read = .ok () := by
  simp only [parseBlock] at h
  split at h
  · cases h
  rename_i start hstart
  split at h
  · cases h
  rename_i headers hheaders
  split at h
  · cases h
  rename_i hcheck
  cases h
  have hline := splitLine_fst (buf.take (e - 4)) 0
  have hblock : buf.take (e - 4) <+: buf := List.take_prefix _ _
  refine ⟨?_, ?_, rfl, { h0 with start := start, headers := headers }, rfl, hcheck⟩
  · obtain ⟨tail, htail⟩ := hline.2.trans (hblock.drop 0)
    exact ⟨_, tail, hline.1, by simpa using htail.symm, hstart⟩
  · intro f hf
    obtain ⟨span, hspan, rfl⟩ := List.mem_map.mp hf
    exact parseFields_fieldRead hblock _ _ (by simp) hheaders span hspan

/-- An accepted request head: a well-formed request line over writable fields. -/
theorem accepted_request {lim : Limits} {buf : Bytes} {h0 head : Head}
    (h : parseRequestHead lim buf h0 = (.ok true, head)) :
    ∃ method target version, head.start = .request method target version ∧
      RequestLineOk buf method target ∧ (∀ f ∈ head.iter buf, FieldRead f) ∧
      (head.headersNamed buf (ascii "host")).length ≤ 1 := by
  simp only [parseRequestHead] at h
  split at h
  · cases h
  · cases h
  obtain ⟨⟨line, tail, -, hbuf, hstart⟩, hfields, -, read, hread, hcheck⟩ :=
    parseBlock_accepted h
  obtain ⟨method, target, version, hrequest, hok⟩ := parseRequestLine_spec tail hstart
  refine ⟨method, target, version, hrequest, hbuf ▸ hok, hfields, ?_⟩
  simp only [rejectDuplicateHost] at hcheck
  split at hcheck
  · cases hcheck
  rename_i hcount
  simp only [Head.headersNamed, Head.iter, hread] at hcount ⊢
  omega

/-- An accepted response head: a three-digit status over writable fields. -/
theorem accepted_response {lim : Limits} {buf : Bytes} {h0 head : Head}
    (h : parseResponseHead lim buf h0 = (.ok true, head)) :
    ∃ code reason version, head.start = .status code reason version ∧ code < 1000 ∧
      CrlfFree (reason.bytes buf) ∧ ∀ f ∈ head.iter buf, FieldRead f := by
  simp only [parseResponseHead] at h
  split at h
  · cases h
  · cases h
  obtain ⟨⟨line, tail, hfree, hbuf, hstart⟩, hfields, -⟩ := parseBlock_accepted h
  obtain ⟨code, reason, version, hstatus, hcode, hreason⟩ :=
    parseStatusLine_spec tail hfree hstart
  exact ⟨code, reason, version, hstatus, hcode, hbuf ▸ hreason, hfields⟩

/-- An accepted head lies inside the buffer it was read from, its blank line included. -/
theorem accepted_len {lim : Limits} {buf : Bytes} {h0 head : Head}
    (h : parseRequestHead lim buf h0 = (.ok true, head) ∨
      parseResponseHead lim buf h0 = (.ok true, head)) : 4 ≤ head.len ∧ head.len ≤ buf.length := by
  rcases h with h | h
  · simp only [parseRequestHead] at h
    split at h
    · cases h
    · cases h
    rename_i head' e he
    rw [(parseBlock_accepted h).2.2.1]
    exact findHeadEnd_some he
  · simp only [parseResponseHead] at h
    split at h
    · cases h
    · cases h
    rename_i head' e he
    rw [(parseBlock_accepted h).2.2.1]
    exact findHeadEnd_some he

end Ramjet.Engine.Codec.AcceptedHead
