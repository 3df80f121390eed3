/- digest: Heads that arrive in pieces, spans of sixteen bits, and the one answer a stream has. -/

import Mathlib.Algebra.Ring.Nat
import Ramjet.Base.Incremental
import Ramjet.Base.Search
import Ramjet.Engine.Codec.AcceptedHead

set_option autoImplicit false
set_option relaxedAutoImplicit false

namespace Ramjet.Engine.Codec.HeadArrival

open Ramjet.Base.Octets
open Ramjet.Base.Search
open Ramjet.Base.Incremental
open Ramjet.Engine.Codec.MessageHead
open Ramjet.Engine.Codec.AcceptedHead

section Spans

/-- What `Span::at` keeps of two numbers: sixteen bits of each. -/
def narrow (s : Span) : Span := ⟨s.start % 2 ^ 16, s.len % 2 ^ 16⟩

def narrowStart : StartLine → StartLine
  | .request method target version => .request (narrow method) (narrow target) version
  | .status code reason version => .status code (narrow reason) version

def narrowField (f : HeaderSpan) : HeaderSpan := ⟨narrow f.name, narrow f.value⟩

def startSpans : StartLine → List Span
  | .request method target _ => [method, target]
  | .status _ reason _ => [reason]

/-- Every span of a head. -/
def spans (h : Head) : List Span := startSpans h.start ++ h.headers.flatMap fun f => [f.name, f.value]

/-- A span that ends within the first `n` bytes. -/
def Inside (n : Nat) (s : Span) : Prop := s.start + s.len ≤ n

theorem Inside.mono {m n : Nat} {s : Span} (h : Inside m s) (hle : m ≤ n) : Inside n s :=
  Nat.le_trans h hle

theorem narrow_of_inside {n : Nat} {s : Span} (h : Inside n s) (hn : n ≤ MAX_HEAD) :
    narrow s = s := by
  have hmax : MAX_HEAD < 2 ^ 16 := by decide
  have hsum : s.start + s.len ≤ n := h
  have hstart : s.start % 2 ^ 16 = s.start := Nat.mod_eq_of_lt (by omega)
  have hlen : s.len % 2 ^ 16 = s.len := Nat.mod_eq_of_lt (by omega)
  rw [narrow, hstart, hlen]

theorem bytes_take_of_inside {n : Nat} {s : Span} (h : Inside n s) (buf : Bytes) :
    s.bytes (buf.take n) = s.bytes buf := by
  have hsum : s.start + s.len ≤ n := h
  rw [Span.bytes, Span.bytes, List.drop_take, List.take_take]
  congr 1
  omega

theorem Inside.narrow {n : Nat} {s : Span} (h : Inside n s) : Inside n (narrow s) := by
  have hsum : s.start + s.len ≤ n := h
  have hstart := Nat.mod_le s.start (2 ^ 16)
  have hlen := Nat.mod_le s.len (2 ^ 16)
  show s.start % 2 ^ 16 + s.len % 2 ^ 16 ≤ n
  omega

theorem narrowStart_of_inside {n : Nat} {start : StartLine}
    (h : ∀ s ∈ startSpans start, Inside n s) (hn : n ≤ MAX_HEAD) : narrowStart start = start := by
  cases start with
  | request method target version =>
      have hmethod := narrow_of_inside (h method (by simp [startSpans])) hn
      have htarget := narrow_of_inside (h target (by simp [startSpans])) hn
      rw [narrowStart, hmethod, htarget]
  | status code reason version =>
      have hreason := narrow_of_inside (h reason (by simp [startSpans])) hn
      rw [narrowStart, hreason]

theorem narrowFields_of_inside {n : Nat} {headers : List HeaderSpan}
    (h : ∀ f ∈ headers, Inside n f.name ∧ Inside n f.value) (hn : n ≤ MAX_HEAD) :
    headers.map narrowField = headers := by
  induction headers with
  | nil => rfl
  | cons f headers ih =>
      obtain ⟨hname, hvalue⟩ := h f List.mem_cons_self
      rw [List.map_cons, ih fun g hg => h g (List.mem_cons_of_mem f hg), narrowField,
        narrow_of_inside hname hn, narrow_of_inside hvalue hn]

end Spans

section Bounds

private theorem splitn_length {line : Bytes} {a b : Bytes} {rest : List Bytes}
    (h : splitn (32 : UInt8) 3 line = a :: b :: rest) :
    a.length + 1 + b.length + (if rest = [] then 0 else 1 + (rest.headD []).length) ≤
      line.length := by
  simp only [splitn] at h
  split at h
  · simp at h
  rename_i x y hxy
  obtain ⟨rfl, -⟩ := splitOnce_spec hxy
  split at h
  · simp only [List.cons.injEq] at h
    obtain ⟨rfl, rfl, rfl⟩ := h
    simp only [if_true, List.length_append, List.length_cons]
    omega
  · rename_i u v huv
    obtain ⟨rfl, -⟩ := splitOnce_spec huv
    simp only [List.cons.injEq] at h
    obtain ⟨rfl, rfl, rfl⟩ := h
    rw [if_neg (List.cons_ne_nil v []), List.headD_cons]
    simp only [List.length_append, List.length_cons]
    omega

private theorem versionLen_of_splitn {line a b : Bytes} {rest : List Bytes}
    (h : splitn (32 : UInt8) 3 line = a :: b :: rest) : versionLen line = a.length := by
  simp only [splitn] at h
  split at h
  · simp at h
  rename_i x y hxy
  obtain ⟨rfl, hfree⟩ := splitOnce_spec hxy
  have hx : x = a := by
    split at h
    · simp only [List.cons.injEq] at h
      exact h.1
    · simp only [List.cons.injEq] at h
      exact h.1
  subst hx
  rw [versionLen, List.takeWhile_append_of_pos]
  · simp
  · intro b hb
    simp only [bne_iff_ne, ne_eq]
    rintro rfl
    exact hfree hb

theorem parseRequestLine_inside {line : Bytes} {start : StartLine}
    (h : parseRequestLine line = .ok start) : ∀ s ∈ startSpans start, Inside line.length s := by
  simp only [parseRequestLine] at h
  split at h
  · rename_i method target version hsplit
    have hlen := splitn_length hsplit
    split at h
    · cases h
    split at h
    · cases h
    split at h
    · cases h
    obtain ⟨v, -, hv⟩ := Ramjet.Base.Outcome.bind_eq_ok.mp h
    cases hv
    intro s hs
    simp only [startSpans, List.mem_cons, List.not_mem_nil, or_false] at hs
    rcases hs with rfl | rfl
    · show 0 + method.length ≤ line.length
      omega
    · show method.length + 1 + target.length ≤ line.length
      omega
  · cases h

theorem parseStatusLine_inside {line : Bytes} {start : StartLine}
    (h : parseStatusLine line = .ok start) : ∀ s ∈ startSpans start, Inside line.length s := by
  simp only [parseStatusLine] at h
  split at h
  · rename_i version code rest hsplit
    have hlen := splitn_length hsplit
    obtain ⟨v, -, h⟩ := Ramjet.Base.Outcome.bind_eq_ok.mp h
    split at h
    · cases h
    rename_i n hn
    cases h
    intro s hs
    rw [startSpans, List.mem_singleton] at hs
    subst hs
    split
    · exact Nat.zero_le _
    · rename_i hreason
      have hrest : rest ≠ [] := by
        rintro rfl
        exact hreason rfl
      rw [if_neg hrest] at hlen
      have hcode := statusCode_length hn
      have hversion : versionLen line = version.length := versionLen_of_splitn hsplit
      show versionLen line + 1 + 3 + 1 + (rest.headD []).length ≤ line.length
      omega
  · cases h

theorem parseFieldLine_inside {base : Nat} {line : Bytes} {f : HeaderSpan}
    (h : parseFieldLine base line = .ok f) :
    Inside (base + line.length) f.name ∧ Inside (base + line.length) f.value := by
  simp only [parseFieldLine] at h
  split at h
  · cases h
  split at h
  · cases h
  rename_i name rawValue hsplit
  split at h
  · cases h
  split at h
  · cases h
  cases h
  obtain ⟨rfl, -⟩ := splitOnce_spec hsplit
  have hraw : (rawValue.takeWhile isOws).length + (trimOws rawValue).length ≤ rawValue.length := by
    have hcut := congrArg List.length (List.takeWhile_append_dropWhile (p := isOws) (l := rawValue))
    have htrim := (List.rdropWhile_prefix isOws (rawValue.dropWhile isOws)).length_le
    rw [List.length_append] at hcut
    rw [trimOws]
    omega
  simp only [List.length_append, List.length_cons]
  refine ⟨?_, ?_⟩
  · show base + name.length ≤ _
    omega
  · show base + name.length + 1 + (rawValue.takeWhile isOws).length + (trimOws rawValue).length ≤ _
    omega

theorem splitLine_length {block : Bytes} {cursor : Nat} (h : cursor ≤ block.length) :
    cursor + (splitLine block cursor).1.length ≤ block.length := by
  have hle := (splitLine_fst block cursor).2.length_le
  rw [List.length_drop] at hle
  omega

theorem parseFields_inside {lim : Limits} {block : Bytes} {cursor : Nat}
    {headers result : List HeaderSpan} {answer : Except CodecError Unit}
    (hheaders : ∀ f ∈ headers, Inside block.length f.name ∧ Inside block.length f.value)
    (h : parseFields lim block cursor headers = (answer, result)) :
    ∀ f ∈ result, Inside block.length f.name ∧ Inside block.length f.value := by
  fun_induction parseFields lim block cursor headers with
  | case1 cursor headers hlt line next hempty ih => exact ih hheaders h
  | case2 cursor headers hlt line hempty e he =>
      cases h
      exact hheaders
  | case3 cursor headers hlt line hempty span hspan hfull =>
      cases h
      exact hheaders
  | case4 cursor headers hlt line next hempty span hspan hfull ih =>
      refine ih ?_ h
      intro f hf
      rcases List.mem_append.mp hf with hf | hf
      · exact hheaders f hf
      · rw [List.mem_singleton] at hf
        subst hf
        have hline := splitLine_length (Nat.le_of_lt hlt)
        have hinside := parseFieldLine_inside hspan
        exact ⟨hinside.1.mono hline, hinside.2.mono hline⟩
  | case5 cursor headers hge =>
      cases h
      exact hheaders

end Bounds

/-- Which of the two parsers reads a head. -/
inductive Kind where
  | request
  | response
  deriving DecidableEq

def Kind.startLine : Kind → Bytes → Except CodecError StartLine
  | .request => parseRequestLine
  | .response => parseStatusLine

def Kind.check : Kind → Bytes → Head → Except CodecError Unit
  | .request => rejectDuplicateHost
  | .response => fun _ _ => .ok ()

/-- The head behind a found terminator, its spans narrowed as they are made. -/
def readBlock (kind : Kind) (buf : Bytes) (e : Nat) (out : Head) : Except CodecError Bool × Head :=
  let block := buf.take (e - 4)
  let (line, rest) := splitLine block 0
  match kind.startLine line with
  | .error err => (.error err, out)
  | .ok start =>
      let out := { out with start := narrowStart start }
      match parseFields .standard block rest [] with
      | (.error err, headers) => (.error err, { out with headers := headers.map narrowField })
      | (.ok (), headers) =>
          let out := { out with headers := headers.map narrowField }
          match kind.check buf out with
          | .error err => (.error err, out)
          | .ok () => (.ok true, { out with len := e, scanned := 0 })

/-- `parse_request_head` and `parse_response_head`; `false` asks for more bytes. -/
def parseHead (kind : Kind) (buf : Bytes) (out : Head) : Except CodecError Bool × Head :=
  match findHeadEnd .standard buf out with
  | (.error err, out) => (.error err, out)
  | (.ok none, out) => (.ok false, out)
  | (.ok (some e), out) => readBlock kind buf e out

section Narrowing

theorem startLine_inside {kind : Kind} {line : Bytes} {start : StartLine}
    (h : kind.startLine line = .ok start) : ∀ s ∈ startSpans start, Inside line.length s := by
  cases kind with
  | request => exact parseRequestLine_inside h
  | response => exact parseStatusLine_inside h

theorem findHeadEnd_le {buf : Bytes} {out next : Head} {e : Nat}
    (h : findHeadEnd .standard buf out = (.ok (some e), next)) : e ≤ MAX_HEAD := by
  simp only [findHeadEnd] at h
  split at h
  · split at h
    · cases h
    · rename_i hlimit
      cases h
      simpa [Limits.headExceeds, Limits.standard] using hlimit
  · split at h
    · cases h
    · cases h

/-- No span of a head within the limit loses a bit. -/
theorem readBlock_eq (kind : Kind) {buf : Bytes} {e : Nat} (he : e ≤ MAX_HEAD) (out : Head) :
    readBlock kind buf e out =
      parseBlock .standard kind.startLine (kind.check buf) buf e out := by
  have hblock : (buf.take (e - 4)).length ≤ MAX_HEAD := by
    rw [List.length_take]
    omega
  have hline := splitLine_length (Nat.zero_le (buf.take (e - 4)).length)
  simp only [readBlock, parseBlock]
  cases hstart : kind.startLine (splitLine (buf.take (e - 4)) 0).1 with
  | error err => rfl
  | ok start =>
      have hnarrow : narrowStart start = start :=
        narrowStart_of_inside (startLine_inside hstart) (by omega)
      cases hfields : parseFields .standard (buf.take (e - 4)) (splitLine (buf.take (e - 4)) 0).2 [] with
      | mk answer headers =>
          have hmap : headers.map narrowField = headers :=
            narrowFields_of_inside
              (parseFields_inside (fun f hf => (List.not_mem_nil hf).elim) hfields) hblock
          cases answer with
          | error err => simp only [hmap, hnarrow]
          | ok u =>
              cases u
              simp only [hmap, hnarrow]
              all_goals rfl

theorem parseHead_request (buf : Bytes) (out : Head) :
    parseHead .request buf out = parseRequestHead .standard buf out := by
  rw [parseHead, parseRequestHead]
  cases hfound : findHeadEnd .standard buf out with
  | mk found after =>
      cases found with
      | error err => rfl
      | ok located =>
          cases located with
          | none => rfl
          | some e => exact readBlock_eq .request (findHeadEnd_le hfound) after

theorem parseHead_response (buf : Bytes) (out : Head) :
    parseHead .response buf out = parseResponseHead .standard buf out := by
  rw [parseHead, parseResponseHead]
  cases hfound : findHeadEnd .standard buf out with
  | mk found after =>
      cases found with
      | error err => rfl
      | ok located =>
          cases located with
          | none => rfl
          | some e => exact readBlock_eq .response (findHeadEnd_le hfound) after

end Narrowing

/-- What a call of a parser settles, if anything: an error, or a head. -/
def answer : Except CodecError Bool × Head → Option (Except CodecError Head)
  | (.error e, _) => some (.error e)
  | (.ok true, head) => some (.ok head)
  | (.ok false, _) => none

/-- Present longer and longer prefixes with one head, up to the first answer. -/
def present (kind : Kind) (out : Head) (seen : Bytes) : List Bytes → Except CodecError Bool × Head
  | [] => (.ok false, out)
  | piece :: pieces =>
      let result := parseHead kind (seen ++ piece) out
      match answer result with
      | some _ => result
      | none => present kind result.2 (seen ++ piece) pieces

/-- What the parser settles on a stream with a fresh head. -/
def oneShot (kind : Kind) (stream : Bytes) : Option (Except CodecError Head) :=
  answer (parseHead kind stream {})

/-- A head whose cursor stands behind bytes that hold no terminator. -/
structure Resumes (out : Head) (seen : Bytes) : Prop where
  scanned : out.scanned = seen.length
  none : findSub crlfcrlf seen = none

section Arrival

theorem resumes_reset (h0 : Head) : Resumes h0.reset [] where
  scanned := rfl
  none := rfl

theorem resumes_fresh : Resumes {} [] where
  scanned := rfl
  none := rfl

/-- The search for the terminator finds what a search of the whole buffer finds. -/
theorem findHeadEnd_resumes {out : Head} {seen buf : Bytes} (h : Resumes out seen)
    (hpre : seen <+: buf) :
    (∃ i, findSub crlfcrlf buf = some i ∧
        findHeadEnd .standard buf out =
          (if MAX_HEAD < i + 4 then .error .tooLarge else .ok (some (i + 4)), out)) ∨
      (findSub crlfcrlf buf = none ∧
        findHeadEnd .standard buf out =
          (if MAX_HEAD < buf.length then .error .tooLarge else .ok none,
            { out with scanned := buf.length })) := by
  have hpat : crlfcrlf.length = 4 := rfl
  have hresume := findSub_resume hpre h.none (k := out.scanned - 3) (by rw [h.scanned]; omega)
  cases hfound : findSub crlfcrlf (buf.drop (min (out.scanned - 3) buf.length)) with
  | some j =>
      left
      rw [hfound, Option.map_some] at hresume
      refine ⟨_, hresume, ?_⟩
      simp only [findHeadEnd, hfound, Option.map_some, Limits.headExceeds, Limits.standard,
        Option.any_some, decide_eq_true_eq]
      split
      · rfl
      · rfl
  | none =>
      right
      rw [hfound, Option.map_none] at hresume
      refine ⟨hresume, ?_⟩
      simp only [findHeadEnd, hfound, Option.map_none, Limits.headExceeds, Limits.standard,
        Option.any_some, decide_eq_true_eq]
      split
      · rfl
      · rfl

/-- What a head held before it was parsed into does not change the answer. -/
theorem answer_readBlock (kind : Kind) (buf : Bytes) (e : Nat) (out : Head) :
    answer (readBlock kind buf e out) = answer (readBlock kind buf e {}) := by
  simp only [readBlock]
  cases kind.startLine (splitLine (buf.take (e - 4)) 0).1 with
  | error err => rfl
  | ok start =>
      dsimp only
      cases parseFields .standard (buf.take (e - 4)) (splitLine (buf.take (e - 4)) 0).2 [] with
      | mk result headers =>
          cases result with
          | error err => rfl
          | ok u =>
              have hcheck : kind.check buf
                    { out with start := narrowStart start, headers := headers.map narrowField } =
                  kind.check buf
                    { ({} : Head) with
                      start := narrowStart start, headers := headers.map narrowField } := by
                cases kind with
                | request => rfl
                | response => rfl
              dsimp only
              rw [hcheck]
              cases kind.check buf
                { ({} : Head) with
                  start := narrowStart start, headers := headers.map narrowField } with
              | error err => rfl
              | ok v => rfl

theorem answer_parseHead (kind : Kind) {out : Head} {seen buf : Bytes} (h : Resumes out seen)
    (hpre : seen <+: buf) : answer (parseHead kind buf out) = oneShot kind buf := by
  rw [oneShot, parseHead, parseHead]
  rcases findHeadEnd_resumes h hpre with ⟨i, hi, hout⟩ | ⟨hnone, hout⟩
  · rcases findHeadEnd_resumes resumes_fresh List.nil_prefix with ⟨j, hj, hfresh⟩ | ⟨hnone, -⟩
    · obtain rfl : i = j := by
        rw [hi] at hj
        exact Option.some.inj hj
      rw [hout, hfresh]
      split_ifs
      · rfl
      · exact answer_readBlock kind buf _ out
    · rw [hi] at hnone
      cases hnone
  · rcases findHeadEnd_resumes resumes_fresh List.nil_prefix with ⟨j, hj, -⟩ | ⟨-, hfresh⟩
    · rw [hnone] at hj
      cases hj
    · rw [hout, hfresh]
      split_ifs
      · rfl
      · rfl

theorem answer_readBlock_ne_none (kind : Kind) (buf : Bytes) (e : Nat) (out : Head) :
    answer (readBlock kind buf e out) ≠ none := by
  simp only [readBlock]
  split
  · exact Option.some_ne_none _
  · split
    · exact Option.some_ne_none _
    · split
      · exact Option.some_ne_none _
      · exact Option.some_ne_none _

/-- A call that settles nothing leaves the head as it was, its cursor behind all that arrived. -/
theorem parseHead_incomplete {kind : Kind} {out : Head} {seen buf : Bytes} (h : Resumes out seen)
    (hpre : seen <+: buf) (hnone : answer (parseHead kind buf out) = none) :
    parseHead kind buf out = (.ok false, { out with scanned := buf.length }) ∧
      Resumes (parseHead kind buf out).2 buf := by
  have hcall : parseHead kind buf out = (.ok false, { out with scanned := buf.length }) ∧
      findSub crlfcrlf buf = none := by
    rw [parseHead] at hnone ⊢
    rcases findHeadEnd_resumes h hpre with ⟨i, hi, hout⟩ | ⟨hfree, hout⟩
    · rw [hout] at hnone
      split_ifs at hnone
      · cases hnone
      · exact (answer_readBlock_ne_none kind buf _ out hnone).elim
    · rw [hout] at hnone ⊢
      split_ifs at hnone ⊢
      · cases hnone
      · exact ⟨rfl, hfree⟩
  refine ⟨hcall.1, ?_⟩
  rw [hcall.1]
  exact ⟨rfl, hcall.2⟩

theorem rejectDuplicateHost_take {buf : Bytes} {n : Nat} {out : Head}
    (h : ∀ f ∈ out.headers, Inside n f.name ∧ Inside n f.value) :
    rejectDuplicateHost (buf.take n) out = rejectDuplicateHost buf out := by
  have hiter : out.iter (buf.take n) = out.iter buf := by
    refine List.map_congr_left ?_
    intro f hf
    rw [bytes_take_of_inside (h f hf).1, bytes_take_of_inside (h f hf).2]
  rw [rejectDuplicateHost, rejectDuplicateHost, Head.headersNamed, Head.headersNamed, hiter]

/-- Bytes behind the head are not looked at. -/
theorem readBlock_take (kind : Kind) (buf : Bytes) (e : Nat) (out : Head) :
    readBlock kind (buf.take e) e out = readBlock kind buf e out := by
  have hblock : (buf.take e).take (e - 4) = buf.take (e - 4) := by
    rw [List.take_take]
    congr 1
    omega
  simp only [readBlock, hblock]
  cases kind.startLine (splitLine (buf.take (e - 4)) 0).1 with
  | error err => rfl
  | ok start =>
      dsimp only
      cases hfields : parseFields .standard (buf.take (e - 4)) (splitLine (buf.take (e - 4)) 0).2 []
      with
      | mk result headers =>
          cases result with
          | error err => rfl
          | ok u =>
              have hinside := parseFields_inside (fun f hf => (List.not_mem_nil hf).elim) hfields
              have hcheck : kind.check (buf.take e)
                    { out with start := narrowStart start, headers := headers.map narrowField } =
                  kind.check buf
                    { out with start := narrowStart start, headers := headers.map narrowField } := by
                cases kind with
                | request =>
                    refine rejectDuplicateHost_take ?_
                    intro f hf
                    obtain ⟨g, hg, rfl⟩ := List.mem_map.mp hf
                    have hle : (buf.take (e - 4)).length ≤ e := by
                      rw [List.length_take]
                      omega
                    exact ⟨((hinside g hg).1.mono hle).narrow, ((hinside g hg).2.mono hle).narrow⟩
                | response => rfl
              dsimp only
              rw [hcheck]

/-- What a stream settles: nothing yet, the limit, or what its head says. -/
theorem oneShot_cases (kind : Kind) (stream : Bytes) :
    (∃ i, findSub crlfcrlf stream = some i ∧
        oneShot kind stream =
          if MAX_HEAD < i + 4 then some (.error .tooLarge)
          else answer (readBlock kind (stream.take (i + 4)) (i + 4) {})) ∨
      (findSub crlfcrlf stream = none ∧
        oneShot kind stream =
          if MAX_HEAD < stream.length then some (.error .tooLarge) else none) := by
  rcases findHeadEnd_resumes resumes_fresh (List.nil_prefix : [] <+: stream) with
    ⟨i, hi, hfound⟩ | ⟨hnone, hfound⟩
  · left
    refine ⟨i, hi, ?_⟩
    rw [oneShot, parseHead, hfound, readBlock_take]
    split_ifs
    · rfl
    · rfl
  · right
    refine ⟨hnone, ?_⟩
    rw [oneShot, parseHead, hfound]
    split_ifs
    · rfl
    · rfl

theorem oneShot_settled (kind : Kind) : Settled (oneShot kind) := by
  intro seen more a h
  rcases oneShot_cases kind seen with ⟨i, hi, hseen⟩ | ⟨hnone, hseen⟩
  · have hle := (findSub_spec hi).2
    have hpat : crlfcrlf.length = 4 := rfl
    have hmore := findSub_append hi more
    rcases oneShot_cases kind (seen ++ more) with ⟨j, hj, hlong⟩ | ⟨hnone, -⟩
    · obtain rfl : i = j := by
        rw [hmore] at hj
        exact Option.some.inj hj
      rw [hlong, List.take_append_of_le_length (by omega), ← hseen, h]
    · rw [hmore] at hnone
      cases hnone
  · rw [hseen] at h
    split_ifs at h with hlimit
    cases h
    rcases oneShot_cases kind (seen ++ more) with ⟨j, hj, hlong⟩ | ⟨-, hlong⟩
    · rw [hlong, if_pos]
      by_contra hshort
      have hfound := findSub_of_append hj (by show j + 4 ≤ seen.length; omega)
      rw [hnone] at hfound
      cases hfound
    · rw [hlong, if_pos]
      rw [List.length_append]
      omega

/-- Prefixes presented with one head settle what readings of the stream settle. -/
theorem answer_present (kind : Kind) {out : Head} {seen : Bytes} (h : Resumes out seen)
    (hseen : oneShot kind seen = none) (pieces : List Bytes) :
    answer (present kind out seen pieces) = oneShot kind (seen ++ pieces.flatten) := by
  induction pieces generalizing out seen with
  | nil => rw [List.flatten_nil, List.append_nil, hseen, present, answer]
  | cons piece pieces ih =>
      have hpre : seen <+: seen ++ piece := List.prefix_append seen piece
      have hcall := answer_parseHead kind h hpre
      rw [present, List.flatten_cons, ← List.append_assoc]
      cases hsettled : answer (parseHead kind (seen ++ piece) out) with
      | some a =>
          dsimp only
          rw [hsettled]
          rw [hsettled] at hcall
          exact (oneShot_settled kind _ _ a hcall.symm).symm
      | none =>
          dsimp only
          rw [hsettled] at hcall
          exact ih (parseHead_incomplete h hpre hsettled).2 hcall.symm

/-- No byte behind the terminator matters. -/
theorem oneShot_of_terminated (kind : Kind) {stream : Bytes} {i : Nat}
    (hi : findSub crlfcrlf stream = some i) (tail : Bytes) :
    oneShot kind (stream.take (i + 4) ++ tail) = oneShot kind stream := by
  have hpat : crlfcrlf.length = 4 := rfl
  have hle := (findSub_spec hi).2
  have hcut := findSub_append (findSub_take hi (Nat.le_of_eq rfl)) tail
  have hlen : (stream.take (i + 4)).length = i + 4 := List.length_take_of_le (by omega)
  rcases oneShot_cases kind stream with ⟨j, hj, hshot⟩ | ⟨hnone, -⟩
  · obtain rfl : i = j := by
      rw [hi] at hj
      exact Option.some.inj hj
    rcases oneShot_cases kind (stream.take (i + 4) ++ tail) with ⟨k, hk, hother⟩ | ⟨hnone, -⟩
    · obtain rfl : i = k := by
        have hboth := hcut.symm.trans hk
        exact Option.some.inj hboth
      rw [hother, hshot, List.take_append_of_le_length (Nat.le_of_eq hlen.symm), List.take_take,
        Nat.min_self]
    · have hboth := hcut.symm.trans hnone
      cases hboth
  · rw [hi] at hnone
    cases hnone

theorem oneShot_nil (kind : Kind) : oneShot kind [] = none := by
  rcases oneShot_cases kind [] with ⟨i, hi, -⟩ | ⟨-, hnone⟩
  · cases hi
  · exact hnone

/-- An accepted block keeps its spans clear of its end and ends where the terminator does. -/
theorem readBlock_inside {kind : Kind} {buf : Bytes} {e : Nat} {out head : Head}
    (h : answer (readBlock kind buf e out) = some (.ok head)) :
    head.len = e ∧ ∀ s ∈ spans head, Inside (e - 4) s := by
  simp only [readBlock] at h
  have hlen : (buf.take (e - 4)).length ≤ e - 4 := by
    rw [List.length_take]
    omega
  have hline := splitLine_length (Nat.zero_le (buf.take (e - 4)).length)
  split at h
  · cases h
  rename_i start hstart
  split at h
  · cases h
  rename_i headers hheaders
  split at h
  · cases h
  cases h
  refine ⟨rfl, ?_⟩
  intro s hs
  rcases List.mem_append.mp hs with hs | hs
  · have hstarts := startLine_inside hstart
    have hle : (splitLine (buf.take (e - 4)) 0).1.length ≤ e - 4 := by omega
    cases start with
    | request method target version =>
        simp only [narrowStart, startSpans, List.mem_cons, List.not_mem_nil, or_false] at hs
        rcases hs with rfl | rfl
        · exact ((hstarts method (by simp [startSpans])).mono hle).narrow
        · exact ((hstarts target (by simp [startSpans])).mono hle).narrow
    | status code reason version =>
        simp only [narrowStart, startSpans, List.mem_cons, List.not_mem_nil, or_false] at hs
        subst hs
        exact ((hstarts reason (by simp [startSpans])).mono hle).narrow
  · obtain ⟨f, hf, hs⟩ := List.mem_flatMap.mp hs
    obtain ⟨g, hg, rfl⟩ := List.mem_map.mp hf
    have hinside := parseFields_inside (fun f hf => (List.not_mem_nil hf).elim) hheaders g hg
    simp only [List.mem_cons, List.not_mem_nil, or_false] at hs
    rcases hs with rfl | rfl
    · exact (hinside.1.mono hlen).narrow
    · exact (hinside.2.mono hlen).narrow

private theorem parseVersion_not_tooLarge (token : Bytes) :
    parseVersion token ≠ .error .tooLarge := by
  unfold parseVersion
  split_ifs
  all_goals simp

private theorem startLine_not_tooLarge (kind : Kind) (line : Bytes) :
    kind.startLine line ≠ .error .tooLarge := by
  cases kind with
  | request =>
      simp only [Kind.startLine, parseRequestLine]
      split
      · rename_i method target version hsplit
        split_ifs
        · simp
        · simp
        · simp
        · cases hversion : parseVersion version with
          | error err =>
              have hne := parseVersion_not_tooLarge version
              rw [hversion] at hne
              simpa [bind, Except.bind] using hne
          | ok v => simp [bind, Except.bind, pure, Except.pure]
      · simp
  | response =>
      simp only [Kind.startLine, parseStatusLine]
      split
      · rename_i version code tail hsplit
        cases hversion : parseVersion version with
        | error err =>
            have hne := parseVersion_not_tooLarge version
            rw [hversion] at hne
            simpa [bind, Except.bind] using hne
        | ok v =>
            cases statusCode code with
            | none => simp [bind, Except.bind]
            | some n => simp [bind, Except.bind, pure, Except.pure]
      · simp

private theorem parseFieldLine_not_tooLarge (base : Nat) (line : Bytes) :
    parseFieldLine base line ≠ .error .tooLarge := by
  simp only [parseFieldLine]
  split_ifs
  · simp
  · split
    · simp
    · split_ifs
      · simp
      · simp
      · simp

private theorem parseFields_not_tooLarge (lim : Limits) (block : Bytes) (cursor : Nat)
    (headers : List HeaderSpan) :
    (parseFields lim block cursor headers).1 ≠ .error .tooLarge := by
  fun_induction parseFields lim block cursor headers with
  | case1 cursor headers hlt line next hempty ih => exact ih
  | case2 cursor headers hlt line hempty err herr =>
      have hne := parseFieldLine_not_tooLarge cursor line
      rw [herr] at hne
      simpa using hne
  | case3 cursor headers hlt line hempty span hspan hfull => simp
  | case4 cursor headers hlt line next hempty span hspan hfull ih => exact ih
  | case5 cursor headers hge => simp

private theorem check_not_tooLarge (kind : Kind) (buf : Bytes) (out : Head) :
    kind.check buf out ≠ .error .tooLarge := by
  cases kind with
  | request =>
      simp only [Kind.check, rejectDuplicateHost]
      split_ifs
      · simp
      · simp
  | response => simp [Kind.check]

/-- What a complete head is refused for is never its size. -/
theorem readBlock_not_tooLarge (kind : Kind) (buf : Bytes) (e : Nat) (out : Head) :
    answer (readBlock kind buf e out) ≠ some (.error .tooLarge) := by
  simp only [readBlock]
  split
  · rename_i err herr
    have hne := startLine_not_tooLarge kind (splitLine (buf.take (e - 4)) 0).1
    rw [herr] at hne
    simpa [answer] using hne
  · split
    · rename_i err headers herr
      have hne := parseFields_not_tooLarge .standard (buf.take (e - 4))
        (splitLine (buf.take (e - 4)) 0).2 []
      rw [herr] at hne
      simpa [answer] using hne
    · split
      · rename_i err herr
        intro hbad
        simp only [answer, Option.some.injEq, Except.error.injEq] at hbad
        subst hbad
        exact check_not_tooLarge kind buf _ herr
      · simp [answer]

/-- The limit fires on the streams whose first `MAX_HEAD` bytes hold no terminator. -/
theorem oneShot_tooLarge_iff (kind : Kind) (stream : Bytes) :
    oneShot kind stream = some (.error .tooLarge) ↔
      MAX_HEAD < stream.length ∧ findSub crlfcrlf (stream.take MAX_HEAD) = none := by
  have hpat : crlfcrlf.length = 4 := rfl
  rcases oneShot_cases kind stream with ⟨i, hi, hshot⟩ | ⟨hnone, hshot⟩
  · have hle := (findSub_spec hi).2
    by_cases hlimit : MAX_HEAD < i + 4
    · rw [hshot, if_pos hlimit]
      refine ⟨fun _ => ⟨by omega, ?_⟩, fun _ => rfl⟩
      cases htake : findSub crlfcrlf (stream.take MAX_HEAD) with
      | none => rfl
      | some j =>
          have hj := (findSub_spec htake).2
          rw [List.length_take] at hj
          have hsame := findSub_append htake (stream.drop MAX_HEAD)
          rw [List.take_append_drop, hi] at hsame
          cases hsame
          omega
    · rw [hshot, if_neg hlimit]
      refine ⟨fun hbad => (readBlock_not_tooLarge kind _ _ _ hbad).elim, ?_⟩
      rintro ⟨-, hnone⟩
      rw [findSub_take hi (by omega)] at hnone
      cases hnone
  · rw [hshot]
    have htake : findSub crlfcrlf (stream.take MAX_HEAD) = none := by
      refine (findSub_eq_none_iff _ _).mpr (fun hin => ?_)
      exact (findSub_eq_none_iff _ _).mp hnone
        (hin.trans (List.take_prefix MAX_HEAD stream).isInfix)
    split_ifs with hlimit
    · exact ⟨fun _ => ⟨hlimit, htake⟩, fun _ => rfl⟩
    · refine ⟨fun hbad => ?_, fun hgood => (hlimit hgood.1).elim⟩
      cases hbad

end Arrival

/-- However its bytes arrive, a stream has one answer: that of a fresh head on the whole of it,
which reads nothing behind the head, keeps every span inside it, and hits the limit on the streams
with no terminator in their first `MAX_HEAD` bytes. -/
theorem head_arrival (kind : Kind) (h0 : Head) (pieces : List Bytes) (rest : Bytes) :
    answer (present kind h0.reset [] pieces) = oneShot kind pieces.flatten ∧
      (∀ a, answer (present kind h0.reset [] pieces) = some a →
        oneShot kind (pieces.flatten ++ rest) = some a) ∧
      (∀ i tail, findSub crlfcrlf pieces.flatten = some i →
        oneShot kind (pieces.flatten.take (i + 4) ++ tail) = oneShot kind pieces.flatten) ∧
      (∀ head, oneShot kind pieces.flatten = some (.ok head) →
        findSub crlfcrlf pieces.flatten = some (head.len - 4) ∧ 4 ≤ head.len ∧
          head.len ≤ MAX_HEAD ∧ ∀ s ∈ spans head, s.start + s.len ≤ head.len) ∧
      (answer (present kind h0.reset [] pieces) = some (.error .tooLarge) ↔
        MAX_HEAD < pieces.flatten.length ∧
          findSub crlfcrlf (pieces.flatten.take MAX_HEAD) = none) := by
  have hone : answer (present kind h0.reset [] pieces) = oneShot kind pieces.flatten :=
    answer_present kind (resumes_reset h0) (oneShot_nil kind) pieces
  refine ⟨hone, ?_, ?_, ?_, ?_⟩
  · intro a ha
    rw [hone] at ha
    exact oneShot_settled kind _ rest a ha
  · intro i tail hi
    exact oneShot_of_terminated kind hi tail
  · intro head hhead
    rcases oneShot_cases kind pieces.flatten with ⟨i, hi, hshot⟩ | ⟨hnone, hshot⟩
    · rw [hshot] at hhead
      split_ifs at hhead with hlimit
      · cases hhead
      · obtain ⟨hlen, hinside⟩ := readBlock_inside hhead
        refine ⟨?_, by omega, by omega, ?_⟩
        · rw [hi, hlen, Nat.add_sub_cancel]
        · intro s hs
          have hs' : s.start + s.len ≤ i + 4 - 4 := hinside s hs
          omega
    · rw [hshot] at hhead
      split_ifs at hhead
      cases hhead
  · rw [hone]
    exact oneShot_tooLarge_iff kind pieces.flatten

end Ramjet.Engine.Codec.HeadArrival
