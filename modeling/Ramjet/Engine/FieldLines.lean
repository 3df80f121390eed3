/- digest: A field is its comma-separated members, however they are spread over lines. -/

import Ramjet.Base.Segments
import Ramjet.Engine.RewrittenFields

set_option autoImplicit false
set_option relaxedAutoImplicit false

namespace Ramjet.Engine.FieldLines

open Ramjet.Base.Octets
open Ramjet.Base.Segments
open Ramjet.Engine.Codec.MessageHead
open Ramjet.Engine.Codec.BodyFraming
open Ramjet.Engine.RewrittenFields

section Members

/-- The members of a field, over all its lines. -/
def members (lines : List Bytes) : List Bytes :=
  lines.flatMap fun line => (line.splitOn 44).map trimOws

@[simp] theorem members_nil : members [] = [] := rfl

@[simp] theorem members_cons (line : Bytes) (lines : List Bytes) :
    members (line :: lines) = (line.splitOn 44).map trimOws ++ members lines := rfl

theorem members_append (lines more : List Bytes) :
    members (lines ++ more) = members lines ++ members more :=
  List.flatMap_append

theorem members_eq_nil_iff (lines : List Bytes) : members lines = [] ↔ lines = [] := by
  cases lines with
  | nil => simp
  | cons line lines => simp [List.splitOn_ne_nil]

/-- A line has at least one member. -/
theorem length_le_members (lines : List Bytes) : lines.length ≤ (members lines).length := by
  induction lines with
  | nil => exact le_rfl
  | cons line lines ih =>
      have hline := List.length_pos_iff.mpr (List.splitOn_ne_nil 44 line)
      rw [members_cons, List.length_append, List.length_map, List.length_cons]
      omega

/-- Joining lines with commas keeps their members. -/
theorem members_joined {lines : List Bytes} (hlines : lines ≠ []) :
    members [[44].intercalate lines] = members lines := by
  induction lines with
  | nil => exact absurd rfl hlines
  | cons line lines ih =>
      cases lines with
      | nil => simp [List.intercalate]
      | cons next lines =>
          have hjoin : [44].intercalate (line :: next :: lines) =
              line ++ 44 :: [44].intercalate (next :: lines) := by
            simp [List.intercalate]
          rw [hjoin, members_cons, List.splitOn_append_cons_self, List.map_append,
            members_nil, List.append_nil, members_cons line, ← ih (List.cons_ne_nil _ _),
            members_cons, members_nil, List.append_nil]

/-- What can stand alone as a line: no comma, and no space around it. -/
def IsMember (m : Bytes) : Prop := 44 ∉ m ∧ trimOws m = m

theorem isMember_of_mem {lines : List Bytes} {m : Bytes} (hm : m ∈ members lines) :
    IsMember m := by
  obtain ⟨line, -, hline⟩ := List.mem_flatMap.mp hm
  obtain ⟨piece, hpiece, rfl⟩ := List.mem_map.mp hline
  refine ⟨fun hcomma => ?_, trimOws_idem piece⟩
  have hin : (44 : UInt8) ∈ piece := (trimOws_within piece).subset hcomma
  exact not_mem_of_mem_splitOn hpiece hin

/-- Members spread one a line are the members again. -/
theorem members_spread {ms : List Bytes} (hms : ∀ m ∈ ms, IsMember m) : members ms = ms := by
  induction ms with
  | nil => rfl
  | cons m ms ih =>
      obtain ⟨hcomma, htrim⟩ := hms m List.mem_cons_self
      rw [members_cons, List.splitOn_eq_singleton hcomma, List.map_singleton, htrim,
        ih fun m' hm' => hms m' (List.mem_cons_of_mem _ hm')]
      rfl

/-- Members grouped into lines are the members again. -/
theorem members_grouped {groups : List (List Bytes)} (hgroups : ∀ g ∈ groups, g ≠ [])
    (hms : ∀ m ∈ groups.flatten, IsMember m) :
    members (groups.map [44].intercalate) = groups.flatten := by
  induction groups with
  | nil => rfl
  | cons g groups ih =>
      have hg : members [[44].intercalate g] = g := by
        rw [members_joined (hgroups g List.mem_cons_self)]
        exact members_spread fun m hm => hms m (List.mem_append_left _ hm)
      have hrest := ih (fun g' hg' => hgroups g' (List.mem_cons_of_mem _ hg'))
        fun m hm => hms m (List.mem_append_right _ hm)
      have hsplit : members ((g :: groups).map [44].intercalate) =
          members [[44].intercalate g] ++ members (groups.map [44].intercalate) := by
        rw [List.map_cons, ← members_append, List.singleton_append]
      rw [hsplit, hg, hrest, List.flatten_cons]

end Members

section Codings

/-- A line that names one coding, and that one chunked. -/
def OneCoding (line : Bytes) : Prop :=
  ∃ t, tokens line = [t] ∧ eqIgnoreAsciiCase t (ascii "chunked") = true

theorem chunkedValues_eq_ok_iff (lines : List Bytes) (seen chunked : Bool) :
    chunkedValues lines seen = .ok chunked ↔
      (∀ line ∈ lines, OneCoding line) ∧ chunked = (seen || !lines.isEmpty) := by
  induction lines generalizing seen with
  | nil => simp [chunkedValues, eq_comm]
  | cons line lines ih =>
      simp only [chunkedValues]
      cases htokens : tokens line with
      | nil => simp [OneCoding, htokens]
      | cons only more =>
          cases more with
          | cons second more => simp [OneCoding, htokens]
          | nil =>
              by_cases hchunked : eqIgnoreAsciiCase only (ascii "chunked") = true
              · simp [OneCoding, htokens, hchunked, ih]
              · simp [OneCoding, htokens, hchunked]

theorem tokens_eq (line : Bytes) :
    tokens line = (members [line]).filter fun m => !m.isEmpty := by
  rw [tokens, members_cons, members_nil, List.append_nil]

/-- A field of these members names the chunked coding once, or nothing it lists is chunked. -/
def Settled (codings lengths : List Bytes) : Prop :=
  codings.length ≤ 1 ∨ lengths ≠ [] ∨ (∀ m ∈ codings, m = []) ∨
    ∃ m ∈ codings, m ≠ [] ∧ eqIgnoreAsciiCase m (ascii "chunked") = false

private theorem oneCoding_member {line m : Bytes} (h : OneCoding line) (hm : m ∈ members [line])
    (hsome : m ≠ []) : eqIgnoreAsciiCase m (ascii "chunked") = true := by
  obtain ⟨t, ht, hchunked⟩ := h
  have hin : m ∈ tokens line := by
    rw [tokens_eq, List.mem_filter]
    exact ⟨hm, by simpa using hsome⟩
  rw [ht, List.mem_singleton] at hin
  rw [hin]
  exact hchunked

private theorem mem_members {lines : List Bytes} {m : Bytes} (hm : m ∈ members lines) :
    ∃ line ∈ lines, m ∈ members [line] := by
  obtain ⟨line, hline, hin⟩ := List.mem_flatMap.mp hm
  refine ⟨line, hline, ?_⟩
  rw [members_cons, members_nil, List.append_nil]
  exact hin

/-- Members that leave no room for another reading are read alike on any lines. -/
theorem oneCoding_congr {lines lines' : List Bytes} (hsame : members lines = members lines')
    (hsettled : Settled (members lines) []) :
    (∀ line ∈ lines, OneCoding line) → ∀ line ∈ lines', OneCoding line := by
  intro hone line hline
  rcases hsettled with hfew | hlength | hempty | ⟨m, hm, hsome, hother⟩
  · -- One member makes one line, on either side.
    have hlength' := length_le_members lines'
    rw [← hsame] at hlength'
    obtain ⟨line', rfl⟩ : ∃ line', lines' = [line'] := by
      refine List.length_eq_one_iff.mp ?_
      have hpos := List.length_pos_of_mem hline
      omega
    rw [List.mem_singleton] at hline
    subst hline
    have hsome : lines ≠ [] := by
      intro hnil
      rw [hnil] at hsame
      exact absurd ((members_eq_nil_iff _).mp hsame.symm) (List.cons_ne_nil _ _)
    obtain ⟨only, rfl⟩ : ∃ only, lines = [only] := by
      refine List.length_eq_one_iff.mp ?_
      have hpos := List.length_pos_iff.mpr hsome
      have hle := length_le_members lines
      omega
    obtain ⟨t, ht, hchunked⟩ := hone only List.mem_cons_self
    refine ⟨t, ?_, hchunked⟩
    rw [tokens_eq] at ht ⊢
    rw [← hsame]
    exact ht
  · exact absurd rfl hlength
  · have hsome : lines ≠ [] := by
      intro hnil
      rw [hnil] at hsame
      rw [(members_eq_nil_iff _).mp hsame.symm] at hline
      cases hline
    obtain ⟨only, rest, rfl⟩ := List.exists_cons_of_ne_nil hsome
    obtain ⟨t, ht, hchunked⟩ := hone only List.mem_cons_self
    have hin : t ∈ members [only] ∧ t ≠ [] := by
      have hmem : t ∈ tokens only := by rw [ht]; exact List.mem_cons_self
      rw [tokens_eq, List.mem_filter] at hmem
      exact ⟨hmem.1, by simpa using hmem.2⟩
    refine absurd (hempty t ?_) hin.2
    rw [← List.singleton_append, members_append]
    exact List.mem_append_left _ hin.1
  · obtain ⟨line', hline', hin⟩ := mem_members hm
    rw [oneCoding_member (hone line' hline') hin hsome] at hother
    cases hother

/-- Members one of which is named can be grouped so that each group names one. -/
private theorem exists_grouping {ms : List Bytes} (hsome : ∃ m ∈ ms, m ≠ []) :
    ∃ groups : List (List Bytes), groups.flatten = ms ∧
      ∀ g ∈ groups, ∃ t, (g.filter fun m => !m.isEmpty) = [t] := by
  induction ms with
  | nil =>
      obtain ⟨m, hm, -⟩ := hsome
      cases hm
  | cons m ms ih =>
      by_cases hrest : ∃ m' ∈ ms, m' ≠ []
      · obtain ⟨groups, hflatten, hone⟩ := ih hrest
        by_cases hm : m = []
        · obtain ⟨g, gs, rfl⟩ : ∃ g gs, groups = g :: gs := by
            refine List.exists_cons_of_ne_nil ?_
            rintro rfl
            obtain ⟨m', hm', -⟩ := hrest
            rw [← hflatten] at hm'
            cases hm'
          refine ⟨(m :: g) :: gs, by rw [← hflatten]; rfl, ?_⟩
          intro g' hg'
          rcases List.mem_cons.mp hg' with rfl | hg'
          · obtain ⟨t, ht⟩ := hone g List.mem_cons_self
            exact ⟨t, by rw [hm, List.filter_cons_of_neg (by simp), ht]⟩
          · exact hone g' (List.mem_cons_of_mem _ hg')
        · refine ⟨[m] :: groups, by rw [← hflatten]; rfl, ?_⟩
          intro g' hg'
          rcases List.mem_cons.mp hg' with rfl | hg'
          · exact ⟨m, by rw [List.filter_cons_of_pos (by simpa using hm), List.filter_nil]⟩
          · exact hone g' hg'
      · have hm : m ≠ [] := by
          obtain ⟨m', hm', hne⟩ := hsome
          rcases List.mem_cons.mp hm' with rfl | hm'
          · exact hne
          · exact absurd ⟨m', hm', hne⟩ hrest
        refine ⟨[m :: ms], by simp, ?_⟩
        intro g hg
        rw [List.mem_singleton.mp hg, List.filter_cons_of_pos (by simpa using hm)]
        refine ⟨m, ?_⟩
        rw [List.filter_eq_nil_iff.mpr]
        intro m' hm'
        by_contra hnot
        exact hrest ⟨m', hm', by simpa using hnot⟩

/-- Chunked members can be spread so that every line is accepted. -/
theorem exists_accepted {ms : List Bytes} (hms : ∀ m ∈ ms, IsMember m)
    (hsome : ∃ m ∈ ms, m ≠ [])
    (hchunked : ∀ m ∈ ms, m ≠ [] → eqIgnoreAsciiCase m (ascii "chunked") = true) :
    ∃ lines, members lines = ms ∧ ∀ line ∈ lines, OneCoding line := by
  obtain ⟨groups, hflatten, hone⟩ := exists_grouping hsome
  have hne : ∀ g ∈ groups, g ≠ [] := by
    rintro g hg rfl
    obtain ⟨t, ht⟩ := hone [] hg
    cases ht
  refine ⟨groups.map [44].intercalate, ?_, ?_⟩
  · rw [members_grouped hne (by rwa [hflatten]), hflatten]
  · intro line hline
    obtain ⟨g, hg, rfl⟩ := List.mem_map.mp hline
    obtain ⟨t, ht⟩ := hone g hg
    have hmem : t ∈ g ∧ t ≠ [] := by
      have hin : t ∈ g.filter fun m => !m.isEmpty := by rw [ht]; exact List.mem_cons_self
      rw [List.mem_filter] at hin
      exact ⟨hin.1, by simpa using hin.2⟩
    have hgms : ∀ m ∈ g, m ∈ ms := by
      intro m hm
      rw [← hflatten]
      exact List.mem_flatten.mpr ⟨g, hg, hm⟩
    refine ⟨t, ?_, hchunked t (hgms t hmem.1) hmem.2⟩
    rw [tokens_eq, members_joined (hne g hg), members_spread fun m hm => hms m (hgms m hm), ht]

/-- Two members or more can be put on lines one of which is refused. -/
theorem exists_refused {ms : List Bytes} (hms : ∀ m ∈ ms, IsMember m) (htwo : 2 ≤ ms.length) :
    ∃ lines, members lines = ms ∧ ¬ ∀ line ∈ lines, OneCoding line := by
  by_cases hempty : [] ∈ ms
  · refine ⟨ms, members_spread hms, fun hone => ?_⟩
    obtain ⟨t, ht, -⟩ := hone [] hempty
    cases ht
  · have hne : ms ≠ [] := by
      rintro rfl
      simp at htwo
    refine ⟨[[44].intercalate ms], ?_, fun hone => ?_⟩
    · rw [members_joined hne, members_spread hms]
    · obtain ⟨t, ht, -⟩ := hone _ List.mem_cons_self
      rw [tokens_eq, members_joined hne, members_spread hms, List.filter_eq_self.mpr] at ht
      · rw [ht] at htwo
        simp at htwo
      · intro m hm
        have hsome : m ≠ [] := fun h => hempty (h ▸ hm)
        simpa using hsome

private theorem lengthParts_some {parts : List Bytes} {n : Nat} {length : Option Nat}
    (h : lengthParts parts (some n) = .ok length) : length ≠ none := by
  induction parts generalizing n with
  | nil =>
      cases h
      exact Option.some_ne_none n
  | cons part rest ih =>
      simp only [lengthParts] at h
      split at h
      · cases h
      · split at h
        · cases h
        · exact ih h

/-- No length is read where there is no line for one. -/
theorem lengthValues_eq_none {lines : List Bytes} (h : lengthValues lines = .ok none) :
    lines = [] := by
  rw [← members_eq_nil_iff]
  change lengthParts (members lines) none = .ok none at h
  cases hparts : members lines with
  | nil => rfl
  | cons part rest =>
      rw [hparts] at h
      simp only [lengthParts] at h
      split at h
      · cases h
      · split at h
        · cases h
        · exact absurd rfl (lengthParts_some h)

end Codings

section Heads

/-- Both readings agree, or both refuse. -/
def Agree : Except CodecError Framing → Except CodecError Framing → Prop
  | .ok framing, .ok framing' => framing = framing'
  | .error _, .error _ => True
  | _, _ => False

theorem agree_refl (verdict : Except CodecError Framing) : Agree verdict verdict := by
  cases verdict with
  | error e => trivial
  | ok framing => rfl

/-- The lines of a field, in order. -/
def linesOf (head : Head) (buf name : Bytes) : List Bytes :=
  (head.headersNamed buf name).map (·.2)

def CODING : Bytes := ascii "transfer-encoding"

def LENGTH : Bytes := ascii "content-length"

/-- What a start line says: its code or none, its texts, its version. -/
def startParts (head : Head) (buf : Bytes) : Option Nat × List Bytes × Version :=
  match head.start with
  | .request method target version => (none, [method.bytes buf, target.bytes buf], version)
  | .status code reason version => (some code, [reason.bytes buf], version)

theorem status_eq_startParts (head : Head) (buf : Bytes) :
    head.status = (startParts head buf).1 := by
  rw [Head.status, startParts]
  cases head.start <;> rfl

/-- One head spelled as another: only the lines of its two framing fields may differ, and they
combine to the same members. -/
structure Respelled (head : Head) (buf : Bytes) (head' : Head) (buf' : Bytes) : Prop where
  start : startParts head' buf' = startParts head buf
  others : (head'.iter buf').filter (fun f =>
      !eqIgnoreAsciiCase f.1 CODING && !eqIgnoreAsciiCase f.1 LENGTH) =
    (head.iter buf).filter fun f => !eqIgnoreAsciiCase f.1 CODING && !eqIgnoreAsciiCase f.1 LENGTH
  codings : members (linesOf head' buf' CODING) = members (linesOf head buf CODING)
  lengths : members (linesOf head' buf' LENGTH) = members (linesOf head buf LENGTH)

variable {head head' : Head} {buf buf' : Bytes}

/-- What the lines of the two fields say, where a message with neither is framed as `bare`. -/
private def framed (bare : Framing) (codings lengths : List Bytes) : Except CodecError Framing := do
  let chunked ← chunkedValues codings false
  let length ← lengthValues lengths
  match chunked, length with
  | true, some _ => .error (.malformed "both Transfer-Encoding and Content-Length")
  | true, none => return .chunked
  | false, some 0 => return .empty
  | false, none => return bare
  | false, some n => return .length n

private theorem requestFraming_eq (head : Head) (buf : Bytes) :
    requestFraming head buf =
      framed .empty (linesOf head buf CODING) (linesOf head buf LENGTH) := rfl

private theorem responseFraming_eq {code : Nat} (hstatus : head.status = some code)
    {methodWasHead : Bool} (hbody : bodyless code methodWasHead = false) :
    responseFraming head buf methodWasHead =
      framed .untilClose (linesOf head buf CODING) (linesOf head buf LENGTH) := by
  cases hstart : head.start with
  | request method target version =>
      rw [Head.status, hstart] at hstatus
      cases hstatus
  | status code' reason version =>
      rw [Head.status, hstart] at hstatus
      cases hstatus
      have hcodings : transferEncodingIsChunked head buf =
          chunkedValues (linesOf head buf CODING) false := rfl
      have hlengths : contentLength head buf = lengthValues (linesOf head buf LENGTH) := rfl
      simp only [responseFraming, hstart, hbody, Bool.false_eq_true, if_false, hcodings, hlengths,
        framed]
      cases chunkedValues (linesOf head buf CODING) false with
      | error e => rfl
      | ok chunked =>
          cases lengthValues (linesOf head buf LENGTH) with
          | error e => rfl
          | ok length =>
              cases chunked with
              | true =>
                  cases length with
                  | none => rfl
                  | some n => rfl
              | false =>
                  cases length with
                  | none => rfl
                  | some n =>
                      cases n with
                      | zero => rfl
                      | succ n => rfl

/-- A coding list that is not taken, or beside a length, refuses the message. -/
private theorem framed_refuses (bare : Framing) {codings lengths : List Bytes}
    (h : ¬ (∀ line ∈ codings, OneCoding line) ∨ codings ≠ [] ∧ lengths ≠ []) :
    ∃ e, framed bare codings lengths = .error e := by
  unfold framed
  cases hchunked : chunkedValues codings false with
  | error e => exact ⟨e, rfl⟩
  | ok chunked =>
      obtain ⟨hone, hseen⟩ := (chunkedValues_eq_ok_iff codings false chunked).mp hchunked
      rcases h with hnot | ⟨hcodings, hlengths⟩
      · exact absurd hone hnot
      · cases hlength : lengthValues lengths with
        | error e => exact ⟨e, rfl⟩
        | ok length =>
            cases length with
            | none => exact absurd (lengthValues_eq_none hlength) hlengths
            | some n =>
                have htrue : chunked = true := by
                  rw [hseen, Bool.false_or, Bool.not_eq_true', List.isEmpty_eq_false_iff]
                  exact hcodings
                rw [htrue]
                exact ⟨_, rfl⟩

private theorem framed_accepts {bare : Framing} {codings : List Bytes}
    (hone : ∀ line ∈ codings, OneCoding line) (hcodings : codings ≠ []) :
    framed bare codings [] = .ok .chunked := by
  have hchunked : chunkedValues codings false = .ok true := by
    refine (chunkedValues_eq_ok_iff codings false true).mpr ⟨hone, ?_⟩
    simpa using hcodings
  rw [framed, hchunked]
  rfl

private theorem framed_agrees {bare : Framing} {codings codings' lengths lengths' : List Bytes}
    (hcodings : members codings' = members codings) (hlengths : members lengths' = members lengths)
    (hsettled : Settled (members codings) (members lengths)) :
    Agree (framed bare codings lengths) (framed bare codings' lengths') := by
  have hempty : codings' = [] ↔ codings = [] := by
    rw [← members_eq_nil_iff, hcodings, members_eq_nil_iff]
  have hnolength : lengths' = [] ↔ lengths = [] := by
    rw [← members_eq_nil_iff, hlengths, members_eq_nil_iff]
  by_cases hboth : codings ≠ [] ∧ lengths ≠ []
  · obtain ⟨e, he⟩ := framed_refuses bare (.inr hboth)
    obtain ⟨e', he'⟩ := framed_refuses bare
      (.inr ⟨mt hempty.mp hboth.1, mt hnolength.mp hboth.2⟩)
    rw [he, he']
    trivial
  · have hsettled' : codings ≠ [] → Settled (members codings) [] := by
      intro hsome
      rcases hsettled with hfew | hlength | hrest
      · exact .inl hfew
      · exact absurd ⟨hsome, mt (members_eq_nil_iff _).mpr hlength⟩ hboth
      · exact .inr (.inr hrest)
    have hiff : (∀ line ∈ codings, OneCoding line) ↔ ∀ line ∈ codings', OneCoding line := by
      rcases List.eq_nil_or_concat codings with hnil | hsome
      · rw [hempty.mpr hnil, hnil]
      · have hne : codings ≠ [] := by
          obtain ⟨front, last, rfl⟩ := hsome
          simp
        exact ⟨oneCoding_congr hcodings.symm (hsettled' hne),
          oneCoding_congr hcodings (by rw [hcodings]; exact hsettled' hne)⟩
    by_cases hone : ∀ line ∈ codings, OneCoding line
    · have hsame : chunkedValues codings' false = chunkedValues codings false := by
        have hread := (chunkedValues_eq_ok_iff codings false (!codings.isEmpty)).mpr
          ⟨hone, by simp⟩
        rw [hread]
        refine (chunkedValues_eq_ok_iff codings' false _).mpr ⟨hiff.mp hone, ?_⟩
        rw [Bool.false_or, Bool.eq_iff_iff]
        simp [hempty]
      have hlength : lengthValues lengths' = lengthValues lengths := by
        change lengthParts (members lengths') none = lengthParts (members lengths) none
        rw [hlengths]
      rw [framed, framed, hsame, hlength]
      exact agree_refl _
    · obtain ⟨e, he⟩ : ∃ e, framed bare codings lengths = .error e :=
        framed_refuses bare (.inl hone)
      obtain ⟨e', he'⟩ : ∃ e, framed bare codings' lengths' = .error e :=
        framed_refuses bare (.inl (mt hiff.mpr hone))
      rw [he, he']
      trivial

/-- The spans of fields laid out one behind another from an offset. -/
def laidOut : Nat → List (Bytes × Bytes) → List HeaderSpan
  | _, [] => []
  | at_, f :: fields =>
      ⟨⟨at_, f.1.length⟩, ⟨at_ + f.1.length, f.2.length⟩⟩ ::
        laidOut (at_ + f.1.length + f.2.length) fields

theorem bytes_laidOut (before piece after : Bytes) :
    (⟨before.length, piece.length⟩ : Span).bytes (before ++ (piece ++ after)) = piece := by
  rw [Span.bytes, List.drop_left, List.take_left]

theorem iter_laidOut (before : Bytes) (fields : List (Bytes × Bytes)) (h : Head)
    (hfields : h.headers = laidOut before.length fields) :
    h.iter (before ++ fields.flatMap fun f => f.1 ++ f.2) = fields := by
  rw [Head.iter, hfields]
  clear hfields
  induction fields generalizing before with
  | nil => rfl
  | cons f fields ih =>
      have hname := bytes_laidOut before f.1 (f.2 ++ fields.flatMap fun f => f.1 ++ f.2)
      have hvalue := bytes_laidOut (before ++ f.1) f.2 (fields.flatMap fun f => f.1 ++ f.2)
      have hrest := ih (before ++ f.1 ++ f.2)
      rw [List.length_append] at hvalue
      rw [List.length_append, List.length_append] at hrest
      rw [laidOut, List.map_cons, List.flatMap_cons, List.append_assoc f.1, hname]
      simp only [List.append_assoc] at hvalue hrest ⊢
      rw [hvalue, hrest]

/-- A start line and the text it is read from, at the front of a buffer. -/
def laidStart (head : Head) (buf : Bytes) : StartLine × Bytes :=
  match head.start with
  | .request method target version =>
      (.request ⟨0, (method.bytes buf).length⟩
        ⟨(method.bytes buf).length, (target.bytes buf).length⟩ version,
        method.bytes buf ++ target.bytes buf)
  | .status code reason version =>
      (.status code ⟨0, (reason.bytes buf).length⟩ version, reason.bytes buf)

theorem startParts_laidStart (head : Head) (buf more : Bytes) (h : Head)
    (hstart : h.start = (laidStart head buf).1) :
    startParts h ((laidStart head buf).2 ++ more) = startParts head buf := by
  unfold laidStart at hstart ⊢
  unfold startParts
  cases hhead : head.start with
  | request method target version =>
      rw [hhead] at hstart
      rw [hstart]
      have hmethod := bytes_laidOut [] (method.bytes buf) (target.bytes buf ++ more)
      have htarget := bytes_laidOut (method.bytes buf) (target.bytes buf) more
      rw [List.nil_append] at hmethod
      simp only [List.append_assoc]
      rw [htarget]
      simp only [List.length_nil] at hmethod
      rw [hmethod]
  | status code reason version =>
      rw [hhead] at hstart
      rw [hstart]
      have hreason := bytes_laidOut [] (reason.bytes buf) more
      rw [List.nil_append] at hreason
      change (some code, [(⟨0, (reason.bytes buf).length⟩ : Span).bytes (reason.bytes buf ++ more)],
        version) = _
      simp only [List.length_nil] at hreason
      rw [hreason]

/-- The fields of a head with its coding lines replaced by others. -/
def recodedFields (head : Head) (buf : Bytes) (codings : List Bytes) : List (Bytes × Bytes) :=
  ((head.iter buf).filter fun f => !eqIgnoreAsciiCase f.1 CODING) ++ codings.map (CODING, ·)

/-- The head with those fields, laid out in a buffer of its own. -/
def recoded (head : Head) (buf : Bytes) (codings : List Bytes) : Head × Bytes :=
  ({ head with
      start := (laidStart head buf).1
      headers := laidOut (laidStart head buf).2.length (recodedFields head buf codings) },
    (laidStart head buf).2 ++ (recodedFields head buf codings).flatMap fun f => f.1 ++ f.2)

theorem iter_recoded (head : Head) (buf : Bytes) (codings : List Bytes) :
    (recoded head buf codings).1.iter (recoded head buf codings).2 =
      recodedFields head buf codings :=
  iter_laidOut _ _ _ rfl

private theorem other_congr (a b : Bytes) (h : eqIgnoreAsciiCase a b = true) :
    (!eqIgnoreAsciiCase a CODING) = !eqIgnoreAsciiCase b CODING := by
  rw [eqIgnoreAsciiCase_congr h]

private theorem coding_ne_length : eqIgnoreAsciiCase CODING LENGTH = false := by decide

private theorem named_spelled (codings : List Bytes) (name : Bytes) :
    named (codings.map (CODING, ·)) name =
      if eqIgnoreAsciiCase CODING name then codings.map (CODING, ·) else [] := by
  induction codings with
  | nil => simp
  | cons line codings ih =>
      simp only [named] at ih
      rw [List.map_cons, named, List.filter_cons, ih]
      split <;> rfl

theorem linesOf_recoded (head : Head) (buf : Bytes) (codings : List Bytes) :
    linesOf (recoded head buf codings).1 (recoded head buf codings).2 CODING = codings ∧
      linesOf (recoded head buf codings).1 (recoded head buf codings).2 LENGTH =
        linesOf head buf LENGTH := by
  have hother := named_filter (head.iter buf) other_congr
  constructor
  · rw [linesOf, Head.headersNamed, iter_recoded, recodedFields, named_append, named_spelled,
      hother CODING]
    simp [Function.comp_def]
  · rw [linesOf, Head.headersNamed, iter_recoded, recodedFields, named_append, named_spelled,
      hother LENGTH, coding_ne_length, eqIgnoreAsciiCase_comm LENGTH, coding_ne_length]
    simp [linesOf, Head.headersNamed]

theorem recoded_respelled {codings : List Bytes}
    (hcodings : members codings = members (linesOf head buf CODING)) :
    Respelled head buf (recoded head buf codings).1 (recoded head buf codings).2 where
  start := startParts_laidStart head buf _ _ rfl
  others := by
    rw [iter_recoded, recodedFields, List.filter_append, List.filter_filter]
    have hnone : (codings.map (CODING, ·)).filter (fun f =>
        !eqIgnoreAsciiCase f.1 CODING && !eqIgnoreAsciiCase f.1 LENGTH) = [] := by
      rw [List.filter_eq_nil_iff]
      intro f hf
      obtain ⟨line, -, rfl⟩ := List.mem_map.mp hf
      simp
    rw [hnone, List.append_nil]
    refine List.filter_congr fun f _ => ?_
    cases eqIgnoreAsciiCase f.1 CODING <;> simp
  codings := by rw [(linesOf_recoded head buf codings).1, hcodings]
  lengths := by rw [(linesOf_recoded head buf codings).2]

/-- A message that can carry a body: any request, and a response of such a status. -/
def Bodied (head : Head) (methodWasHead : Bool) : Prop :=
  ∃ code, head.status = some code ∧ bodyless code methodWasHead = false

private theorem responseFraming_bodyless {methodWasHead : Bool}
    (hbodyless : ¬ Bodied head methodWasHead) (hstatus : head'.status = head.status) :
    Agree (responseFraming head buf methodWasHead) (responseFraming head' buf' methodWasHead) := by
  cases hstart : head.start with
  | request method target version =>
      cases hstart' : head'.start with
      | request method' target' version' =>
          simp only [responseFraming, hstart, hstart']
          trivial
      | status code' reason' version' =>
          simp only [Head.status, hstart, hstart'] at hstatus
          cases hstatus
  | status code reason version =>
      have hbody : bodyless code methodWasHead = true := by
        by_contra hbody
        refine hbodyless ⟨code, ?_, by simpa using hbody⟩
        rw [Head.status, hstart]
      cases hstart' : head'.start with
      | request method' target' version' =>
          simp only [Head.status, hstart, hstart'] at hstatus
          cases hstatus
      | status code' reason' version' =>
          simp only [Head.status, hstart, hstart', Option.some.injEq] at hstatus
          subst hstatus
          simp only [responseFraming, hstart, hstart', hbody, if_true]
          rfl

private theorem framed_settled (bare : Framing)
    (hall : ∀ head' buf', Respelled head buf head' buf' →
      Agree (framed bare (linesOf head buf CODING) (linesOf head buf LENGTH))
        (framed bare (linesOf head' buf' CODING) (linesOf head' buf' LENGTH))) :
    Settled (members (linesOf head buf CODING)) (members (linesOf head buf LENGTH)) := by
  by_contra hnot
  simp only [Settled, not_or] at hnot
  obtain ⟨hmany, hlengths, hsome, hchunked⟩ := hnot
  have hnolength : linesOf head buf LENGTH = [] :=
    (members_eq_nil_iff _).mp (not_not.mp hlengths)
  have hms : ∀ m ∈ members (linesOf head buf CODING), IsMember m :=
    fun m hm => isMember_of_mem hm
  obtain ⟨accepted, haccepted, hone⟩ := exists_accepted hms (by simpa using hsome) (by
    intro m hm hne
    by_contra hother
    exact hchunked ⟨m, hm, hne, by simpa using hother⟩)
  obtain ⟨refused, hrefused, hnone⟩ := exists_refused hms (by omega)
  have hyes := hall _ _ (recoded_respelled haccepted)
  have hno := hall _ _ (recoded_respelled hrefused)
  rw [(linesOf_recoded head buf accepted).1, (linesOf_recoded head buf accepted).2,
    hnolength, framed_accepts hone (by
      rintro rfl
      rw [members_nil] at haccepted
      rw [← haccepted] at hmany
      simp at hmany)] at hyes
  rw [(linesOf_recoded head buf refused).1, (linesOf_recoded head buf refused).2,
    hnolength] at hno
  obtain ⟨e, he⟩ : ∃ e, framed bare refused [] = .error e := framed_refuses bare (.inl hnone)
  rw [he] at hno
  cases hverdict : framed bare (linesOf head buf CODING) [] with
  | error e =>
      rw [hverdict] at hyes
      exact hyes
  | ok framing =>
      rw [hverdict] at hno
      exact hno

/-- Every respelling of a head is framed like the head exactly where its coding lines leave no
second reading; a response that carries no body whatever its fields say always is. -/
theorem framing_respelled_iff (head : Head) (buf : Bytes) :
    ((∀ head' buf', Respelled head buf head' buf' →
        Agree (requestFraming head buf) (requestFraming head' buf')) ↔
      Settled (members (linesOf head buf CODING)) (members (linesOf head buf LENGTH))) ∧
    ∀ methodWasHead,
      ((∀ head' buf', Respelled head buf head' buf' →
          Agree (responseFraming head buf methodWasHead)
            (responseFraming head' buf' methodWasHead)) ↔
        (Bodied head methodWasHead →
          Settled (members (linesOf head buf CODING)) (members (linesOf head buf LENGTH)))) := by
  have hsame : ∀ {head' : Head} {buf' : Bytes}, Respelled head buf head' buf' →
      head'.status = head.status := by
    intro head' buf' h
    rw [status_eq_startParts head' buf', h.start, status_eq_startParts head buf]
  refine ⟨⟨fun hall => ?_, fun hsettled head' buf' h => ?_⟩, fun methodWasHead =>
    ⟨fun hall hbodied => ?_, fun hsettled head' buf' h => ?_⟩⟩
  · refine framed_settled .empty fun head' buf' h => ?_
    have hagree := hall head' buf' h
    rwa [requestFraming_eq, requestFraming_eq] at hagree
  · rw [requestFraming_eq, requestFraming_eq]
    exact framed_agrees h.codings h.lengths hsettled
  · obtain ⟨code, hstatus, hbody⟩ := hbodied
    refine framed_settled .untilClose fun head' buf' h => ?_
    have hagree := hall head' buf' h
    rwa [responseFraming_eq hstatus hbody,
      responseFraming_eq ((hsame h).trans hstatus) hbody] at hagree
  · by_cases hbodied : Bodied head methodWasHead
    · obtain ⟨code, hstatus, hbody⟩ := hbodied
      rw [responseFraming_eq hstatus hbody, responseFraming_eq ((hsame h).trans hstatus) hbody]
      exact framed_agrees h.codings h.lengths (hsettled ⟨code, hstatus, hbody⟩)
    · exact responseFraming_bodyless hbodied (hsame h)

/-- The coding named on two lines. -/
def spelledTwice : Bytes :=
  ascii "POST / HTTP/1.1\r\nHost: a\r\nTransfer-Encoding: chunked\r\nTransfer-Encoding: chunked\r\n\r\n"

/-- The same two members on one. -/
def spelledOnce : Bytes :=
  ascii "POST / HTTP/1.1\r\nHost: a\r\nTransfer-Encoding: chunked, chunked\r\n\r\n"

private def readTwice : Head :=
  { start := .request ⟨0, 4⟩ ⟨5, 1⟩ .http11
    headers := [⟨⟨17, 4⟩, ⟨23, 1⟩⟩, ⟨⟨26, 17⟩, ⟨45, 7⟩⟩, ⟨⟨54, 17⟩, ⟨73, 7⟩⟩]
    len := 84 }

private def readOnce : Head :=
  { start := .request ⟨0, 4⟩ ⟨5, 1⟩ .http11
    headers := [⟨⟨17, 4⟩, ⟨23, 1⟩⟩, ⟨⟨26, 17⟩, ⟨45, 16⟩⟩]
    len := 65 }

theorem framing_respelled_codings :
    ∃ head head', parseRequestHead .standard spelledTwice {} = (.ok true, head) ∧
      parseRequestHead .standard spelledOnce {} = (.ok true, head') ∧
      Respelled head spelledTwice head' spelledOnce ∧
      ¬ Agree (requestFraming head spelledTwice) (requestFraming head' spelledOnce) := by
  have hread : parseRequestHead .standard spelledTwice {} = (.ok true, readTwice) ∧
      parseRequestHead .standard spelledOnce {} = (.ok true, readOnce) ∧
      requestFraming readTwice spelledTwice = .ok .chunked ∧
      requestFraming readOnce spelledOnce =
        .error (.unsupported "a transfer coding other than chunked") := by
    rw [spelledTwice, spelledOnce, ascii_ofList, ascii_ofList]
    decide +kernel
  have hrespelled : Respelled readTwice spelledTwice readOnce spelledOnce := by
    rw [spelledTwice, spelledOnce, ascii_ofList, ascii_ofList]
    exact ⟨by decide +kernel, by decide +kernel, by decide +kernel, by decide +kernel⟩
  obtain ⟨htwice, honce, hchunked, hrefused⟩ := hread
  refine ⟨readTwice, readOnce, htwice, honce, hrespelled, ?_⟩
  rw [hchunked, hrefused]
  exact not_false

end Heads

end Ramjet.Engine.FieldLines
