/- digest: Where the two engines look a request up alike, and where they do not. -/

import Ramjet.Engine.Codec.AcceptedHead
import Ramjet.Proxy.Forward

set_option autoImplicit false
set_option relaxedAutoImplicit false

namespace Ramjet.Proxy.RouteParity

open Ramjet.Base.Octets
open Ramjet.Base.Text
open Ramjet.Engine.Codec.MessageHead
open Ramjet.Engine.Codec.AcceptedHead
open Ramjet.Router.Rule
open Ramjet.Router.Table
open Ramjet.Engine.Route (Matched below cookiePairs routingHost routingPath)
open Ramjet.Proxy.HeaderMap
open Ramjet.Proxy.Headers
open Ramjet.Proxy.Forward

/-- A target up to its query. -/
def beforeQuery (target : Bytes) : Bytes := target.takeWhile (· != 63)

/-- Reading a request target, as the library documents it: `/path?query#fragment`, `*`, or something
in front of a path, which then holds an authority. A path is text. -/
structure UriLib where
  read : Bytes → Option Uri
  path_text : ∀ {target : Bytes} {uri : Uri}, read target = some uri → validUtf8 uri.path = true
  origin : ∀ {target : Bytes} {uri : Uri}, read target = some uri → target.head? = some 47 →
    uri = ⟨none, (beforeQuery target).takeWhile (· != 35)⟩
  asterisk : ∀ {uri : Uri}, read (ascii "*") = some uri → uri = ⟨none, ascii "*"⟩
  other : ∀ {target : Bytes} {uri : Uri}, read target = some uri → target.head? ≠ some 47 →
    target ≠ ascii "*" → target.head? ≠ some 63 ∧
      (uri.path = [] ∨ uri.path.head? = some 47) ∧
      ∃ authority, uri.authority = some authority ∧ authority ≠ [] ∧ isVisible authority = true

section Looked

variable {M : Type} (lib : HeaderMapLib M)

/-- The canary of the rule a host and a path are routed by. -/
def canaryAt (rx : RegexEngine) (table : RouteTable) (host path : Bytes) : Option CanarySpec :=
  ((table.matchRequest rx host path).bind (·.rule)).bind (·.canary)

/-- What the hyper engine hands a canary of the header it asks for. -/
def hyperHeader (request : Request M) (canary : CanarySpec) : Option Bytes :=
  ((canary.header.bind fun rule => lib.nameOf rule.name).bind
    fun name => lib.get request.headers name).filter isVisible

/-- What the uring engine hands it. -/
def uringHeader (head : Head) (buf : Bytes) (canary : CanarySpec) : Option Bytes :=
  (canary.header.bind fun rule => head.header buf rule.name).bind fromUtf8

/-- Both engines look the same host and path up in the table, hand the canary they find the same
header and cookie, and so send the request to the same backend. -/
structure RoutesAlike (rx : RegexEngine) (table : RouteTable) (request : Request M) (head : Head)
    (target : Span) (buf : Bytes) : Prop where
  host : requestAuthority lib request = (routingHost head buf).getD []
  path : request.uri.path = (routingPath target buf).getD (ascii "/")
  header : ∀ canary,
    canaryAt rx table (requestAuthority lib request) request.uri.path = some canary →
      hyperHeader lib request canary = uringHeader head buf canary
  cookie : ∀ canary,
    canaryAt rx table (requestAuthority lib request) request.uri.path = some canary →
      (canary.cookie.bind fun name => cookieValue lib request.headers name) =
        canary.cookie.bind fun name => Engine.Route.cookieValue head buf name
  matched : ∀ mirrorWord canaryWord,
    selectBackend lib rx table request mirrorWord canaryWord =
      Engine.Route.matchRequest rx table ((routingHost head buf).getD [])
        ((routingPath target buf).getD (ascii "/")) head buf mirrorWord canaryWord

/-- What an engine is handed and what it looks up settle what it matches. -/
private theorem matched_of_looked {rx : RegexEngine} {table : RouteTable} {request : Request M}
    {head : Head} {target : Span} {buf : Bytes}
    (hhost : requestAuthority lib request = (routingHost head buf).getD [])
    (hpath : request.uri.path = (routingPath target buf).getD (ascii "/"))
    (hheader : ∀ canary,
      canaryAt rx table (requestAuthority lib request) request.uri.path = some canary →
        hyperHeader lib request canary = uringHeader head buf canary)
    (hcookie : ∀ canary,
      canaryAt rx table (requestAuthority lib request) request.uri.path = some canary →
        (canary.cookie.bind fun name => cookieValue lib request.headers name) =
          canary.cookie.bind fun name => Engine.Route.cookieValue head buf name)
    (mirrorWord canaryWord : Nat) :
    selectBackend lib rx table request mirrorWord canaryWord =
      Engine.Route.matchRequest rx table ((routingHost head buf).getD [])
        ((routingPath target buf).getD (ascii "/")) head buf mirrorWord canaryWord := by
  rw [← hhost, ← hpath, selectBackend, Engine.Route.matchRequest]
  cases hfound : table.matchRequest rx (requestAuthority lib request) request.uri.path with
  | none => rfl
  | some found =>
      cases hcanary : found.rule.bind (·.canary) with
      | none => simp only [hcanary]
      | some canary =>
          have hat : canaryAt rx table (requestAuthority lib request) request.uri.path =
              some canary := by
            rw [canaryAt, hfound, Option.bind_some, hcanary]
          have hheld := hheader canary hat
          rw [hyperHeader, uringHeader] at hheld
          simp only [hcanary, hheld, hcookie canary hat]

end Looked

section Meeting

/-- A value both engines read alike: visible ASCII is text to both, and octets that are not UTF-8
are text to neither. -/
def ReadAlike (value : Bytes) : Prop := isVisible value = true ∨ validUtf8 value = false

/-- What a cookie line gives for a name. -/
def cookieIn (name line : Bytes) : Option Bytes := cookiePairs name (line.splitOn 59)

/-- Cookie lines both engines find the same value in: the uring engine reads text and stops at a line
that is none, the hyper engine passes over every line that is not visible ASCII. -/
def CookiesMeet (name : Bytes) : List Bytes → Prop
  | [] => True
  | line :: rest =>
      if isVisible line then cookieIn name line ≠ none ∨ CookiesMeet name rest
      else if validUtf8 line then
        (cookieIn name line = none ∧ CookiesMeet name rest) ∨
          ∃ value, cookieIn name line = some value ∧
            ∃ passed found later, rest = passed ++ found :: later ∧ isVisible found = true ∧
              cookieIn name found = some value ∧
              ∀ skipped ∈ passed, isVisible skipped = true → cookieIn name skipped = none
      else ∀ later ∈ rest, isVisible later = true → cookieIn name later = none

/-- The host a request asks for: its authority, or else its `Host` where that is visible ASCII. -/
def askedHost (fields : List (Bytes × Bytes)) (uri : Uri) : Bytes :=
  uri.authority.getD (((values fields HOST).head?.filter isVisible).getD [])

/-- A request whose target, host, canary header and cookies both engines read alike. -/
structure LookupsMeet (rx : RegexEngine) (table : RouteTable) (fields : List (Bytes × Bytes))
    (target : Bytes) (uri : Uri) : Prop where
  /-- The target is a path, or `*`, with no `#` in front of its query; or it is no text there, and
  the library reads the root path. -/
  path : ((target.head? = some 47 ∨ target = ascii "*") ∧ (35 : UInt8) ∉ beforeQuery target) ∨
    (validUtf8 (beforeQuery target) = false ∧ uri.path = ascii "/")
  /-- An authority in the target is the host. -/
  authority : ∀ a, uri.authority = some a → (values fields HOST).head? = some a
  host : uri.authority = none → ∀ v, (values fields HOST).head? = some v → ReadAlike v
  header : ∀ canary rule, canaryAt rx table (askedHost fields uri) uri.path = some canary →
    canary.header = some rule → ∀ v, (values fields rule.name).head? = some v → ReadAlike v
  cookie : ∀ canary name, canaryAt rx table (askedHost fields uri) uri.path = some canary →
    canary.cookie = some name → CookiesMeet name (values fields COOKIE)

private theorem validUtf8_of_visible {value : Bytes} (h : isVisible value = true) :
    validUtf8 value = true := by
  refine validUtf8_of_ascii fun b hb => ?_
  exact forall_octet (p := fun b => ((0x20 ≤ b && b < 0x7f) || b == 9) = true → b < 0x80)
    (by decide +kernel) b (List.all_eq_true.mp h b hb)

/-- Both readings of a value agree exactly where it is read alike. -/
private theorem readings_agree (value : Bytes) :
    (some value).filter isVisible = fromUtf8 value ↔ ReadAlike value := by
  unfold ReadAlike fromUtf8
  cases hvisible : isVisible value with
  | true => simp [Option.filter, hvisible, validUtf8_of_visible hvisible]
  | false => cases validUtf8 value <;> simp [Option.filter, hvisible]

private theorem first_agrees (held : List Bytes) :
    held.head?.filter isVisible = held.head?.bind fromUtf8 ↔
      ∀ v, held.head? = some v → ReadAlike v := by
  cases held.head? with
  | none => simp
  | some v =>
      rw [Option.bind_some, readings_agree]
      simp

private theorem cookieLines_cons (name line : Bytes) (rest : List Bytes) :
    Headers.cookieLines name (line :: rest) =
      if isVisible line = true then (cookieIn name line).or (Headers.cookieLines name rest)
      else Headers.cookieLines name rest := by
  rw [Headers.cookieLines, cookieIn]
  cases isVisible line with
  | false => rfl
  | true => cases cookiePairs name (line.splitOn 59) <;> rfl

/-- The hyper engine finds a cookie in the first line it reads that has it. -/
private theorem cookieLines_hyper {name value : Bytes} {lines : List Bytes} :
    Headers.cookieLines name lines = some value ↔
      ∃ passed found later, lines = passed ++ found :: later ∧ isVisible found = true ∧
        cookieIn name found = some value ∧
        ∀ skipped ∈ passed, isVisible skipped = true → cookieIn name skipped = none := by
  induction lines with
  | nil =>
      constructor
      · intro h
        cases h
      · rintro ⟨passed, found, later, h, -⟩
        cases passed <;> cases h
  | cons line rest ih =>
      rw [cookieLines_cons]
      by_cases hread : isVisible line = true ∧ cookieIn name line ≠ none
      · obtain ⟨held, hheld⟩ := Option.ne_none_iff_exists'.mp hread.2
        rw [if_pos hread.1, hheld, Option.some_or]
        constructor
        · rintro ⟨⟩
          exact ⟨[], line, rest, rfl, hread.1, hheld, nofun⟩
        · rintro ⟨passed, found, later, hlines, hvisible, hfound, hpassed⟩
          cases passed with
          | nil =>
              cases hlines
              exact hheld.symm.trans hfound
          | cons first passed =>
              cases hlines
              exact absurd (hpassed line List.mem_cons_self hread.1) hread.2
      · have hskip : isVisible line = true → cookieIn name line = none := fun hvisible => by
          by_contra hsome
          exact hread ⟨hvisible, hsome⟩
        have hstep : (if isVisible line = true then
            (cookieIn name line).or (Headers.cookieLines name rest)
            else Headers.cookieLines name rest) = Headers.cookieLines name rest := by
          split
          · rw [hskip ‹_›, Option.none_or]
          · rfl
        rw [hstep, ih]
        constructor
        · rintro ⟨passed, found, later, rfl, hvisible, hfound, hpassed⟩
          refine ⟨line :: passed, found, later, rfl, hvisible, hfound, fun skipped hin => ?_⟩
          rcases List.mem_cons.mp hin with rfl | hin
          · exact hskip
          · exact hpassed skipped hin
        · rintro ⟨passed, found, later, hlines, hvisible, hfound, hpassed⟩
          cases passed with
          | nil =>
              cases hlines
              exact absurd (hfound.symm.trans (hskip hvisible)) (Option.some_ne_none value)
          | cons first passed =>
              cases hlines
              exact ⟨passed, found, later, rfl, hvisible, hfound, fun skipped hin =>
                hpassed skipped (List.mem_cons_of_mem line hin)⟩

private theorem cookieLines_hyper_none {name : Bytes} {lines : List Bytes} :
    Headers.cookieLines name lines = none ↔
      ∀ line ∈ lines, isVisible line = true → cookieIn name line = none := by
  induction lines with
  | nil => exact ⟨fun _ => nofun, fun _ => rfl⟩
  | cons line rest ih =>
      rw [cookieLines_cons, List.forall_mem_cons]
      cases isVisible line with
      | false => simp [ih]
      | true => cases cookieIn name line <;> simp [ih]

private theorem cookieLines_text {name line : Bytes} (rest : List Bytes)
    (h : validUtf8 line = true) : Engine.Route.cookieLines name (line :: rest) =
      (cookieIn name line).or (Engine.Route.cookieLines name rest) := by
  have hread : fromUtf8 line = some line := by rw [fromUtf8, if_pos h]
  simp only [Engine.Route.cookieLines, hread, cookieIn]
  cases cookiePairs name (line.splitOn 59) <;> rfl

/-- Both engines find the same cookie exactly where the lines meet. -/
private theorem cookies_agree (name : Bytes) (lines : List Bytes) :
    Headers.cookieLines name lines = Engine.Route.cookieLines name lines ↔
      CookiesMeet name lines := by
  induction lines with
  | nil => simp [Headers.cookieLines, Engine.Route.cookieLines, CookiesMeet]
  | cons line rest ih =>
      rw [cookieLines_cons, CookiesMeet]
      cases hvisible : isVisible line with
      | true =>
          rw [if_pos rfl, if_pos rfl, cookieLines_text rest (validUtf8_of_visible hvisible)]
          cases cookieIn name line with
          | none => simpa using ih
          | some value => simp
      | false =>
          rw [if_neg Bool.false_ne_true, if_neg Bool.false_ne_true]
          cases htext : validUtf8 line with
          | true =>
              rw [if_pos rfl, cookieLines_text rest htext]
              cases hheld : cookieIn name line with
              | none => simpa using ih
              | some value =>
                  rw [Option.some_or, cookieLines_hyper]
                  simp
          | false =>
              have hengine : Engine.Route.cookieLines name (line :: rest) = none := by
                have hread : fromUtf8 line = none := by
                  rw [fromUtf8, if_neg (by rw [htext]; exact Bool.false_ne_true)]
                simp only [Engine.Route.cookieLines, hread]
              rw [if_neg Bool.false_ne_true, hengine]
              exact cookieLines_hyper_none

end Meeting

section Agreement

variable {M : Type} {lib : HeaderMapLib M} {uris : UriLib} {rx : RegexEngine} {table : RouteTable}
  {request : Request M} {head : Head} {buf : Bytes}

private theorem requestAuthority_eq (hcarries : lib.Carries request.headers (head.iter buf)) :
    requestAuthority lib request = askedHost (head.iter buf) request.uri := by
  have hhost : lib.getAll request.headers HOST = values (head.iter buf) HOST := hcarries HOST
  rw [requestAuthority, askedHost, HeaderMapLib.get, hhost]
  cases request.uri.authority <;> rfl

private theorem host_agrees (hcarries : lib.Carries request.headers (head.iter buf))
    (hauthority : ∀ a, request.uri.authority = some a → a ≠ [] ∧ isVisible a = true) :
    requestAuthority lib request = (routingHost head buf).getD [] ↔
      (∀ a, request.uri.authority = some a → (values (head.iter buf) HOST).head? = some a) ∧
        (request.uri.authority = none →
          ∀ v, (values (head.iter buf) HOST).head? = some v → ReadAlike v) := by
  have hheader : head.header buf (ascii "host") = (values (head.iter buf) HOST).head? :=
    header_eq head buf HOST
  rw [requestAuthority_eq hcarries, askedHost, routingHost, hheader]
  cases hasked : request.uri.authority with
  | none =>
      have hsame := first_agrees (values (head.iter buf) HOST)
      simp only [Option.getD_none, reduceCtorEq, false_implies, implies_true, true_and,
        forall_const]
      rw [← hsame]
      cases (values (head.iter buf) HOST).head? with
      | none => simp
      | some v =>
          rw [Option.bind_some]
          constructor
          · intro h
            by_cases hv : v = []
            · subst hv
              rfl
            · rw [fromUtf8] at h ⊢
              cases hvisible : isVisible v <;> cases htext : validUtf8 v <;>
                simp_all [Option.filter]
          · intro h
            rw [h]
  | some a =>
      obtain ⟨hne, hvisible⟩ := hauthority a hasked
      simp only [Option.getD_some, Option.some.injEq, forall_eq', reduceCtorEq, false_implies,
        and_true]
      cases (values (head.iter buf) HOST).head? with
      | none => simpa using hne
      | some v =>
          rw [Option.bind_some, Option.some.injEq, fromUtf8]
          constructor
          · intro h
            cases htext : validUtf8 v with
            | true => simpa [htext, eq_comm] using h
            | false => exact absurd (by simpa [htext] using h) hne
          · rintro rfl
            simp [validUtf8_of_visible hvisible]

private theorem path_agrees {target : Span} (hread : uris.read (target.bytes buf) = some request.uri)
    (hne : target.bytes buf ≠ []) :
    request.uri.path = (routingPath target buf).getD (ascii "/") ↔
      (((target.bytes buf).head? = some 47 ∨ target.bytes buf = ascii "*") ∧
        (35 : UInt8) ∉ beforeQuery (target.bytes buf)) ∨
      (validUtf8 (beforeQuery (target.bytes buf)) = false ∧ request.uri.path = ascii "/") := by
  have hrouting : routingPath target buf = fromUtf8 (beforeQuery (target.bytes buf)) := rfl
  have htext := uris.path_text hread
  rw [hrouting, fromUtf8]
  generalize target.bytes buf = bytes at hread hne
  by_cases horigin : bytes.head? = some 47
  · have huri := uris.origin hread horigin
    have hpath : request.uri.path = (beforeQuery bytes).takeWhile (· != 35) := by rw [huri]
    cases hvalid : validUtf8 (beforeQuery bytes) with
    | true =>
        simp only [if_true, Option.getD_some, horigin, true_or, true_and, reduceCtorEq, false_and,
          or_false]
        rw [hpath, List.takeWhile_eq_self_iff]
        constructor
        · intro h hmem
          exact absurd (h 35 hmem) (by decide)
        · intro h b hb
          rw [bne_iff_ne]
          rintro rfl
          exact h hb
    | false =>
        simp only [Bool.false_eq_true, if_false, Option.getD_none, horigin, true_or, true_and]
        constructor
        · exact .inr
        · rintro (h | h)
          · have hwhole : (beforeQuery bytes).takeWhile (· != 35) = beforeQuery bytes := by
              rw [List.takeWhile_eq_self_iff]
              intro b hb
              rw [bne_iff_ne]
              rintro rfl
              exact h hb
            rw [hpath, hwhole, hvalid] at htext
            cases htext
          · exact h
  · by_cases hstar : bytes = ascii "*"
    · subst hstar
      have huri := uris.asterisk hread
      rw [huri]
      decide
    · obtain ⟨hquery, hpath, -⟩ := uris.other hread horigin hstar
      have hbefore : (beforeQuery bytes).head? = bytes.head? := by
        cases bytes with
        | nil => exact absurd rfl hne
        | cons b rest =>
            have hb : (b != 63) = true := by
              rw [bne_iff_ne]
              rintro rfl
              exact hquery rfl
            rw [beforeQuery, List.takeWhile_cons, if_pos hb]
            rfl
      cases hvalid : validUtf8 (beforeQuery bytes) with
      | true =>
          simp only [if_true, Option.getD_some, horigin, hstar, or_self, false_and, reduceCtorEq]
          rw [iff_false]
          intro hsame
          rw [hsame, hbefore] at hpath
          rcases hpath with hnil | hslash
          · rw [hnil] at hbefore
            exact hne (List.head?_eq_none_iff.mp hbefore.symm)
          · exact horigin hslash
      | false => simp [horigin, hstar]

private theorem header_agrees (hcarries : lib.Carries request.headers (head.iter buf))
    (haccepts : lib.Accepts (head.iter buf)) (canary : CanarySpec) :
    hyperHeader lib request canary = uringHeader head buf canary ↔
      ∀ rule, canary.header = some rule →
        ∀ v, (values (head.iter buf) rule.name).head? = some v → ReadAlike v := by
  rw [hyperHeader, uringHeader]
  cases canary.header with
  | none => simp
  | some rule =>
      have hlooked : (lib.nameOf rule.name).bind (fun name => lib.get request.headers name) =
          (values (head.iter buf) rule.name).head? := by
        cases hname : lib.nameOf rule.name with
        | some name =>
            rw [Option.bind_some, HeaderMapLib.get, lib.nameOf_lower hname, hcarries rule.name]
        | none =>
            -- a name that is none to the library is none that came
            have hnone : values (head.iter buf) rule.name = [] := by
              rw [values, List.map_eq_nil_iff, named, List.filter_eq_nil_iff]
              intro f hf hsame
              have hspelt := (haccepts f hf).1
              rw [lib.nameOf_congr (eqIgnoreAsciiCase_iff.mp hsame), hname] at hspelt
              cases hspelt
            rw [Option.bind_none, hnone, List.head?_nil]
      rw [Option.bind_some, Option.bind_some, hlooked, header_eq, first_agrees]
      simp

private theorem cookie_agrees (hcarries : lib.Carries request.headers (head.iter buf))
    (canary : CanarySpec) :
    (canary.cookie.bind fun name => cookieValue lib request.headers name) =
        (canary.cookie.bind fun name => Engine.Route.cookieValue head buf name) ↔
      ∀ name, canary.cookie = some name → CookiesMeet name (values (head.iter buf) COOKIE) := by
  have hlines : lib.getAll request.headers COOKIE = values (head.iter buf) COOKIE := hcarries COOKIE
  cases canary.cookie with
  | none => simp
  | some name =>
      have hengine : Engine.Route.cookieValue head buf name =
          Engine.Route.cookieLines name (values (head.iter buf) COOKIE) := rfl
      rw [Option.bind_some, Option.bind_some, cookieValue, hlines, hengine, cookies_agree]
      simp

/-- For every request both engines read: they look it up alike, and so send it to the same backend,
exactly where its target, its host and what the canary of its rule asks for are read alike. -/
theorem routesAlike_iff {lim : Limits} {h0 : Head} {method target : Span} {version : Version}
    (hparse : parseRequestHead lim buf h0 = (.ok true, head))
    (hstart : head.start = .request method target version)
    (hcarries : lib.Carries request.headers (head.iter buf))
    (haccepts : lib.Accepts (head.iter buf))
    (hread : uris.read (target.bytes buf) = some request.uri) :
    RoutesAlike lib rx table request head target buf ↔
      LookupsMeet rx table (head.iter buf) (target.bytes buf) request.uri := by
  obtain ⟨m, t, v, hline, hok, -, -⟩ := accepted_request hparse
  have htarget : target.bytes buf ≠ [] := by
    rw [hstart] at hline
    cases hline
    exact hok.target_ne
  have hauthority : ∀ a, request.uri.authority = some a → a ≠ [] ∧ isVisible a = true := by
    intro a ha
    by_cases horigin : (target.bytes buf).head? = some 47
    · rw [uris.origin hread horigin] at ha
      cases ha
    · by_cases hstar : target.bytes buf = ascii "*"
      · rw [hstar] at hread
        rw [uris.asterisk hread] at ha
        cases ha
      · obtain ⟨-, -, authority, hsome, hne, hvisible⟩ := uris.other hread horigin hstar
        rw [hsome] at ha
        cases ha
        exact ⟨hne, hvisible⟩
  have hhost := host_agrees hcarries hauthority
  have hpath := path_agrees hread htarget
  have hasked := requestAuthority_eq hcarries
  constructor
  · intro halike
    obtain ⟨hcarried, hbare⟩ := hhost.mp halike.host
    refine ⟨hpath.mp halike.path, hcarried, hbare, fun canary rule hat => ?_,
      fun canary name hat => ?_⟩
    · exact (header_agrees hcarries haccepts canary).mp (halike.header canary (hasked ▸ hat)) rule
    · exact (cookie_agrees hcarries canary).mp (halike.cookie canary (hasked ▸ hat)) name
  · intro hmeet
    have hsameHost := hhost.mpr ⟨hmeet.authority, hmeet.host⟩
    have hsamePath := hpath.mpr hmeet.path
    have hheader : ∀ canary,
        canaryAt rx table (requestAuthority lib request) request.uri.path = some canary →
          hyperHeader lib request canary = uringHeader head buf canary := fun canary hat =>
      (header_agrees hcarries haccepts canary).mpr fun rule =>
        hmeet.header canary rule (hasked ▸ hat)
    have hcookie : ∀ canary,
        canaryAt rx table (requestAuthority lib request) request.uri.path = some canary →
          (canary.cookie.bind fun name => cookieValue lib request.headers name) =
            canary.cookie.bind fun name => Engine.Route.cookieValue head buf name :=
      fun canary hat => (cookie_agrees hcarries canary).mpr fun name =>
        hmeet.cookie canary name (hasked ▸ hat)
    exact ⟨hsameHost, hsamePath, hheader, hcookie,
      matched_of_looked lib hsameHost hsamePath hheader hcookie⟩

end Agreement

section Requests

/-- The authority and the path of what follows a scheme. -/
private def splitAuthority (rest : Bytes) : Bytes × Bytes :=
  let authority := rest.takeWhile fun b => b != 47 && b != 63 && b != 35
  let path := (beforeQuery (rest.drop authority.length)).takeWhile (· != 35)
  (authority, if path = [] then ascii "/" else path)

private def readHttp (target : Bytes) : Option Uri :=
  if target.head? = some 47 then
    let path := (beforeQuery target).takeWhile (· != 35)
    if validUtf8 path then some ⟨none, path⟩ else none
  else if target = ascii "*" then some ⟨none, ascii "*"⟩
  else if (ascii "http://").isPrefixOf target then
    let (authority, path) := splitAuthority (target.drop 7)
    if authority ≠ [] ∧ isVisible authority ∧ validUtf8 path ∧ path.head? = some 47 then
      some ⟨some authority, path⟩
    else none
  else none

private theorem readHttp_other {target : Bytes} {uri : Uri} (h : readHttp target = some uri)
    (horigin : target.head? ≠ some 47) (hstar : target ≠ ascii "*") :
    (ascii "http://").isPrefixOf target = true ∧
      ∃ authority, uri.authority = some authority ∧ authority ≠ [] ∧ isVisible authority = true ∧
        validUtf8 uri.path = true ∧ uri.path.head? = some 47 := by
  rw [readHttp, if_neg horigin, if_neg hstar] at h
  split at h
  · rename_i hscheme
    simp only at h
    split at h
    · rename_i hparts
      cases h
      exact ⟨hscheme, _, rfl, hparts.1, hparts.2.1, hparts.2.2.1, hparts.2.2.2⟩
    · cases h
  · cases h

/-- Paths, `*` and `http` targets, and nothing else. -/
private def httpUris : UriLib where
  read := readHttp
  path_text := by
    intro target uri h
    by_cases horigin : target.head? = some 47
    · rw [readHttp, if_pos horigin] at h
      simp only at h
      split at h
      · cases h
        assumption
      · cases h
    · by_cases hstar : target = ascii "*"
      · rw [readHttp, if_neg horigin, if_pos hstar] at h
        cases h
        decide
      · obtain ⟨-, authority, -, -, -, htext, -⟩ := readHttp_other h horigin hstar
        exact htext
  origin := by
    intro target uri h horigin
    rw [readHttp, if_pos horigin] at h
    simp only at h
    split at h
    · exact (Option.some.inj h).symm
    · cases h
  asterisk := by
    intro uri h
    rw [readHttp, if_neg (by decide), if_pos rfl] at h
    exact (Option.some.inj h).symm
  other := by
    intro target uri h horigin hstar
    obtain ⟨hscheme, authority, hsome, hne, hvisible, -, hslash⟩ := readHttp_other h horigin hstar
    obtain ⟨rest, rfl⟩ := List.isPrefixOf_iff_prefix.mp hscheme
    refine ⟨?_, .inr hslash, authority, hsome, hne, hvisible⟩
    rw [List.head?_append_of_ne_nil _ (by decide)]
    decide

private def stageCanary : CanarySpec :=
  .new 1 (some ⟨ascii "X-Stage", none, none⟩) (some (ascii "stage")) 0 100

private def stageTable : RouteTable where
  catchAll := some ⟨[.new (ascii "/x") .prefixed none 0 (some ⟨some stageCanary, none⟩)]⟩
  backends := [.new (ascii "stable") [] .roundRobin .http1 0,
    .new (ascii "canary") [] .roundRobin .http1 1]

private def noPatterns : RegexEngine := ⟨fun _ => true, fun _ _ => false⟩

private def headIn (buf : Bytes) : Head := (parseRequestHead Limits.standard buf {}).2

private def targetIn (buf : Bytes) : Span :=
  match (headIn buf).start with
  | .request _ target _ => target
  | .status _ _ _ => ⟨0, 0⟩

private def requestIn (buf : Bytes) (uri : Uri) : Request (List (Bytes × Bytes)) :=
  ⟨uri, listed ((headIn buf).iter buf)⟩

private def plainBuf : Bytes := ascii
  "GET /x?q HTTP/1.1\r\nHost: a\r\nX-Stage: always\r\nCookie: stage=never\r\n\r\n"

private def absoluteBuf : Bytes := ascii "GET http://a/x HTTP/1.1\r\nHost: a\r\n\r\n"

private def plainFields : List (Bytes × Bytes) :=
  [(ascii "Host", ascii "a"), (ascii "X-Stage", ascii "always"),
    (ascii "Cookie", ascii "stage=never")]

private theorem iter_plainBuf : (headIn plainBuf).iter plainBuf = plainFields := by
  rw [headIn, plainBuf, ascii_ofList]
  decide +kernel

/-- A path, a host and a canary's header and cookie in visible ASCII. -/
theorem routesAlike_of_plain :
    RoutesAlike listMap noPatterns stageTable (requestIn plainBuf ⟨none, ascii "/x"⟩)
      (headIn plainBuf) (targetIn plainBuf) plainBuf := by
  have hparse : parseRequestHead Limits.standard plainBuf {} = (.ok true, headIn plainBuf) ∧
      (headIn plainBuf).start = .request ⟨0, 3⟩ (targetIn plainBuf) .http11 ∧
      (targetIn plainBuf).bytes plainBuf = ascii "/x?q" := by
    rw [targetIn, headIn, plainBuf, ascii_ofList]
    decide +kernel
  obtain ⟨hparse, hstart, htarget⟩ := hparse
  have hcanary : canaryAt noPatterns stageTable
      (askedHost ((headIn plainBuf).iter plainBuf) ⟨none, ascii "/x"⟩) (ascii "/x") =
        some stageCanary := by
    rw [iter_plainBuf]
    decide +kernel
  have hstage : values ((headIn plainBuf).iter plainBuf) (ascii "X-Stage") = [ascii "always"] := by
    rw [iter_plainBuf]
    decide +kernel
  have hcookie : values ((headIn plainBuf).iter plainBuf) COOKIE = [ascii "stage=never"] := by
    rw [iter_plainBuf]
    decide +kernel
  have hread : httpUris.read ((targetIn plainBuf).bytes plainBuf) =
      some (requestIn plainBuf ⟨none, ascii "/x"⟩).uri := by
    rw [htarget]
    decide +kernel
  have haccepts : listMap.Accepts ((headIn plainBuf).iter plainBuf) := by
    rw [iter_plainBuf]
    unfold HeaderMapLib.Accepts
    decide +kernel
  refine (routesAlike_iff hparse hstart (carries_listed _) haccepts hread).mpr
      ⟨?_, nofun, fun _ v hv => ?_, fun canary rule hat hrule v hv => ?_,
        fun canary name hat hname => ?_⟩
  · rw [htarget]
    decide +kernel
  · have hhost : values ((headIn plainBuf).iter plainBuf) HOST = [ascii "a"] := by
      rw [iter_plainBuf]
      decide +kernel
    rw [hhost] at hv
    cases hv
    exact .inl (by decide)
  · cases hcanary.symm.trans hat
    cases hrule
    rw [hstage] at hv
    cases hv
    exact .inl (by decide)
  · cases hcanary.symm.trans hat
    cases hname
    rw [hcookie, CookiesMeet, if_pos (by decide)]
    exact .inl (by decide)

/-- An absolute target: the hyper engine routes its path, the uring engine the whole of it. -/
theorem not_routesAlike_of_absolute :
    parseRequestHead Limits.standard absoluteBuf {} = (.ok true, headIn absoluteBuf) ∧
      httpUris.read ((targetIn absoluteBuf).bytes absoluteBuf) =
        some ⟨some (ascii "a"), ascii "/x"⟩ ∧
      (selectBackend listMap noPatterns stageTable
        (requestIn absoluteBuf ⟨some (ascii "a"), ascii "/x"⟩) 0 0).isSome = true ∧
      Engine.Route.matchRequest noPatterns stageTable
        ((routingHost (headIn absoluteBuf) absoluteBuf).getD [])
        ((routingPath (targetIn absoluteBuf) absoluteBuf).getD (ascii "/")) (headIn absoluteBuf)
        absoluteBuf 0 0 = none ∧
      ¬ RoutesAlike listMap noPatterns stageTable
        (requestIn absoluteBuf ⟨some (ascii "a"), ascii "/x"⟩) (headIn absoluteBuf)
        (targetIn absoluteBuf) absoluteBuf := by
  rw [requestIn, targetIn, headIn, absoluteBuf, ascii_ofList]
  refine ⟨by decide +kernel, by decide +kernel, by decide +kernel, by decide +kernel,
    fun halike => ?_⟩
  exact absurd halike.path (by decide +kernel)

end Requests

end Ramjet.Proxy.RouteParity
