/- digest: A relayed response is its rewritten head and the bytes behind the upstream's own. -/

import Ramjet.Engine.Codec.ChunkGrammar
import Ramjet.Engine.FramingAgreement
import Ramjet.Engine.HeadGrowth
import Ramjet.Engine.Worker.Inflight
import Ramjet.Engine.Worker.Shifts

set_option autoImplicit false
set_option relaxedAutoImplicit false

namespace Ramjet.Engine.Worker.Relaying

open Ramjet.Base.Octets
open Ramjet.Base.Net
open Ramjet.Engine.Codec.MessageHead
open Ramjet.Engine.Codec.AcceptedHead
open Ramjet.Engine.Codec.BodyFraming
open Ramjet.Engine.Codec.Chunked
open Ramjet.Engine.Codec.ChunkGrammar
open Ramjet.Engine.Headers
open Ramjet.Engine.RewrittenFields
open Ramjet.Engine.FramingAgreement
open Ramjet.Engine.HeadGrowth
open Ramjet.Engine.IdlePool
open Ramjet.Engine.Worker.Accounting
open Ramjet.Engine.Worker.Connection
open Ramjet.Engine.Worker.Core
open Ramjet.Engine.Worker.Serving
open Ramjet.Engine.Worker.Requests
open Ramjet.Engine.Worker.Handlers
open Ramjet.Engine.Worker.Loop
open Ramjet.Engine.Worker.Descriptors
open Ramjet.Engine.Worker.Moves
open Ramjet.Engine.Worker.Images
open Ramjet.Engine.Worker.Keeping
open Ramjet.Engine.Worker.Arrivals
open Ramjet.Engine.Worker.Alterations
open Ramjet.Engine.Worker.Inflight
open Ramjet.Engine.Worker.Shifts
open Ramjet.Engine.Route
open Ramjet.Router.Table

/-- What the connection tried last has answered a request with. -/
def heard (e : Exchange) : Bytes := (e.tried.getLast?.map (·.heard)).getD []

/-- How what follows a response head is delimited: after an upgrade, by the close alone. -/
def delimiting (c : Conn) (e : Exchange) : Framing :=
  if isSwitchingProtocols c.upHead then .untilClose
  else (responseFraming c.upHead (heard e) c.methodWasHead).toOption.getD .untilClose

/-- How far a body has come, by what is left of it. -/
inductive Reached (body : Bytes) : Framing → Body → Prop
  | empty (h : body = []) : Reached body .empty .done
  | length {n left : Nat} (h : body.length + left = n) : Reached body (.length n) (.length left)
  | lengthDone {n : Nat} (h : body.length = n) : Reached body (.length n) .done
  | chunked {scan : ChunkScan} (h : Reads {} body scan) : Reached body .chunked (.chunked scan)
  | chunkedDone {scan : ChunkScan} (h : Reads {} body scan) (hdone : scan.isDone = true) :
      Reached body .chunked .done
  | untilClose {left : Body} : Reached body .untilClose left

/-- The head queued for a response: rewritten, or the answer to an upgrade. -/
inductive Written (env : Outside) (c : Conn) (e : Exchange) (r : Relay) : Prop
  | response {framing : Framing} {close : Bool} (hstatus : isSwitchingProtocols c.upHead = false)
      (hframing : responseFraming c.upHead (heard e) c.methodWasHead = .ok framing)
      (hhead : r.head =
        writeDownstreamResponse env.enc.reason c.upHead (heard e) framing close none)
      (hclose : framing = .untilClose → close = true)
      (hends : close = true → c.clientKeepAlive = false)
      (hphase : c.phase = .relaying ∨ c.phase = .closing)
  | upgrade {protocol : Bytes} (hstatus : isSwitchingProtocols c.upHead = true)
      (hclean : Clean protocol)
      (hhead : r.head = writeDownstreamResponse env.enc.reason c.upHead (heard e) .empty false
        (some protocol))
      (hphase : c.phase = .tunnel ∨ c.phase = .closing)

/-- A response being relayed, beside what its upstream has sent. -/
structure Relayed (env : Outside) (c : Conn) (e : Exchange) (r : Relay) : Prop where
  arrived : ∃ h0, parseResponseHead .standard (heard e) h0 = (.ok true, c.upHead)
  received : r.received = (heard e).drop c.upHead.len
  written : Written env c e r
  body : r.intruded = false → ∃ body, r.since = r.head ++ body ∧
    r.received = body ++ c.upInbox ∧ Reached body (delimiting c e) c.responseBody

/-- What a connection has to say of the response to its request: nothing yet, what it has heard,
or what it relays. -/
structure Told (env : Outside) (c : Conn) : Prop where
  idle : c.phase = .head → c.upInbox = [] ∧
    ∀ e, c.book.current = some e → e.tried = [] ∧ e.relay = none
  upgrade : ∀ p ∈ c.upgrade, Clean p
  engaged : ∀ e, c.book.current = some e → c.upstream ≠ none → e.tried ≠ []
  before : ∀ e, c.book.current = some e → e.relay = none →
    c.responseHeadSeen = false ∧ heard e = c.upInbox
  after : ∀ e r, c.book.current = some e → e.relay = some r →
    c.responseHeadSeen = true ∧ Relayed env c e r

section Bodies

/-- Taking bytes off a body brings it further by as many. -/
theorem Reached.take {front input : Bytes} {framing : Framing} {left next : Body} {n : Nat}
    {done : Bool} (h : Reached front framing left) (hopen : left.isDone = false)
    (htake : left.take input = .ok (n, done, next)) :
    Reached (front ++ input.take n) framing (if done then .done else next) := by
  cases h with
  | empty | lengthDone | chunkedDone => cases hopen
  | @length total left hsum =>
      simp only [Body.take, Except.ok.injEq, Prod.mk.injEq] at htake
      obtain ⟨rfl, rfl, rfl⟩ := htake
      have hlen : (front ++ input.take (min left input.length)).length +
          (left - min left input.length) = total := by
        rw [List.length_append, List.length_take]
        omega
      by_cases hzero : left - min left input.length = 0
      · rw [hzero] at hlen ⊢
        exact .lengthDone hlen
      · rw [if_neg (by simpa using hzero)]
        exact .length hlen
  | @chunked scan hreads =>
      simp only [Body.take] at htake
      split at htake
      · cases htake
      · rename_i m last hscan
        cases htake
        have hgrown := hreads.append (reads_of_scan hscan)
        cases hdone : last.isDone with
        | true => exact .chunkedDone hgrown hdone
        | false => exact .chunked hgrown
  | untilClose => exact .untilClose

theorem reached_new (framing : Framing) : Reached [] framing (Body.new framing) := by
  cases framing with
  | empty => exact .empty rfl
  | length n => exact .length (Nat.zero_add n)
  | chunked => exact .chunked (reads_nil.mpr rfl)
  | untilClose => exact .untilClose

end Bodies

section Histories

theorem heard_last (e : Exchange) (change : Try → Try)
    (hsame : ∀ t, (change t).heard = t.heard) :
    heard { e with tried := e.tried.dropLast ++ (e.tried.getLast?.map change).toList } =
      heard e := by
  unfold heard
  cases hlast : e.tried.getLast? with
  | none =>
      rw [List.getLast?_eq_none_iff.mp hlast]
      rfl
  | some t =>
      simp only [Option.map_some, Option.toList_some, List.getLast?_concat, Option.getD_some]
      exact hsame t

theorem heard_more (e : Exchange) (hsome : e.tried ≠ []) (bytes : Bytes) :
    heard { e with
      tried := e.tried.dropLast ++
        (e.tried.getLast?.map fun t => { t with heard := t.heard ++ bytes }).toList } =
      heard e ++ bytes := by
  unfold heard
  cases hlast : e.tried.getLast? with
  | none => exact absurd (List.getLast?_eq_none_iff.mp hlast) hsome
  | some t =>
      simp only [Option.map_some, Option.toList_some, List.getLast?_concat, Option.getD_some]

theorem last_nil (e : Exchange) (change : Try → Try) :
    e.tried.dropLast ++ (e.tried.getLast?.map change).toList = [] ↔ e.tried = [] := by
  cases hlast : e.tried.getLast? with
  | none =>
      rw [List.getLast?_eq_none_iff.mp hlast]
      simp
  | some t =>
      have hsome : e.tried ≠ [] := by
        intro hnil
        rw [hnil] at hlast
        cases hlast
      simp [hsome]

end Histories

/-- Of the response to a request, and of what is heard of it, nothing changed; the connection may
have come nearer to its end. -/
structure Untouched (c c' : Conn) : Prop where
  inbox : c'.upInbox = c.upInbox
  head : c'.upHead = c.upHead
  method : c'.methodWasHead = c.methodWasHead
  body : c'.responseBody = c.responseBody
  seen : c'.responseHeadSeen = c.responseHeadSeen
  upgrade : c'.upgrade = c.upgrade
  lasts : c.clientKeepAlive = false → c'.clientKeepAlive = false
  idle : c'.phase = .head → c.phase = .head
  phase : c.responseHeadSeen = true → c'.phase = c.phase ∨ c'.phase = .closing
  upstream : c'.upstream ≠ none → c.upstream ≠ none
  current : ∀ e', c'.book.current = some e' → ∃ e, c.book.current = some e ∧
    e'.relay = e.relay ∧ heard e' = heard e ∧ (e'.tried = [] ↔ e.tried = [])

section Telling

variable {env : Outside} {ans : Answers} {calm : Bool} {w w' : World} {fd : Fd} {c c' : Conn}
  {e e' : Exchange} {r : Relay}

theorem current_same (h : c'.book.current = c.book.current) :
    ∀ e', c'.book.current = some e' → ∃ e, c.book.current = some e ∧
      e'.relay = e.relay ∧ heard e' = heard e ∧ (e'.tried = [] ↔ e.tried = []) :=
  fun e' he' => ⟨e', h ▸ he', rfl, rfl, .rfl⟩

theorem current_map {change : Exchange → Exchange}
    (h : c'.book.current = c.book.current.map change)
    (hrelay : ∀ e, (change e).relay = e.relay) (hheard : ∀ e, heard (change e) = heard e)
    (htried : ∀ e, (change e).tried = [] ↔ e.tried = []) :
    ∀ e', c'.book.current = some e' → ∃ e, c.book.current = some e ∧
      e'.relay = e.relay ∧ heard e' = heard e ∧ (e'.tried = [] ↔ e.tried = []) := by
  intro e' he'
  rw [h] at he'
  obtain ⟨e, he, rfl⟩ := Option.map_eq_some_iff.mp he'
  exact ⟨e, he, hrelay e, hheard e, htried e⟩

/-- Something happened on the connection tried last, but nothing was heard on it. -/
theorem current_onTry {change : Try → Try} {b : Book} (h : c'.book = b.onTry change)
    (hb : b.current = c.book.current) (hsame : ∀ t, (change t).heard = t.heard) :
    ∀ e', c'.book.current = some e' → ∃ e, c.book.current = some e ∧
      e'.relay = e.relay ∧ heard e' = heard e ∧ (e'.tried = [] ↔ e.tried = []) := by
  have hmap : c'.book.current = c.book.current.map fun e =>
      { e with tried := e.tried.dropLast ++ (e.tried.getLast?.map change).toList } := by
    rw [h, ← hb]
    rfl
  exact current_map hmap (fun _ => rfl) (fun e => heard_last e change hsame)
    (fun e => last_nil e change)

theorem Untouched.refl (c : Conn) : Untouched c c :=
  ⟨rfl, rfl, rfl, rfl, rfl, rfl, id, id, fun _ => .inl rfl, id, current_same rfl⟩

theorem Written.grown (h : Written env c e r)
    (harrived : ∃ h0, parseResponseHead .standard (heard e) h0 = (.ok true, c.upHead))
    {more : Bytes} (hheard : heard e' = heard e ++ more) {r' : Relay} (hhead : r'.head = r.head)
    (hupHead : c'.upHead = c.upHead) (hmethod : c'.methodWasHead = c.methodWasHead)
    (hlasts : c.clientKeepAlive = false → c'.clientKeepAlive = false)
    (hphase : c'.phase = c.phase ∨ c'.phase = .closing) : Written env c' e' r' := by
  obtain ⟨h0, hparse⟩ := harrived
  have hkept : ∀ {p : Phase}, c.phase = p ∨ c.phase = .closing →
      c'.phase = p ∨ c'.phase = .closing := by
    intro p hp
    rcases hphase with hsame | hclosing
    · rw [hsame]
      exact hp
    · exact .inr hclosing
  cases h with
  | response hstatus hframing hwritten hclose hends hlate =>
      refine .response (hupHead ▸ hstatus) ?_ ?_ hclose (hlasts ∘ hends) (hkept hlate)
      · rw [hheard, hupHead, hmethod, responseFraming_append hparse]
        exact hframing
      · rw [hhead, hheard, hupHead, writeDownstreamResponse_append hparse]
        exact hwritten
  | upgrade hstatus hclean hwritten hlate =>
      refine .upgrade (hupHead ▸ hstatus) hclean ?_ (hkept hlate)
      rw [hhead, hheard, hupHead, writeDownstreamResponse_append hparse]
      exact hwritten

theorem delimiting_grown
    (harrived : ∃ h0, parseResponseHead .standard (heard e) h0 = (.ok true, c.upHead))
    {more : Bytes} (hheard : heard e' = heard e ++ more) (hupHead : c'.upHead = c.upHead)
    (hmethod : c'.methodWasHead = c.methodWasHead) : delimiting c' e' = delimiting c e := by
  obtain ⟨h0, hparse⟩ := harrived
  unfold delimiting
  rw [hheard, hupHead, hmethod, responseFraming_append hparse]

theorem Relayed.untouched (h : Relayed env c e r) (hseen : c.responseHeadSeen = true)
    (hsame : Untouched c c') (hheard : heard e' = heard e) : Relayed env c' e' r := by
  have hgrown : heard e' = heard e ++ [] := by rw [hheard, List.append_nil]
  refine ⟨?_, ?_, ?_, fun hclean => ?_⟩
  · rw [hheard, hsame.head]
    exact h.arrived
  · rw [hheard, hsame.head]
    exact h.received
  · exact h.written.grown h.arrived hgrown rfl hsame.head hsame.method hsame.lasts
      (hsame.phase hseen)
  · rw [delimiting_grown h.arrived hgrown hsame.head hsame.method, hsame.inbox, hsame.body]
    exact h.body hclean

theorem Told.untouched (h : Told env c) (hsame : Untouched c c') : Told env c' := by
  refine ⟨fun hphase => ⟨?_, fun e' he' => ?_⟩, ?_, fun e' he' hup => ?_, fun e' he' hnone => ?_,
    fun e' r he' hr => ?_⟩
  · rw [hsame.inbox]
    exact (h.idle (hsame.idle hphase)).1
  · obtain ⟨e, he, hrelay, -, htried⟩ := hsame.current e' he'
    obtain ⟨hnothing, hnone⟩ := (h.idle (hsame.idle hphase)).2 e he
    exact ⟨htried.mpr hnothing, hrelay.trans hnone⟩
  · rw [hsame.upgrade]
    exact h.upgrade
  · obtain ⟨e, he, -, -, htried⟩ := hsame.current e' he'
    exact fun hnothing => h.engaged e he (hsame.upstream hup) (htried.mp hnothing)
  · obtain ⟨e, he, hrelay, hheard, -⟩ := hsame.current e' he'
    rw [hsame.seen, hsame.inbox, hheard]
    exact h.before e he (hrelay.symm.trans hnone)
  · obtain ⟨e, he, hrelay, hheard, -⟩ := hsame.current e' he'
    obtain ⟨hseen, hrelayed⟩ := h.after e r he (hrelay.symm.trans hr)
    exact ⟨hsame.seen.trans hseen, hrelayed.untouched hseen hsame hheard⟩

/-- Before a response begins, what is heard is what is in the inbox. -/
theorem Told.of_unseen (hseen : c.responseHeadSeen = false)
    (hidle : c.phase = .head → c.upInbox = [] ∧
      ∀ e, c.book.current = some e → e.tried = [])
    (hupgrade : ∀ p ∈ c.upgrade, Clean p)
    (hengaged : ∀ e, c.book.current = some e → c.upstream ≠ none → e.tried ≠ [])
    (hheard : ∀ e, c.book.current = some e → e.relay = none ∧ heard e = c.upInbox) :
    Told env c := by
  refine ⟨fun hphase => ⟨(hidle hphase).1, fun e he => ⟨(hidle hphase).2 e he, (hheard e he).1⟩⟩,
    hupgrade, hengaged, fun e he _ => ⟨hseen, (hheard e he).2⟩, fun e r he hr => ?_⟩
  rw [(hheard e he).1] at hr
  cases hr

/-- Between two requests there is nothing to say. -/
theorem Told.of_none (hnone : c.book.current = none) (hidle : c.phase = .head → c.upInbox = [])
    (hupgrade : ∀ p ∈ c.upgrade, Clean p) : Told env c := by
  refine ⟨fun hphase => ⟨hidle hphase, fun e he => ?_⟩, hupgrade, fun e he => ?_, fun e he => ?_,
    fun e r he => ?_⟩ <;> rw [hnone] at he <;> cases he

theorem Told.unseen (h : Told env c) (hseen : c.responseHeadSeen = false)
    (he : c.book.current = some e) : e.relay = none ∧ heard e = c.upInbox := by
  cases hr : e.relay with
  | none => exact ⟨rfl, (h.before e he hr).2⟩
  | some r =>
      rw [(h.after e r he hr).1] at hseen
      cases hseen

theorem Told.begun (h : Told env c) (hseen : c.responseHeadSeen = true)
    (he : c.book.current = some e) : ∃ r, e.relay = some r ∧ Relayed env c e r := by
  cases hr : e.relay with
  | none =>
      rw [(h.before e he hr).1] at hseen
      cases hseen
  | some r => exact ⟨r, rfl, (h.after e r he hr).2⟩

end Telling

section Progressing

variable {env : Outside} {ans : Answers} {calm : Bool} {w w' : World} {c c' : Conn} {p q : Hand}

/-- Request-body bytes are history of the request, not of its response. -/
theorem pumped_current {progressed : Bool}
    (h : pumpRequestBody w c = .ok (w', c', progressed)) :
    (∃ bytes, c'.book.current =
        c.book.current.map fun e => { e with body := e.body ++ bytes }) ∧
      c'.book.past = c.book.past := by
  have hnothing : c.book.current =
      c.book.current.map fun e => { e with body := e.body ++ [] } := by
    simp only [List.append_nil, Option.map_id']
  have hsent : ∀ (w : World) (d : Conn), (sendMirror w d).2.book = d.book := by
    intro w d
    obtain ⟨mirror, hmirror⟩ := sendMirror_fields w d
    rw [hmirror]
  unfold pumpRequestBody at h
  split at h
  · split at h
    · cases h
    · rename_i n done body htake
      obtain ⟨copied, hcopied⟩ := mirrorBody_fields w.config
        { c with upOutbox := c.upOutbox ++ c.inbox.take n } (c.inbox.take n)
      dsimp only at h
      rw [hcopied] at h
      split at h
      · cases h
        rw [hsent]
        exact ⟨⟨c.inbox.take n, rfl⟩, rfl⟩
      · cases h
        exact ⟨⟨c.inbox.take n, rfl⟩, rfl⟩
  · cases h
    exact ⟨⟨[], hnothing⟩, rfl⟩

theorem pumped_untouched {progressed : Bool} (h : pumpRequestBody w c = .ok (w', c', progressed)) :
    Untouched c c' := by
  obtain ⟨⟨bytes, hcurrent⟩, -⟩ := pumped_current h
  obtain ⟨_, _, _, _, book, rfl⟩ := pumped_fields h
  exact ⟨rfl, rfl, rfl, rfl, rfl, rfl, id, id, fun _ => .inl rfl, id,
    current_map hcurrent (fun _ => rfl) (fun _ => rfl) fun _ => .rfl⟩

theorem relay_current {b : Book} {e : Exchange} (status : Nat) (out received : Bytes)
    (he : (b.relay status out received).current = some e) :
    ∃ e₀, b.current = some e₀ ∧ heard e = heard e₀ ∧ e.tried = e₀.tried ∧
      e.relay = some ⟨out, received, out, false⟩ := by
  obtain ⟨e₀, he₀, rfl⟩ := Option.map_eq_some_iff.mp he
  exact ⟨e₀, he₀, rfl, rfl, rfl⟩

theorem queue_current {b : Book} {e : Exchange} (bytes : Bytes)
    (he : (b.queue bytes).current = some e) :
    ∃ e₀, b.current = some e₀ ∧ heard e = heard e₀ ∧ e.tried = e₀.tried ∧
      e.relay = e₀.relay.map fun r => { r with since := r.since ++ bytes } := by
  obtain ⟨e₀, he₀, rfl⟩ := Option.map_eq_some_iff.mp he
  exact ⟨e₀, he₀, rfl, rfl, rfl⟩

/-- The head of a response is queued. -/
theorem relayHead_told (h : Told env c) (hseen : c.responseHeadSeen = false)
    (hstatus : isSwitchingProtocols c.upHead = false)
    (hread : ∃ h0, parseResponseHead .standard c.upInbox h0 = (.ok true, c.upHead))
    {framing : Framing}
    (hframing : responseFraming c.upHead c.upInbox c.methodWasHead = .ok framing) :
    Told env (relayHead env w c framing).2 := by
  obtain ⟨out, hout⟩ := relayHead_fields env w c framing
  have hhead : out = writeDownstreamResponse env.enc.reason c.upHead c.upInbox framing
      (!(c.clientKeepAlive && framing != .untilClose)) none := by
    have houtbox := congrArg Conn.outbox hout
    simp only [relayHead, recordResponse_fields] at houtbox
    exact (List.append_cancel_left houtbox).symm
  rw [hout]
  refine ⟨fun hidle => ?_, h.upgrade, fun e he hup => ?_, fun e he hnone => ?_,
    fun e r he hr => ?_⟩
  · cases hidle
  · obtain ⟨e₀, he₀, -, htried, -⟩ := relay_current _ _ _ he
    rw [htried]
    exact h.engaged e₀ he₀ hup
  · obtain ⟨_, -, -, -, hrelay⟩ := relay_current _ _ _ he
    rw [hrelay] at hnone
    cases hnone
  · obtain ⟨e₀, he₀, hheard, -, hrelay⟩ := relay_current _ _ _ he
    rw [hrelay] at hr
    cases hr
    have hinbox := (h.unseen hseen he₀).2
    rw [← hheard] at hinbox
    refine ⟨rfl, ?_, ?_, ?_, fun _ => ⟨[], ?_, rfl, ?_⟩⟩
    · rw [hinbox]
      exact hread
    · rw [hinbox]
    · rw [← hinbox] at hhead hframing
      refine .response hstatus hframing hhead ?_ ?_ (.inl rfl)
      · rintro rfl
        simp
      · intro hclose
        rwa [Bool.not_eq_true'] at hclose
    · rw [List.append_nil]
    · have hdelimiting : delimiting { c with responseBody := Body.new framing } e = framing := by
        unfold delimiting
        dsimp only
        rw [hstatus, hinbox, hframing]
        rfl
      exact hdelimiting ▸ reached_new framing

/-- The answer to an upgrade is queued, and what came with it. -/
theorem tunnelled_told (h : Told env c) (hseen : c.responseHeadSeen = false) {asked : Bytes}
    (hasked : c.upgrade = some asked) (hstatus : isSwitchingProtocols c.upHead = true)
    (hread : ∃ h0, parseResponseHead .standard c.upInbox h0 = (.ok true, c.upHead)) :
    Told env (tunnelled env w c asked).2 := by
  have hclean : Clean ((upgradeProtocol c.upHead c.upInbox).getD asked) := by
    obtain ⟨h0, hparse⟩ := hread
    obtain ⟨_, _, _, -, -, -, hfields⟩ := accepted_response hparse
    cases hanswered : upgradeProtocol c.upHead c.upInbox with
    | none => exact h.upgrade asked hasked
    | some p => exact clean_upgradeProtocol hfields hanswered
  obtain ⟨out, hout⟩ := tunnelled_fields env w c asked
  have hhead : out = writeDownstreamResponse env.enc.reason c.upHead c.upInbox .empty false
      (some ((upgradeProtocol c.upHead c.upInbox).getD asked)) := by
    have houtbox := congrArg Conn.outbox hout
    simp only [tunnelled, recordResponse_fields] at houtbox
    exact (List.append_cancel_left (List.append_cancel_right houtbox)).symm
  rw [hout]
  refine ⟨fun hidle => ?_, h.upgrade, fun e he hup => ?_, fun e he hnone => ?_,
    fun e r he hr => ?_⟩
  · cases hidle
  · obtain ⟨e₁, he₁, -, hlast, -⟩ := queue_current _ he
    obtain ⟨e₀, he₀, -, htried, -⟩ := relay_current _ _ _ he₁
    rw [hlast, htried]
    exact h.engaged e₀ he₀ hup
  · obtain ⟨e₁, he₁, -, -, hqueued⟩ := queue_current _ he
    obtain ⟨_, -, -, -, hrelay⟩ := relay_current _ _ _ he₁
    rw [hqueued, hrelay] at hnone
    cases hnone
  · obtain ⟨e₁, he₁, hheard₁, -, hqueued⟩ := queue_current _ he
    obtain ⟨e₀, he₀, hheard, -, hrelay⟩ := relay_current _ _ _ he₁
    rw [hqueued, hrelay] at hr
    cases hr
    have hinbox : heard e = c.upInbox := by
      rw [hheard₁, hheard]
      exact (h.unseen hseen he₀).2
    refine ⟨rfl, ?_, ?_, ?_, fun _ => ⟨c.upInbox.drop c.upHead.len, rfl, ?_, ?_⟩⟩
    · rw [hinbox]
      exact hread
    · rw [hinbox]
    · rw [← hinbox] at hhead
      exact .upgrade hstatus (hinbox ▸ hclean) hhead (.inl rfl)
    · rw [List.append_nil]
    · have hdelimiting : delimiting c e = .untilClose := by
        unfold delimiting
        rw [if_pos hstatus]
      exact hdelimiting ▸ .untilClose

/-- More of a response is queued, taken off the front of what was heard. -/
theorem Told.queued (h : Told env c) (hseen : c.responseHeadSeen = true) {bytes rest : Bytes}
    (hsplit : c.upInbox = bytes ++ rest) {left : Body}
    (hreached : ∀ e body, c.book.current = some e →
      Reached body (delimiting c e) c.responseBody → Reached (body ++ bytes) (delimiting c e) left)
    {d : Conn} (hinbox : d.upInbox = rest) (hbody : d.responseBody = left)
    (hupHead : d.upHead = c.upHead) (hmethod : d.methodWasHead = c.methodWasHead)
    (hstill : d.responseHeadSeen = c.responseHeadSeen) (hupgrade : d.upgrade = c.upgrade)
    (hlasts : c.clientKeepAlive = false → d.clientKeepAlive = false)
    (hidle : d.phase ≠ .head) (hphase : d.phase = c.phase ∨ d.phase = .closing)
    (hup : d.upstream = c.upstream) {b : Book} (hb : b.current = c.book.current)
    (hbook : d.book.current = (b.queue bytes).current) : Told env d := by
  refine ⟨fun hhead => absurd hhead hidle, hupgrade ▸ h.upgrade, fun e he hsome => ?_,
    fun e he hnone => ?_, fun e r he hr => ?_⟩
  · rw [hbook] at he
    obtain ⟨e₀, he₀, -, htried, -⟩ := queue_current _ he
    rw [htried]
    exact h.engaged e₀ (hb ▸ he₀) (hup ▸ hsome)
  · rw [hbook] at he
    obtain ⟨e₀, he₀, -, -, hrelay⟩ := queue_current _ he
    obtain ⟨r₀, hr₀, -⟩ := h.begun hseen (hb ▸ he₀)
    rw [hrelay, hr₀] at hnone
    cases hnone
  · rw [hbook] at he
    obtain ⟨e₀, he₀, hheard, -, hrelay⟩ := queue_current _ he
    obtain ⟨r₀, hr₀, hrelayed⟩ := h.begun hseen (hb ▸ he₀)
    rw [hrelay, hr₀] at hr
    cases hr
    have hgrown : heard e = heard e₀ ++ [] := by rw [hheard, List.append_nil]
    refine ⟨hstill.trans hseen, ?_, ?_, ?_, fun hclean => ?_⟩
    · rw [hheard, hupHead]
      exact hrelayed.arrived
    · rw [hheard, hupHead]
      exact hrelayed.received
    · exact hrelayed.written.grown hrelayed.arrived hgrown rfl hupHead hmethod hlasts hphase
    · obtain ⟨body, hsince, hreceived, hfar⟩ := hrelayed.body hclean
      refine ⟨body ++ bytes, ?_, ?_, ?_⟩
      · show r₀.since ++ bytes = r₀.head ++ (body ++ bytes)
        rw [hsince, List.append_assoc]
      · rw [hinbox]
        show r₀.received = _
        rw [hreceived, hsplit, List.append_assoc]
      · rw [hbody, delimiting_grown hrelayed.arrived hgrown hupHead hmethod]
        exact hreached e₀ body (hb ▸ he₀) hfar

theorem delimiting_upgrade (e : Exchange) (h : isSwitchingProtocols c.upHead = true) :
    delimiting c e = .untilClose := by
  unfold delimiting
  rw [if_pos h]

/-- A tunnel hands on whatever comes. -/
theorem shuttled_told (h : Told env c) (hphase : c.phase = .tunnel)
    (hseen : c.responseHeadSeen = true) : Told env (shuttled ans c) := by
  have hreached : ∀ e body, c.book.current = some e →
      Reached body (delimiting c e) c.responseBody →
      Reached (body ++ c.upInbox) (delimiting c e) c.responseBody := by
    intro e body he _
    obtain ⟨r, -, hrelayed⟩ := h.begun hseen he
    cases hrelayed.written with
    | response _ _ _ _ _ hlate =>
        rw [hphase] at hlate
        rcases hlate with hlate | hlate <;> cases hlate
    | upgrade hstatus =>
        rw [delimiting_upgrade e hstatus]
        exact .untilClose
  obtain ⟨tls, phase, hasty, hfields, hnext, -⟩ := shuttled_fields ans c
  rw [hfields]
  have hidle : phase ≠ .head := by
    rcases hnext with hsame | hclosing
    · rw [hsame, hphase]
      nofun
    · rw [hclosing]
      nofun
  exact h.queued hseen (List.append_nil c.upInbox).symm hreached rfl rfl rfl rfl rfl rfl id hidle
    hnext rfl (b := { c.book with taken := c.book.taken ++ c.inbox }) rfl rfl

/-- What is left of a response that the close delimits is its body. -/
theorem closed_told (h : Told env c) (hseen : c.responseHeadSeen = true)
    (hbody : c.responseBody = .untilClose)
    (hhead : c.phase ≠ .head) : Told env (closed c) := by
  have hreached : ∀ e body, c.book.current = some e →
      Reached body (delimiting c e) c.responseBody →
      Reached (body ++ c.upInbox) (delimiting c e) .done := by
    intro e body _ hfar
    rw [hbody] at hfar
    generalize delimiting c e = framing at hfar ⊢
    cases hfar
    exact .untilClose
  exact h.queued hseen (List.append_nil c.upInbox).symm hreached rfl rfl rfl rfl rfl rfl id hhead
    (.inl rfl) rfl (b := c.book) rfl rfl

theorem bodyRelayed_told (h : Told env c) (hphase : c.phase = .relaying)
    (hseen : c.responseHeadSeen = true) (hopen : c.responseBody.isDone = false) {n : Nat}
    {done : Bool} {body : Body} (htake : c.responseBody.take c.upInbox = .ok (n, done, body)) :
    Told env (relayed c n done body) :=
  h.queued hseen (List.take_append_drop n c.upInbox).symm
    (fun _ _ _ hfar => hfar.take hopen htake) rfl rfl rfl rfl rfl rfl id
    (by
      show c.phase ≠ .head
      rw [hphase]
      nofun)
    (.inl rfl) rfl (b := c.book) rfl rfl

/-- Whatever an exchange does to its connection, the response it relays stays its upstream's. -/
theorem progress_told (h : Progress env ans calm p q) (hs : Steady p.2) (ht : Told env p.2) :
    Told env q.2 := by
  cases h with
  | halfSent | undispatched | truncated =>
      exact ht.untouched ⟨rfl, rfl, rfl, rfl, rfl, rfl, id, nofun, fun _ => .inr rfl, id,
        current_same rfl⟩
  | parsed | upEnded | extended =>
      exact ht.untouched ⟨rfl, rfl, rfl, rfl, rfl, rfl, id, id, fun _ => .inl rfl, id,
        current_same rfl⟩
  | @begun w c hphase hread =>
      obtain ⟨hinbox, -⟩ := ht.idle hphase
      obtain ⟨hup, -, -, -, hseen⟩ := hs.shape.head hphase
      refine .of_unseen hseen (fun _ => ⟨hinbox, ?_⟩) ht.upgrade ?_ ?_
      · rintro e he
        cases he
        rfl
      · rintro e he hsome
        exact absurd hup hsome
      · rintro e he
        cases he
        exact ⟨rfl, hinbox.symm⟩
  | @described w c framing hphase hread =>
      obtain ⟨hinbox, hquiet⟩ := ht.idle hphase
      obtain ⟨hup, -, -, -, hseen⟩ := hs.shape.head hphase
      have hclean : ∀ p ∈ upgradeProtocol c.head c.inbox, Clean p := by
        obtain ⟨h0, hparse⟩ := hread
        obtain ⟨_, _, _, -, -, hfields, -⟩ := accepted_request hparse
        exact fun p hp => clean_upgradeProtocol hfields hp
      have hframed : ∀ e, (c.book.framed framing).current = some e →
          e.tried = [] ∧ e.relay = none ∧ heard e = [] := by
        intro e he
        obtain ⟨e₀, he₀, rfl⟩ := Option.map_eq_some_iff.mp he
        obtain ⟨htried, hrelay⟩ := hquiet e₀ he₀
        refine ⟨htried, hrelay, ?_⟩
        unfold heard
        dsimp only
        rw [htried]
        rfl
      exact .of_unseen hseen (fun _ => ⟨hinbox, fun e he => (hframed e he).1⟩) hclean
        (fun e he hsome => absurd hup hsome)
        fun e he => ⟨(hframed e he).2.1, (hframed e he).2.2.trans hinbox.symm⟩
  | @routed w c matched =>
      exact ht.untouched ⟨rfl, rfl, rfl, rfl, rfl, rfl, id, id, fun _ => .inl rfl, id,
        current_map (c := c) rfl (fun _ => rfl) (fun _ => rfl) fun _ => .rfl⟩
  | refused => exact ht
  | pumped hphase hpumped => exact ht.untouched (pumped_untouched hpumped)
  | @upParsed w c hphase hseen =>
      refine .of_unseen hseen (fun hhead => ?_) ht.upgrade ht.engaged fun e he => ht.unseen hseen he
      rw [show c.phase = .head from hhead] at hphase
      cases hphase
  | tunnelled hphase hseen hasked hcalm hstatus hread =>
      exact tunnelled_told ht hseen hasked hstatus hread
  | headRelayed hphase hseen hstatus hread hframing =>
      exact relayHead_told ht hseen hstatus hread hframing
  | bodyRelayed hphase hopen htake =>
      exact bodyRelayed_told ht hphase (hs.shape.late (.inl hphase)) hopen htake
  | shuttled hphase => exact shuttled_told ht hphase (hs.shape.late (.inr hphase))
  | @closed w c hphase hseen hbody =>
      refine closed_told ht hseen hbody fun hhead => ?_
      have hunseen : c.responseHeadSeen = false := (hs.shape.head hhead).2.2.2.2
      rw [hunseen] at hseen
      cases hseen

theorem hands_told (h : Hands env ans calm p q) (hs : Steady p.2) (ht : Told env p.2) :
    Told env q.2 := by
  induction h with
  | refl => exact ht
  | tail hbefore hstep ih => exact progress_told hstep (hands_steady hbefore hs) ih

end Progressing

section Lives

variable {env : Outside} {ans : Answers} {calm : Bool} {w w' : World} {fd : Fd} {c c' : Conn}

theorem flushedDown_untouched (ans : Answers) (fd : Fd) (c : Conn) :
    Untouched c (flushedDown ans fd c) := by
  obtain ⟨tls, outbox, given, hsealed, -⟩ := sealed_fields ans.rustls c
  obtain ⟨tls', outbox', hunloaded, -⟩ := unloaded_fields
    { c with tls := tls, outbox := outbox, book := { c.book with given := given } }
  unfold flushedDown
  rw [hsealed]
  dsimp only
  rw [hunloaded]
  split
  · split
    · exact ⟨rfl, rfl, rfl, rfl, rfl, rfl, id, id, fun _ => .inl rfl, id, current_same rfl⟩
    · exact ⟨rfl, rfl, rfl, rfl, rfl, rfl, id, nofun, fun _ => .inr rfl, id, current_same rfl⟩
  · exact ⟨rfl, rfl, rfl, rfl, rfl, rfl, id, id, fun _ => .inl rfl, id, current_same rfl⟩

theorem flushedUp_untouched (ans : Answers) (c : Conn) : Untouched c (flushedUp ans c) := by
  unfold flushedUp
  split
  · exact .refl c
  · split
    · split
      · exact ⟨rfl, rfl, rfl, rfl, rfl, rfl, id, id, fun _ => .inl rfl, id,
          current_onTry (c := c) rfl rfl fun _ => rfl⟩
      · exact ⟨rfl, rfl, rfl, rfl, rfl, rfl, id, nofun, fun _ => .inr rfl, id, current_same rfl⟩
    · exact .refl c

theorem watchedUp_untouched (ans : Answers) (c : Conn) : Untouched c (watchedUp ans c) := by
  unfold watchedUp
  split
  · exact .refl c
  · split
    · exact ⟨rfl, rfl, rfl, rfl, rfl, rfl, id, id, fun _ => .inl rfl, id, current_same rfl⟩
    · exact .refl c

theorem watchedDown_untouched (ans : Answers) (fd : Fd) (c : Conn) :
    Untouched c (watchedDown ans fd c) := by
  unfold watchedDown
  split
  · exact ⟨rfl, rfl, rfl, rfl, rfl, rfl, id, id, fun _ => .inl rfl, id, current_same rfl⟩
  · exact .refl c

/-- An invented response changes nothing of the one it intrudes on but what the client sees. -/
theorem refusedWith_told (h : Told env c) (status : Nat) (body : Bytes) (close : Bool)
    (unsupported : Option Bytes) : Told env (refusedWith env c status body close unsupported) := by
  unfold refusedWith answeredSelf
  cases closes c close with
  | false =>
      simp only [Bool.false_eq_true, if_false]
      exact .of_none rfl (fun _ => rfl) nofun
  | true =>
      simp only [Bool.not_true, Bool.false_and, Bool.false_eq_true, if_false, if_true]
      generalize invented env c status body close unsupported = out
      refine ⟨nofun, h.upgrade, fun _ _ hsome => absurd rfl hsome, fun e he hnone => ?_,
        fun e r he hr => ?_⟩
      · obtain ⟨e₀, he₀, rfl⟩ := Option.map_eq_some_iff.mp he
        exact h.before e₀ he₀ (Option.map_eq_none_iff.mp hnone)
      · obtain ⟨e₀, he₀, rfl⟩ := Option.map_eq_some_iff.mp he
        obtain ⟨r₀, hr₀, rfl⟩ := Option.map_eq_some_iff.mp hr
        obtain ⟨hseen, hrelayed⟩ := h.after e₀ r₀ he₀ hr₀
        have hsame : ∀ e : Exchange, e.tried = e₀.tried → heard e = heard e₀ ++ [] := by
          intro e htried
          unfold heard
          rw [htried, List.append_nil]
        refine ⟨hseen, hrelayed.arrived, hrelayed.received, ?_, nofun⟩
        refine hrelayed.written.grown hrelayed.arrived (hsame _ ?_) ?_ ?_ ?_ ?_ (.inr ?_)
        · rfl
        · rfl
        · rfl
        · rfl
        · exact id
        · rfl

theorem ended_told (env : Outside) (c : Conn) : Told env (letLoose c).ended := by
  unfold Conn.ended
  dsimp only
  split
  · exact .of_none rfl (fun _ => rfl) nofun
  · exact .of_none rfl (fun _ => rfl) nofun

/-- A connection given an upstream has heard nothing of it yet. -/
theorem launched_told (addr : SocketAddr) (w : World) (hphase : c.phase = .exchanging)
    (hseen : c.responseHeadSeen = false) (hinbox : c.upInbox = [])
    (hupgrade : ∀ p ∈ c.upgrade, Clean p)
    (hquiet : ∀ e, c.book.current = some e → e.relay = none) :
    Told env (launched ans addr w c) := by
  have htold : ∀ {d : Conn}, d.responseHeadSeen = c.responseHeadSeen → d.phase ≠ .head →
      d.upgrade = c.upgrade → d.upInbox = c.upInbox →
      (∃ t : Try, d.book.current = c.book.current.map
        (fun e => { e with tried := e.tried ++ [t] }) ∧ t.heard = []) → Told env d := by
    rintro d hsame hhead hsameUpgrade hsameInbox ⟨t, hattempted, ht⟩
    have hcurrent : ∀ e, d.book.current = some e →
        e.tried ≠ [] ∧ e.relay = none ∧ heard e = [] := by
      intro e he
      rw [hattempted] at he
      obtain ⟨e₀, he₀, rfl⟩ := Option.map_eq_some_iff.mp he
      refine ⟨by simp, hquiet e₀ he₀, ?_⟩
      unfold heard
      simp [ht]
    exact .of_unseen (hsame.trans hseen) (fun hp => absurd hp hhead) (hsameUpgrade ▸ hupgrade)
      (fun e he _ => (hcurrent e he).1)
      fun e he => ⟨(hcurrent e he).2.1, by rw [(hcurrent e he).2.2, hsameInbox, hinbox]⟩
  have hbusy : c.phase ≠ .head := by
    rw [hphase]
    nofun
  obtain ⟨held, hheld⟩ := holdInflight_fields w
    { c with dispatchedAt := some w.clock, deadline := some (w.clock + w.config.responseTimeout) }
  unfold launched
  rw [hheld]
  dsimp only
  split
  · exact htold rfl nofun rfl rfl ⟨_, rfl, rfl⟩
  · split
    · exact htold rfl hbusy rfl rfl ⟨_, rfl, rfl⟩
    · split
      · exact htold rfl nofun rfl rfl ⟨_, rfl, rfl⟩
      · split
        · exact htold rfl nofun rfl rfl ⟨_, rfl, rfl⟩
        · exact htold rfl hbusy rfl rfl ⟨_, rfl, rfl⟩

/-- Nor is a request dispatched part of its response. -/
theorem dispatched_exchanges (ans : Answers) (w : World) (c : Conn) (snapshot : Snapshot)
    (matched : Matched) (framing : Framing) (first : Nat) (targets : List SocketAddr)
    (target : SocketAddr) :
    (dispatched ans w c snapshot matched framing first targets target).2.book.current =
        c.book.current ∧
      (dispatched ans w c snapshot matched framing first targets target).2.book.past =
        c.book.past := by
  have haimed : (Conn.aimed ans c matched framing first targets target).book = c.book := rfl
  obtain ⟨planned, hplanned⟩ := planMirror_fields ans w
    (Conn.aimed ans c matched framing first targets target) snapshot matched.mirror framing
  unfold dispatched
  dsimp only
  rw [hplanned]
  split
  · obtain ⟨sent, hsent⟩ := sendMirror_fields
      (planMirror ans w (Conn.aimed ans c matched framing first targets target) snapshot
        matched.mirror framing).1
      { Conn.aimed ans c matched framing first targets target with mirror := planned }
    rw [hsent]
    exact ⟨rfl, rfl⟩
  · rw [hplanned]
    exact ⟨rfl, rfl⟩

theorem shift_told (h : Shift env ans calm fd w c c') (hs : Steady c) (ht : Told env c) :
    Told env c' := by
  cases h with
  | hands h => exact hands_told h hs ht
  | refused => exact refusedWith_told ht ..
  | finished => exact ended_told env c
  | flushedDown => exact ht.untouched (flushedDown_untouched ans fd c)
  | flushedUp => exact ht.untouched (flushedUp_untouched ans c)
  | watchedUp => exact ht.untouched (watchedUp_untouched ans c)
  | watchedDown => exact ht.untouched (watchedDown_untouched ans fd c)
  | @sent w₁ w₂ c c₁ matched framing first allowed target others hands hphase =>
      have ht₁ := hands_told hands hs ht
      obtain ⟨hinbox, hquiet⟩ := ht₁.idle hphase
      have hseen : c₁.responseHeadSeen = false :=
        ((hands_steady hands hs).shape.head hphase).2.2.2.2
      obtain ⟨hcurrent, -⟩ := dispatched_exchanges ans w₁ c₁ w₁.routes matched framing first
        (target :: others) target
      obtain ⟨_, _, _, hfields⟩ := dispatched_fields ans w₁ c₁ w₁.routes matched framing first
        (target :: others) target
      rw [hfields] at hcurrent ⊢
      exact launched_told target w₂ rfl hseen hinbox ht₁.upgrade
        fun e he => (hquiet e (hcurrent ▸ he)).2
  | released =>
      exact ht.untouched ⟨rfl, rfl, rfl, rfl, rfl, rfl, id, id, fun _ => .inl rfl, id,
        current_same rfl⟩
  | @retried w₂ c addr hdue =>
      have hquiet : ∀ e, c.book.current = some e → e.relay = none :=
        fun e he => (ht.unseen hdue.seen he).1
      have hrequeued : c.requeued.phase = .exchanging ∧ c.requeued.responseHeadSeen = false ∧
          c.requeued.upInbox = [] ∧ c.requeued.upgrade = c.upgrade ∧
          c.requeued.book.current = c.book.current := by
        unfold Conn.requeued
        split <;> exact ⟨rfl, rfl, rfl, rfl, rfl⟩
      obtain ⟨hphase, hseen, hinbox, hupgrade, hcurrent⟩ := hrequeued
      exact launched_told addr w₂ hphase hseen hinbox (hupgrade ▸ ht.upgrade)
        fun e he => hquiet e (hcurrent ▸ he)
  | lost =>
      exact ht.untouched ⟨rfl, rfl, rfl, rfl, rfl, rfl, id, id, fun _ => .inl rfl,
        fun hup => absurd rfl hup, current_same rfl⟩

/-- What is read off the client's socket is no part of an exchange until it is taken for one. -/
theorem readClient_exchanges (env : Outside) (ans : Answers) (w : World) (c : Conn)
    (outcome : Outcome) : (readClient env ans w c outcome).book.current = c.book.current ∧
      (readClient env ans w c outcome).book.past = c.book.past := by
  have hgreet : ∀ config (c : Conn) session offer,
      (greet ans config c session offer).book.current = c.book.current ∧
        (greet ans config c session offer).book.past = c.book.past := by
    intro config c session offer
    unfold greet
    dsimp only
    repeat' split
    all_goals exact ⟨rfl, rfl⟩
  have hunwrap : ∀ config (c : Conn) bytes,
      (unwrap ans config c bytes).book.current = c.book.current ∧
        (unwrap ans config c bytes).book.past = c.book.past := by
    intro config c bytes
    unfold unwrap
    dsimp only
    split
    · exact ⟨rfl, rfl⟩
    · split
      · exact ⟨rfl, rfl⟩
      · exact hgreet config _ _ _
      · exact ⟨rfl, rfl⟩
  have hingest : ∀ (c : Conn) bytes,
      (ingest env ans w c bytes).book.current = c.book.current ∧
        (ingest env ans w c bytes).book.past = c.book.past := by
    intro c bytes
    unfold ingest
    split
    · exact hunwrap w.config c bytes
    · dsimp only
      split
      · exact ⟨rfl, rfl⟩
      · exact ⟨rfl, rfl⟩
      · exact hunwrap w.config _ _
  unfold readClient
  split
  · dsimp only
    split <;> exact ⟨rfl, rfl⟩
  · rename_i bytes _
    have hingested := hingest { c with book := c.book.hearClient w.clock } bytes
    dsimp only
    split
    · exact hingested
    · exact hingested
  · exact ⟨rfl, rfl⟩

theorem readClient_untouched (env : Outside) (ans : Answers) (w : World) (c : Conn)
    (outcome : Outcome) : Untouched c (readClient env ans w c outcome) := by
  have hcurrent := (readClient_exchanges env ans w c outcome).1
  have hphase := (readClient_taken env ans w c outcome).phase
  obtain ⟨_, _, _, _, _, _, _, _, _, _, hfields⟩ := readClient_fields env ans w c outcome
  rw [hfields] at hcurrent hphase ⊢
  refine ⟨rfl, rfl, rfl, rfl, rfl, rfl, id, fun hhead => ?_, fun _ => hphase, id,
    current_same hcurrent⟩
  rcases hphase with hsame | hclosing
  · exact hsame ▸ hhead
  · exact absurd (hclosing.symm.trans hhead) nofun

theorem wroteClient_untouched (c : Conn) (outcome : Outcome) :
    Untouched c (wroteClient c outcome) := by
  unfold wroteClient
  split
  · exact ⟨rfl, rfl, rfl, rfl, rfl, rfl, id, id, fun _ => .inl rfl, id, current_same rfl⟩
  · exact ⟨rfl, rfl, rfl, rfl, rfl, rfl, id, nofun, fun _ => .inr rfl, id, current_same rfl⟩

/-- What is heard while a request has its upstream, it is heard of the connection tried last. -/
theorem hear_current {bytes : Bytes} {stamps : List Nat} {e : Exchange}
    (he : (hear c bytes stamps).book.current = some e) : ∃ e₀, c.book.current = some e₀ ∧
      e.relay = e₀.relay.map (fun r => { r with received := r.received ++ bytes }) ∧
      (e₀.tried ≠ [] → heard e = heard e₀ ++ bytes) ∧ (e.tried = [] ↔ e₀.tried = []) := by
  obtain ⟨e₁, he₁, rfl⟩ := Option.map_eq_some_iff.mp he
  obtain ⟨e₀, he₀, rfl⟩ := Option.map_eq_some_iff.mp he₁
  exact ⟨e₀, he₀, rfl, fun hsome => heard_more e₀ hsome bytes, last_nil e₀ _⟩

theorem hear_told (h : Told env c) (hup : c.upstream ≠ none) (bytes : Bytes) (stamps : List Nat)
    (hhead : c.phase ≠ .head) : Told env (hear c bytes stamps) := by
  refine ⟨fun hphase => absurd hphase hhead, h.upgrade, fun e he _ => ?_, fun e he hnone => ?_,
    fun e r he hr => ?_⟩
  · obtain ⟨e₀, he₀, -, -, htried⟩ := hear_current he
    exact fun hnothing => h.engaged e₀ he₀ hup (htried.mp hnothing)
  · obtain ⟨e₀, he₀, hrelay, hheard, -⟩ := hear_current he
    obtain ⟨hseen, hinbox⟩ := h.before e₀ he₀ (Option.map_eq_none_iff.mp (hrelay.symm.trans hnone))
    refine ⟨hseen, ?_⟩
    rw [hheard (h.engaged e₀ he₀ hup), hinbox]
    rfl
  · obtain ⟨e₀, he₀, hrelay, hheard, -⟩ := hear_current he
    have hheard := hheard (h.engaged e₀ he₀ hup)
    obtain ⟨r₀, hr₀, rfl⟩ := Option.map_eq_some_iff.mp (hrelay.symm.trans hr)
    obtain ⟨hseen, hrelayed⟩ := h.after e₀ r₀ he₀ hr₀
    obtain ⟨h0, hparse⟩ := hrelayed.arrived
    have hlen : c.upHead.len ≤ (heard e₀).length := (accepted_len (.inr hparse)).2
    refine ⟨hseen, ⟨h0, ?_⟩, ?_, ?_, fun hclean => ?_⟩
    · rw [hheard, parseResponseHead_append hparse]
      rfl
    · show r₀.received ++ bytes = (heard _).drop c.upHead.len
      rw [hheard, List.drop_append_of_le_length hlen, ← hrelayed.received]
    · exact hrelayed.written.grown hrelayed.arrived hheard rfl rfl rfl id (.inl rfl)
    · obtain ⟨body, hsince, hreceived, hfar⟩ := hrelayed.body hclean
      refine ⟨body, hsince, ?_, ?_⟩
      · show r₀.received ++ bytes = body ++ (c.upInbox ++ bytes)
        rw [hreceived, List.append_assoc]
      · have hsame : delimiting (hear c bytes stamps) e = delimiting c e₀ :=
          delimiting_grown hrelayed.arrived hheard rfl rfl
        rw [hsame]
        exact hfar

/-- What is known of a response being relayed lasts. -/
theorem told_lasts (env : Outside) : Lasting env (Told env) where
  new ans w tls := by
    unfold newClient
    dsimp only
    split <;> exact .of_none rfl (fun _ => rfl) nofun
  shift hs h ht := shift_told h hs ht
  readDown ans outcome _ _ _ _ _ ht := by
    rename_i w op c _ _ _ _ _
    have hread : Untouched c { c with reading := false } :=
      ⟨rfl, rfl, rfl, rfl, rfl, rfl, id, id, fun _ => .inl rfl, id, current_same rfl⟩
    exact (ht.untouched hread).untouched (readClient_untouched ..)
  wroteDown outcome _ _ ht := ht.untouched (wroteClient_untouched _ outcome)
  readUp outcome hs _ hattached _ _ ht := by
    have hup := hattached.symm ▸ Option.some_ne_none _
    exact hear_told ht hup _ _ fun hhead => hup (hs.shape.head hhead).1
  wroteUp outcome _ _ _ ht := by
    split <;>
      exact ht.untouched ⟨rfl, rfl, rfl, rfl, rfl, rfl, id, id, fun _ => .inl rfl, id,
        current_same rfl⟩
  connected hs _ hlent ht := by
    rename_i up c _
    have hearly := (hs.shape.borrowed hlent).2.2.2.1
    refine ht.untouched ⟨rfl, rfl, rfl, rfl, rfl, rfl, id, nofun, fun hseen => ?_, id,
      current_onTry (c := c) rfl rfl fun _ => rfl⟩
    rw [show c.responseHeadSeen = false from hearly] at hseen
    cases hseen
  missed _ _ _ ht :=
    ht.untouched ⟨rfl, rfl, rfl, rfl, rfl, rfl, id, id, fun _ => .inl rfl,
      fun hup => absurd rfl hup, current_same rfl⟩
  spared hs hphase ht := by
    rename_i c
    have hnext : (spared c).phase = c.phase ∨ (spared c).phase = .closing := by
      unfold spared
      dsimp only
      split
      · exact .inr rfl
      · exact .inl rfl
    refine ht.untouched ⟨rfl, rfl, rfl, rfl, rfl, rfl, fun _ => rfl, fun hhead => ?_,
      fun _ => hnext, id, current_same rfl⟩
    rcases hnext with hsame | hclosing
    · exact hsame ▸ hhead
    · rw [hclosing] at hhead
      cases hhead
  cutOff _ _ ht :=
    ht.untouched ⟨rfl, rfl, rfl, rfl, rfl, rfl, id, id, fun _ => .inl rfl,
      fun hup => absurd rfl hup, current_same rfl⟩
  handed _ _ ht :=
    ht.untouched ⟨rfl, rfl, rfl, rfl, rfl, rfl, id, id, fun _ => .inl rfl, id, current_same rfl⟩

end Lives

end Ramjet.Engine.Worker.Relaying
