/- digest: A client's bytes fall into its requests, and an upstream is sent one of them at most. -/

import Ramjet.Engine.Worker.Relaying

set_option autoImplicit false
set_option relaxedAutoImplicit false

namespace Ramjet.Engine.Worker.Forwarding

open Ramjet.Base.Octets
open Ramjet.Base.Net
open Ramjet.Base.Machine
open Ramjet.Engine.Codec.MessageHead
open Ramjet.Engine.Codec.AcceptedHead
open Ramjet.Engine.Codec.BodyFraming
open Ramjet.Engine.Headers
open Ramjet.Engine.IdlePool
open Ramjet.Engine.Tls
open Ramjet.Engine.Route
open Ramjet.Engine.Worker.Accounting
open Ramjet.Engine.Worker.Connection
open Ramjet.Engine.Worker.Core
open Ramjet.Engine.Worker.Serving
open Ramjet.Engine.Worker.Requests
open Ramjet.Engine.Worker.Handlers
open Ramjet.Engine.Worker.Loop
open Ramjet.Engine.Worker.Moves
open Ramjet.Engine.Worker.Images
open Ramjet.Engine.Worker.Keeping
open Ramjet.Engine.Worker.Arrivals
open Ramjet.Engine.Worker.Alterations
open Ramjet.Engine.Worker.Coherence
open Ramjet.Engine.Worker.Inflight
open Ramjet.Engine.Worker.Shifts
open Ramjet.Engine.Worker.Relaying
open Ramjet.Router.Stats

/-- A request's head as its core read it, `rest` being what had come in behind it. -/
structure Parsed (e : Exchange) (rest : Bytes) (head : Head) : Prop where
  read : ∃ h0, parseRequestHead .standard (e.head ++ rest) h0 = (.ok true, head)
  len : head.len = e.head.length
  framing : requestFraming head (e.head ++ rest) = .ok e.framing

/-- That head as its upstreams are sent it. -/
def Rewritten (e : Exchange) (out : Bytes) : Prop :=
  ∃ rest head client target upgrade requestId, Parsed e rest head ∧
    out = writeUpstreamRequest head (e.head ++ rest) client target e.framing false upgrade requestId

/-- What the connections tried for a request were sent on, one after the other. -/
def sents (e : Exchange) : List Bytes := e.tried.map (·.sent)

/-- A request its connection has outlived, and the client's bytes that were taken for it: its head,
its body and, once it was upgraded, the tunnel's. Its body was complete, or else its response was
relayed before that. No upstream but the last was sent more than the head. -/
structure Over (e : Exchange) (bytes : Bytes) : Prop where
  parsed : ∃ rest head, Parsed e rest head
  taken : ∃ tail, bytes = e.head ++ e.body ++ tail ∧ (tail ≠ [] → 101 ∈ e.statuses) ∧
    (e.tried ≠ [] → ∃ out, Rewritten e out ∧ (∀ sent ∈ (sents e).dropLast, sent <+: out) ∧
      ∀ sent ∈ (sents e).getLast?, sent <+: out ++ e.body ++ tail)
  whole : ∃ left, Reached e.body e.framing left ∧ (left.isDone = true ∨ e.relay ≠ none)

/-- A connection that has let what it had for its upstream go. -/
structure Lapsed (c : Conn) : Prop where
  phase : c.phase = .closing
  outbox : c.upOutbox = []
  own : c.upBorrowed = false

/-- A connection whose exchange became a tunnel. -/
structure Upgraded (c : Conn) : Prop where
  seen : c.responseHeadSeen = true
  phase : c.phase = .tunnel ∨ c.phase = .closing

/-- A request under way, and the client's bytes that were taken for it. What its last upstream was
sent and what is queued for it are the rewritten head and those bytes behind the client's. -/
structure Underway (c : Conn) (e : Exchange) (tail : Bytes) : Prop where
  upgraded : tail ≠ [] ∨ c.phase = .tunnel → 101 ∈ e.statuses ∧ Upgraded c
  body : Reached e.body e.framing c.requestBody
  rewritten : Rewritten e c.requestHead
  replay : c.replayable = true ∨ 1 < c.targets.length → e.framing = .empty
  tried : e.tried ≠ []
  earlier : ∀ sent ∈ (sents e).dropLast, sent <+: c.requestHead
  last : ∀ sent ∈ (sents e).getLast?, ∃ rest, sent ++ rest = c.requestHead ++ e.body ++ tail ∧
    (rest = c.upOutbox ∨ Lapsed c)

/-- What is taken for the request a connection has. -/
def Latest (c : Conn) (bytes : Bytes) : Prop :=
  if c.headConsumed then
    ∃ e tail, c.book.current = some e ∧ bytes = e.head ++ e.body ++ tail ∧ Underway c e tail
  else bytes = []

/-- Every byte of a client is in its inbox or part of one request, in the order it came in. -/
structure Laid (c : Conn) : Prop where
  arrived : c.book.plain = c.book.taken ++ c.inbox
  parted : ∃ parts latest, List.Forall₂ Over c.book.past parts ∧
    c.book.taken = parts.flatten ++ latest ∧ Latest c latest
  idle : c.headConsumed = false → (c.phase = .head ∨ c.phase = .closing) ∧ c.upstream = none ∧
    c.responseHeadSeen = false ∧ c.targets = []
  head : c.phase = .head → c.headConsumed = false

/-- Of a request and what its upstreams were sent, nothing changed. -/
structure Alike (e e' : Exchange) : Prop where
  head : e'.head = e.head
  framing : e'.framing = e.framing
  body : e'.body = e.body
  sents : sents e' = sents e
  statuses : ∀ status ∈ e.statuses, status ∈ e'.statuses

/-- Where the bytes of a client are, and by what they are passed on. -/
structure Stock where
  plain : Bytes
  taken : Bytes
  past : List Exchange
  inbox : Bytes
  consumed : Bool
  body : Body
  rewritten : Bytes
  outbox : Bytes
  targets : List SocketAddr
  replay : Bool

def stockOf (c : Conn) : Stock where
  plain := c.book.plain
  taken := c.book.taken
  past := c.book.past
  inbox := c.inbox
  consumed := c.headConsumed
  body := c.requestBody
  rewritten := c.requestHead
  outbox := c.upOutbox
  targets := c.targets
  replay := c.replayable

/-- Of a client's bytes, and of what is queued for an upstream, nothing changed. -/
structure Unmoved (c c' : Conn) : Prop where
  stock : stockOf c' = stockOf c
  upstream : c.upstream = none → c'.upstream = none
  upgraded : Upgraded c → Upgraded c'
  tunnel : c'.phase = .tunnel → c.phase = .tunnel
  idle : c.headConsumed = false → (c'.phase = c.phase ∨ c'.phase = .closing) ∧
    c'.responseHeadSeen = c.responseHeadSeen
  head : c'.phase = .head → c.phase = .head
  lapsed : Lapsed c → Lapsed c'
  current : c.headConsumed = true → ∀ e, c.book.current = some e →
    ∃ e', c'.book.current = some e' ∧ Alike e e'

section Requests

variable {c c' : Conn} {e e' : Exchange} {tail rest out : Bytes} {head : Head}

theorem Alike.refl (e : Exchange) : Alike e e := ⟨rfl, rfl, rfl, rfl, fun _ => id⟩

theorem Alike.trans {e'' : Exchange} (h : Alike e e') (h' : Alike e' e'') : Alike e e'' :=
  ⟨h'.head.trans h.head, h'.framing.trans h.framing, h'.body.trans h.body,
    h'.sents.trans h.sents, fun s hs => h'.statuses s (h.statuses s hs)⟩

theorem Parsed.alike (h : Parsed e rest head) (hhead : e'.head = e.head)
    (hframing : e'.framing = e.framing) : Parsed e' rest head := by
  refine ⟨?_, ?_, ?_⟩
  · rw [hhead]
    exact h.read
  · rw [hhead]
    exact h.len
  · rw [hhead, hframing]
    exact h.framing

theorem Rewritten.alike (h : Rewritten e out) (hhead : e'.head = e.head)
    (hframing : e'.framing = e.framing) : Rewritten e' out := by
  obtain ⟨rest, head, client, target, upgrade, requestId, hparsed, hout⟩ := h
  refine ⟨rest, head, client, target, upgrade, requestId, hparsed.alike hhead hframing, ?_⟩
  rw [hhead, hframing]
  exact hout

theorem tried_of_sents (h : sents e' = sents e) : e'.tried = [] ↔ e.tried = [] := by
  rw [← List.map_eq_nil_iff (f := fun t : Try => t.sent), ← List.map_eq_nil_iff (l := e.tried)]
  exact iff_of_eq (congrArg (· = []) h)

/-- Something happened on the connection tried last, but nothing was sent on it. -/
theorem alike_last (e : Exchange) {change : Try → Try} (h : ∀ t, (change t).sent = t.sent) :
    Alike e { e with tried := e.tried.dropLast ++ (e.tried.getLast?.map change).toList } := by
  refine ⟨rfl, rfl, rfl, ?_, fun _ => id⟩
  rcases List.eq_nil_or_concat e.tried with hnil | ⟨before, t, hsplit⟩
  · unfold sents
    rw [hnil]
    rfl
  · unfold sents
    rw [hsplit, List.concat_eq_append, List.dropLast_concat, List.getLast?_concat,
      List.map_append, List.map_append]
    exact congrArg _ (congrArg (· :: []) (h t))

theorem Unmoved.same (hstock : stockOf c' = stockOf c)
    (hup : c.upstream = none → c'.upstream = none)
    (hseen : c'.responseHeadSeen = c.responseHeadSeen)
    (hphase : c'.phase = c.phase ∨ c'.phase = .closing) (hown : c'.upBorrowed = c.upBorrowed)
    (hcurrent : ∀ e, c.book.current = some e → ∃ e', c'.book.current = some e' ∧ Alike e e') :
    Unmoved c c' := by
  have hback : ∀ {phase : Phase}, phase ≠ .closing → c'.phase = phase → c.phase = phase := by
    intro phase hopen hnext
    rcases hphase with hsame | hclosing
    · exact hsame.symm.trans hnext
    · exact absurd (hnext.symm.trans hclosing) hopen
  refine ⟨hstock, hup, fun h => ⟨hseen.trans h.seen, ?_⟩, hback nofun,
    fun _ => ⟨hphase, hseen⟩, hback nofun, fun h => ?_, fun _ => hcurrent⟩
  · rcases hphase with hsame | hclosing
    · rw [hsame]
      exact h.phase
    · exact .inr hclosing
  · refine ⟨?_, (congrArg Stock.outbox hstock).trans h.outbox, hown.trans h.own⟩
    rcases hphase with hsame | hclosing
    · exact hsame.trans h.phase
    · exact hclosing

theorem alike_same (h : c'.book.current = c.book.current) :
    ∀ e, c.book.current = some e → ∃ e', c'.book.current = some e' ∧ Alike e e' :=
  fun e he => ⟨e, h.trans he, .refl e⟩

theorem alike_map {change : Exchange → Exchange}
    (h : c'.book.current = c.book.current.map change) (hall : ∀ e, Alike e (change e)) :
    ∀ e, c.book.current = some e → ∃ e', c'.book.current = some e' ∧ Alike e e' := by
  intro e he
  refine ⟨change e, ?_, hall e⟩
  rw [h, he]
  rfl

theorem Underway.unmoved (h : Underway c e tail) (hsame : Unmoved c c') (halike : Alike e e') :
    Underway c' e' tail := by
  have hbody : c'.requestBody = c.requestBody := congrArg Stock.body hsame.stock
  have hrewritten : c'.requestHead = c.requestHead := congrArg Stock.rewritten hsame.stock
  have houtbox : c'.upOutbox = c.upOutbox := congrArg Stock.outbox hsame.stock
  have htargets : c'.targets = c.targets := congrArg Stock.targets hsame.stock
  have hreplay : c'.replayable = c.replayable := congrArg Stock.replay hsame.stock
  refine ⟨fun htail => ?_, ?_, ?_, ?_, ?_, ?_, ?_⟩
  · obtain ⟨hanswered, hupgraded⟩ := h.upgraded (htail.imp_right hsame.tunnel)
    exact ⟨halike.statuses 101 hanswered, hsame.upgraded hupgraded⟩
  · rw [halike.body, halike.framing, hbody]
    exact h.body
  · rw [hrewritten]
    exact h.rewritten.alike halike.head halike.framing
  · rw [hreplay, htargets, halike.framing]
    exact h.replay
  · exact fun hnil => h.tried ((tried_of_sents halike.sents).mp hnil)
  · rw [halike.sents, hrewritten]
    exact h.earlier
  · rw [halike.sents, hrewritten, halike.body, houtbox]
    exact fun sent hsent => (h.last sent hsent).imp fun rest hrest =>
      ⟨hrest.1, hrest.2.imp_right hsame.lapsed⟩

theorem Laid.unmoved (h : Laid c) (hsame : Unmoved c c') : Laid c' := by
  have hplain : c'.book.plain = c.book.plain := congrArg Stock.plain hsame.stock
  have htakenSame : c'.book.taken = c.book.taken := congrArg Stock.taken hsame.stock
  have hpast : c'.book.past = c.book.past := congrArg Stock.past hsame.stock
  have hinbox : c'.inbox = c.inbox := congrArg Stock.inbox hsame.stock
  have hstill : c'.headConsumed = c.headConsumed := congrArg Stock.consumed hsame.stock
  have htargetsSame : c'.targets = c.targets := congrArg Stock.targets hsame.stock
  refine ⟨?_, ?_, fun hfresh => ?_, fun hphase => ?_⟩
  · rw [hplain, htakenSame, hinbox]
    exact h.arrived
  · obtain ⟨parts, latest, hparts, htaken, hlatest⟩ := h.parted
    refine ⟨parts, latest, hpast ▸ hparts, htakenSame.trans htaken, ?_⟩
    unfold Latest at hlatest ⊢
    rw [hstill]
    split at hlatest
    · rename_i hconsumed
      obtain ⟨e, tail, he, hbytes, hunderway⟩ := hlatest
      obtain ⟨e', he', halike⟩ := hsame.current hconsumed e he
      rw [if_pos hconsumed]
      refine ⟨e', tail, he', ?_, hunderway.unmoved hsame halike⟩
      rw [hbytes, halike.head, halike.body]
    · rename_i hconsumed
      rw [if_neg hconsumed]
      exact hlatest
  · rw [hstill] at hfresh
    obtain ⟨hphase, hup, hseen, htargets⟩ := h.idle hfresh
    obtain ⟨hnext, hunseen⟩ := hsame.idle hfresh
    refine ⟨?_, hsame.upstream hup, hunseen.trans hseen, htargetsSame.trans htargets⟩
    rcases hnext with hkept | hclosing
    · rw [hkept]
      exact hphase
    · exact .inr hclosing
  · rw [hstill]
    exact h.head (hsame.head hphase)

/-- Before its head is taken, nothing of a request is. -/
theorem Laid.latest (h : Laid c) (hfresh : c.headConsumed = false) :
    ∃ parts, List.Forall₂ Over c.book.past parts ∧ c.book.taken = parts.flatten := by
  obtain ⟨parts, latest, hparts, htaken, hlatest⟩ := h.parted
  unfold Latest at hlatest
  rw [hfresh] at hlatest
  obtain rfl : latest = [] := hlatest
  exact ⟨parts, hparts, htaken.trans (List.append_nil _)⟩

theorem Laid.underway (h : Laid c) (hconsumed : c.headConsumed = true) :
    ∃ parts e tail, List.Forall₂ Over c.book.past parts ∧ c.book.current = some e ∧
      c.book.taken = parts.flatten ++ (e.head ++ e.body ++ tail) ∧ Underway c e tail := by
  obtain ⟨parts, latest, hparts, htaken, hlatest⟩ := h.parted
  unfold Latest at hlatest
  rw [if_pos hconsumed] at hlatest
  obtain ⟨e, tail, he, rfl, hunderway⟩ := hlatest
  exact ⟨parts, e, tail, hparts, he, htaken, hunderway⟩

theorem Laid.of_underway {parts : List Bytes} (tail : Bytes)
    (harrived : c.book.plain = c.book.taken ++ c.inbox)
    (hparts : List.Forall₂ Over c.book.past parts) (he : c.book.current = some e)
    (htaken : c.book.taken = parts.flatten ++ (e.head ++ e.body ++ tail))
    (hunderway : Underway c e tail) (hconsumed : c.headConsumed = true) (hphase : c.phase ≠ .head) :
    Laid c := by
  refine ⟨harrived, ⟨parts, _, hparts, htaken, ?_⟩, fun hfresh => ?_, fun h => absurd h hphase⟩
  · unfold Latest
    rw [if_pos hconsumed]
    exact ⟨e, tail, he, rfl, hunderway⟩
  · rw [hconsumed] at hfresh
    cases hfresh

/-- A connection that has taken nothing yet of the request it has. -/
theorem Laid.of_fresh {parts : List Bytes} (harrived : c.book.plain = c.book.taken ++ c.inbox)
    (hparts : List.Forall₂ Over c.book.past parts) (htaken : c.book.taken = parts.flatten)
    (hfresh : c.headConsumed = false) (hphase : c.phase = .head ∨ c.phase = .closing)
    (hup : c.upstream = none) (hseen : c.responseHeadSeen = false) (htargets : c.targets = []) :
    Laid c := by
  refine ⟨harrived, ⟨parts, [], hparts, htaken.trans (List.append_nil _).symm, ?_⟩,
    fun _ => ⟨hphase, hup, hseen, htargets⟩, fun _ => hfresh⟩
  unfold Latest
  rw [hfresh]
  rfl

theorem Laid.consumed (h : Laid c) (hhead : c.phase ≠ .head) (hclosing : c.phase ≠ .closing) :
    c.headConsumed = true := by
  by_contra hfresh
  rcases (h.idle (Bool.eq_false_iff.mpr hfresh)).1 with hphase | hphase
  · exact hhead hphase
  · exact hclosing hphase

/-- A request that is being answered has had its head taken. -/
theorem Laid.answered (h : Laid c) (hseen : c.responseHeadSeen = true) :
    c.headConsumed = true := by
  by_contra hfresh
  rw [(h.idle (Bool.eq_false_iff.mpr hfresh)).2.2.1] at hseen
  cases hseen

end Requests

section Progressing

variable {env : Outside} {ans : Answers} {calm : Bool} {w w' : World} {fd : Fd} {c c' : Conn}
  {e : Exchange} {tail : Bytes} {p q : Hand}

/-- A request in an exchange or a response being relayed has no tunnel behind it. -/
theorem Underway.untunnelled (h : Underway c e tail)
    (hphase : c.phase = .exchanging ∨ c.phase = .relaying) : tail = [] := by
  by_contra htail
  have hupgraded := (h.upgraded (.inl htail)).2.phase
  rcases hphase with hexchanging | hrelaying
  · rw [hexchanging] at hupgraded
    rcases hupgraded with hp | hp <;> cases hp
  · rw [hrelaying] at hupgraded
    rcases hupgraded with hp | hp <;> cases hp

/-- What is taken for an open request is queued for its upstream behind the rest. -/
theorem Underway.queued (h : Underway c e tail) (hopen : c.phase ≠ .closing) :
    ∀ sent ∈ (sents e).getLast?, sent ++ c.upOutbox = c.requestHead ++ e.body ++ tail := by
  intro sent hsent
  obtain ⟨rest, hrest, hqueued | hlapsed⟩ := h.last sent hsent
  · rw [← hqueued]
    exact hrest
  · exact absurd hlapsed.phase hopen

theorem pumped_exact {progressed : Bool} (h : pumpRequestBody w c = .ok (w', c', progressed)) :
    c' = c ∨ ∃ n done body mirror, c.requestBody.isDone = false ∧
      c.requestBody.take c.inbox = .ok (n, done, body) ∧
      c' = { c with
        mirror := mirror, upOutbox := c.upOutbox ++ c.inbox.take n, inbox := c.inbox.drop n
        requestBody := if done then .done else body
        book := c.book.takeBody (c.inbox.take n) } := by
  unfold pumpRequestBody at h
  split at h
  · rename_i hopen
    simp only [Bool.and_eq_true, Bool.not_eq_true'] at hopen
    split at h
    · cases h
    · rename_i n done body htake
      obtain ⟨copied, hcopied⟩ := mirrorBody_fields w.config
        { c with upOutbox := c.upOutbox ++ c.inbox.take n } (c.inbox.take n)
      dsimp only at h
      rw [hcopied] at h
      refine .inr ⟨n, done, body, ?_⟩
      cases done with
      | false =>
          cases h
          exact ⟨copied, hopen.1, htake, rfl⟩
      | true =>
          obtain ⟨sent, hsent⟩ := sendMirror_fields w
            { c with
              upOutbox := c.upOutbox ++ c.inbox.take n, mirror := copied
              inbox := c.inbox.drop n, requestBody := .done
              book := c.book.takeBody (c.inbox.take n) }
          cases h
          exact ⟨sent, hopen.1, htake, hsent⟩
  · cases h
    exact .inl rfl

/-- Body bytes leave the inbox for the upstream. -/
theorem pumped_laid {progressed : Bool} (hl : Laid c)
    (hphase : c.phase = .exchanging ∨ c.phase = .relaying)
    (h : pumpRequestBody w c = .ok (w', c', progressed)) : Laid c' := by
  rcases pumped_exact h with rfl | ⟨n, done, body, mirror, hopen, htake, rfl⟩
  · exact hl
  have hbusy : c.phase ≠ .head ∧ c.phase ≠ .closing := by
    rcases hphase with hp | hp <;> rw [hp] <;> exact ⟨nofun, nofun⟩
  have hconsumed := hl.consumed hbusy.1 hbusy.2
  obtain ⟨parts, e, tail, hparts, he, htaken, hunderway⟩ := hl.underway hconsumed
  obtain rfl := hunderway.untunnelled hphase
  have hcurrent : (c.book.takeBody (c.inbox.take n)).current =
      some { e with body := e.body ++ c.inbox.take n } := by
    unfold Book.takeBody
    rw [he]
    rfl
  refine .of_underway [] ?_ hparts hcurrent ?_
    ⟨fun htail => ?_, hunderway.body.take hopen htake,
      hunderway.rewritten.alike rfl rfl, hunderway.replay, hunderway.tried, hunderway.earlier,
      fun sent hsent => ⟨_, ?_, .inl rfl⟩⟩ hconsumed hbusy.1
  · show c.book.plain = c.book.taken ++ c.inbox.take n ++ c.inbox.drop n
    rw [List.append_assoc, List.take_append_drop]
    exact hl.arrived
  · show c.book.taken ++ c.inbox.take n = _
    rw [htaken]
    simp only [List.append_nil, List.append_assoc]
  · obtain ⟨hanswered, hupgraded⟩ := hunderway.upgraded htail
    exact ⟨hanswered, hupgraded.seen, hupgraded.phase⟩
  · have hqueued := hunderway.queued hbusy.2 sent hsent
    show sent ++ (c.upOutbox ++ c.inbox.take n) = c.requestHead ++ (e.body ++ c.inbox.take n) ++ []
    rw [← List.append_assoc, hqueued]
    simp only [List.append_nil, List.append_assoc]

/-- In a tunnel, and where one begins, what the client sent is queued as it is. -/
theorem Underway.carried (h : Underway c e tail) (hopen : c.phase ≠ .closing) (more : Bytes)
    {c' : Conn} {e' : Exchange} (halike : Alike e e') (hupgraded : 101 ∈ e'.statuses ∧ Upgraded c')
    (hbody : c'.requestBody = c.requestBody) (hhead : c'.requestHead = c.requestHead)
    (hreplay : c'.replayable = c.replayable) (htargets : c'.targets = c.targets)
    (houtbox : c'.upOutbox = c.upOutbox ++ more) : Underway c' e' (tail ++ more) := by
  refine ⟨fun _ => hupgraded, ?_, ?_, ?_, ?_, ?_, fun sent hsent => ⟨_, ?_, .inl houtbox.symm⟩⟩
  · rw [halike.body, halike.framing, hbody]
    exact h.body
  · rw [hhead]
    exact h.rewritten.alike halike.head halike.framing
  · rw [hreplay, htargets, halike.framing]
    exact h.replay
  · exact fun hnil => h.tried ((tried_of_sents halike.sents).mp hnil)
  · rw [halike.sents, hhead]
    exact h.earlier
  · rw [halike.sents] at hsent
    rw [hhead, halike.body, ← List.append_assoc, ← List.append_assoc, h.queued hopen sent hsent]

theorem tunnelled_laid (env : Outside) (w : World) (hl : Laid c) (hphase : c.phase = .exchanging)
    (asked : Bytes) : Laid (tunnelled env w c asked).2 := by
  have hbusy : c.phase ≠ .head ∧ c.phase ≠ .closing := by
    rw [hphase]
    exact ⟨nofun, nofun⟩
  have hconsumed := hl.consumed hbusy.1 hbusy.2
  obtain ⟨parts, e, tail, hparts, he, htaken, hunderway⟩ := hl.underway hconsumed
  obtain ⟨out, hout⟩ := tunnelled_fields env w c asked
  obtain ⟨e', he', halike, hanswered⟩ : ∃ e',
      (tunnelled env w c asked).2.book.current = some e' ∧ Alike e e' ∧ 101 ∈ e'.statuses := by
    rw [hout]
    refine ⟨_, (congrArg (Option.map _) (congrArg (Option.map _) he)), ?_, ?_⟩
    · exact ⟨rfl, rfl, rfl, rfl, fun s hs => List.mem_append_left _ hs⟩
    · exact List.mem_append_right _ (List.mem_singleton.mpr rfl)
  have hcarried : Underway (tunnelled env w c asked).2 e' (tail ++ c.inbox) :=
    hunderway.carried hbusy.2 c.inbox halike (by rw [hout]; exact ⟨hanswered, rfl, .inl rfl⟩)
      (by rw [hout]) (by rw [hout]) (by rw [hout]) (by rw [hout]) (by rw [hout])
  have hpast : List.Forall₂ Over (tunnelled env w c asked).2.book.past parts := by
    rw [hout]
    exact hparts
  refine .of_underway _ ?_ hpast he' ?_ hcarried ?_ ?_
  · rw [hout]
    show c.book.plain = c.book.taken ++ c.inbox ++ []
    rw [List.append_nil]
    exact hl.arrived
  · rw [halike.head, halike.body, hout]
    show c.book.taken ++ c.inbox = _
    rw [htaken]
    simp only [List.append_assoc]
  · rw [hout]
    exact hconsumed
  · rw [hout]
    nofun

theorem shuttled_laid (ans : Answers) (hl : Laid c) (hphase : c.phase = .tunnel) :
    Laid (shuttled ans c) := by
  have hbusy : c.phase ≠ .head ∧ c.phase ≠ .closing := by
    rw [hphase]
    exact ⟨nofun, nofun⟩
  have hconsumed := hl.consumed hbusy.1 hbusy.2
  obtain ⟨parts, e, tail, hparts, he, htaken, hunderway⟩ := hl.underway hconsumed
  obtain ⟨hanswered, hupgraded⟩ := hunderway.upgraded (.inr hphase)
  obtain ⟨tls, phase, hasty, hfields, hnext, -⟩ := shuttled_fields ans c
  rw [hfields]
  obtain ⟨e', he', halike⟩ : ∃ e', (Book.queue { c.book with taken := c.book.taken ++ c.inbox }
      c.upInbox).current = some e' ∧ Alike e e' :=
    ⟨_, congrArg (Option.map _) he, rfl, rfl, rfl, rfl, fun _ => id⟩
  have hlate : phase = .tunnel ∨ phase = .closing := hnext.imp_left (·.trans hphase)
  refine .of_underway _ ?_ hparts he' ?_ (hunderway.carried hbusy.2 c.inbox halike
    ⟨halike.statuses 101 hanswered, hupgraded.seen, hlate⟩ rfl rfl rfl rfl rfl) hconsumed ?_
  · show c.book.plain = c.book.taken ++ c.inbox ++ []
    rw [List.append_nil]
    exact hl.arrived
  · rw [halike.head, halike.body]
    show c.book.taken ++ c.inbox = _
    rw [htaken]
    simp only [List.append_assoc]
  · intro hhead
    rcases hlate with rfl | rfl <;> cases hhead

/-- What a request is parsed, described and routed as takes nothing of it. -/
theorem unmoved_early (hl : Laid c) (hphase : c.phase = .head) (hstock : stockOf c' = stockOf c)
    (hup : c'.upstream = c.upstream) (hseen : c'.responseHeadSeen = c.responseHeadSeen)
    (hsame : c'.phase = c.phase) : Unmoved c c' := by
  have hfresh := hl.head hphase
  refine ⟨hstock, hup.trans, fun h => ⟨hseen.trans h.seen, hsame ▸ h.phase⟩, (hsame ▸ ·),
    fun _ => ⟨.inl hsame, hseen⟩, (hsame ▸ ·), fun h => ?_, fun hconsumed => ?_⟩
  · have hclosing := h.phase
    rw [hphase] at hclosing
    cases hclosing
  · rw [hfresh] at hconsumed
    cases hconsumed

theorem relayHead_unmoved (env : Outside) (w : World) (hl : Laid c) (hphase : c.phase = .exchanging)
    (hseen : c.responseHeadSeen = false) (framing : Framing) :
    Unmoved c (relayHead env w c framing).2 := by
  have hconsumed : c.headConsumed = true :=
    hl.consumed (by rw [hphase]; nofun) (by rw [hphase]; nofun)
  obtain ⟨out, hout⟩ := relayHead_fields env w c framing
  rw [hout]
  refine ⟨rfl, id, fun h => ?_, nofun, fun hfresh => ?_, nofun, fun h => ?_, fun _ => ?_⟩
  · rw [h.seen] at hseen
    cases hseen
  · rw [hconsumed] at hfresh
    cases hfresh
  · have hclosing := h.phase
    rw [hphase] at hclosing
    cases hclosing
  · exact alike_map (c := c) rfl fun e =>
      ⟨rfl, rfl, rfl, rfl, fun s hs => List.mem_append_left _ hs⟩

theorem alike_queue (e : Exchange) (bytes : Bytes) :
    Alike e { e with relay := e.relay.map fun r => { r with since := r.since ++ bytes } } :=
  ⟨rfl, rfl, rfl, rfl, fun _ => id⟩

/-- Whatever an exchange does to its connection, no byte of the client is lost or moved. -/
theorem progress_laid (h : Progress env ans calm p q) (hl : Laid p.2) : Laid q.2 := by
  cases h with
  | parsed | upParsed | upEnded | extended =>
      exact hl.unmoved (.same rfl id rfl (.inl rfl) rfl (alike_same rfl))
  | halfSent | truncated | undispatched =>
      exact hl.unmoved (.same rfl id rfl (.inr rfl) rfl (alike_same rfl))
  | begun hphase => exact hl.unmoved (unmoved_early hl hphase rfl rfl rfl rfl)
  | @described w c framing hphase =>
      -- The framing is described before anything is taken.
      have hfresh := hl.head hphase
      obtain ⟨parts, hparts, htaken⟩ := hl.latest hfresh
      obtain ⟨hidle, hup, hseen, htargets⟩ := hl.idle hfresh
      exact .of_fresh hl.arrived hparts htaken hfresh hidle hup hseen htargets
  | routed hphase => exact hl.unmoved (unmoved_early hl hphase rfl rfl rfl rfl)
  | refused => exact hl
  | pumped hphase hpumped => exact pumped_laid hl hphase hpumped
  | tunnelled hphase => exact tunnelled_laid env _ hl hphase _
  | headRelayed hphase hseen => exact hl.unmoved (relayHead_unmoved env _ hl hphase hseen _)
  | @bodyRelayed w c | @closed w c =>
      exact hl.unmoved (.same rfl id rfl (.inl rfl) rfl
        (alike_map (c := c) rfl fun e => alike_queue e _))
  | shuttled hphase => exact shuttled_laid ans hl hphase

theorem hands_laid (h : Hands env ans calm p q) (hl : Laid p.2) : Laid q.2 := by
  induction h with
  | refl => exact hl
  | tail _ hstep ih => exact progress_laid hstep ih

end Progressing

section Lives

variable {env : Outside} {ans : Answers} {calm : Bool} {w w' : World} {fd : Fd} {c c' : Conn}
  {e e' : Exchange} {tail : Bytes} {parts : List Bytes}

theorem Over.alike {bytes : Bytes} (h : Over e bytes) (halike : Alike e e')
    (hrelay : e.relay ≠ none → e'.relay ≠ none) : Over e' bytes := by
  refine ⟨?_, ?_, ?_⟩
  · obtain ⟨rest, head, hparsed⟩ := h.parsed
    exact ⟨rest, head, hparsed.alike halike.head halike.framing⟩
  · obtain ⟨tail, hbytes, hupgraded, htried⟩ := h.taken
    refine ⟨tail, ?_, fun htail => halike.statuses 101 (hupgraded htail), fun hsome => ?_⟩
    · rw [halike.head, halike.body]
      exact hbytes
    · obtain ⟨out, hout, hearlier, hlast⟩ :=
        htried fun hnil => hsome ((tried_of_sents halike.sents).mpr hnil)
      rw [halike.sents, halike.body]
      exact ⟨out, hout.alike halike.head halike.framing, hearlier, hlast⟩
  · obtain ⟨left, hreached, hwhole⟩ := h.whole
    rw [halike.body, halike.framing]
    exact ⟨left, hreached, hwhole.imp_right hrelay⟩

/-- A request whose body is complete, or whose response was relayed, can be outlived. -/
theorem Underway.over (h : Underway c e tail)
    (hwhole : c.requestBody.isDone = true ∨ e.relay ≠ none) :
    Over e (e.head ++ e.body ++ tail) := by
  refine ⟨?_, ⟨tail, rfl, fun htail => (h.upgraded (.inl htail)).1, fun _ =>
    ⟨c.requestHead, h.rewritten, h.earlier, fun sent hsent => ?_⟩⟩, ⟨c.requestBody, h.body, hwhole⟩⟩
  · obtain ⟨rest, head, client, target, upgrade, requestId, hparsed, -⟩ := h.rewritten
    exact ⟨rest, head, hparsed⟩
  · obtain ⟨rest, hrest, -⟩ := h.last sent hsent
    exact ⟨rest, hrest⟩

theorem forall₂_concat {past : List Exchange} {bytes : Bytes} (h : List.Forall₂ Over past parts)
    (hlast : Over e bytes) : List.Forall₂ Over (past ++ [e]) (parts ++ [bytes]) :=
  List.rel_append h (.cons hlast .nil)

/-- Once its request is outlived, a connection has taken nothing of the next. -/
theorem Laid.next (hl : Laid c) (hconsumed : c.headConsumed = true)
    (hover : ∀ e tail, c.book.current = some e → Underway c e tail →
      c.requestBody.isDone = true ∨ e.relay ≠ none)
    (hplain : c'.book.plain = c.book.plain) (htaken : c'.book.taken = c.book.taken)
    (hinbox : c'.inbox = c.inbox)
    (hpast : ∀ e, c.book.current = some e → ∃ e', c'.book.past = c.book.past ++ [e'] ∧
      Alike e e' ∧ (e.relay ≠ none → e'.relay ≠ none))
    (hfresh : c'.headConsumed = false) (hphase : c'.phase = .head ∨ c'.phase = .closing)
    (hup : c'.upstream = none) (hseen : c'.responseHeadSeen = false) (htargets : c'.targets = []) :
    Laid c' := by
  obtain ⟨parts, e, tail, hparts, he, hbytes, hunderway⟩ := hl.underway hconsumed
  obtain ⟨e', hgrown, halike, hrelay⟩ := hpast e he
  have hover := (hunderway.over (hover e tail he hunderway)).alike halike hrelay
  have hparts := forall₂_concat hparts hover
  rw [← hgrown] at hparts
  refine .of_fresh ?_ hparts ?_ hfresh hphase hup hseen htargets
  · rw [hplain, htaken, hinbox]
    exact hl.arrived
  · rw [htaken, hbytes, List.flatten_append, List.flatten_singleton]

/-- A request its core answers itself before it took any of it. -/
theorem begun_over (hbegun : Begun c) (htold : Told env c) (hphase : c.phase = .head)
    (hdone : c.requestBody.isDone = true) (he : c.book.current = some e) :
    Over e (c.inbox.take c.head.len) := by
  obtain ⟨e₀, he₀, hhead, hbody, hframing, hrequest⟩ := hbegun.current
  rw [he] at he₀
  obtain rfl := Option.some.inj he₀
  obtain ⟨h0, hread⟩ := hbegun.read
  have hsplit : e.head ++ c.inbox.drop c.head.len = c.inbox := by
    rw [hhead, List.take_append_drop]
  refine ⟨⟨c.inbox.drop c.head.len, c.head, ⟨h0, ?_⟩, ?_, ?_⟩, ⟨[], ?_, fun h => absurd rfl h,
    fun hsome => absurd ((htold.idle hphase).2 e he).1 hsome⟩, ⟨c.requestBody, ?_, .inl hdone⟩⟩
  · rw [hsplit]
    exact hread
  · rw [hhead, List.length_take, Nat.min_eq_left (accepted_len (.inl hread)).2]
  · rw [hsplit]
    exact hframing
  · rw [hbody, List.append_nil, List.append_nil, hhead]
  · rw [hbody, hrequest]
    exact reached_new _

/-- A request that is refused late has had its head taken. -/
theorem Laid.failing (hl : Laid c) (hfailing : Failing w c) (hphase : c.phase ≠ .head) :
    c.headConsumed = true := by
  by_contra hfresh
  obtain ⟨hidle, -, -, htargets⟩ := hl.idle (Bool.eq_false_iff.mpr hfresh)
  have hclosing := hidle.resolve_left hphase
  cases hfailing with
  | early hhead => exact hphase hhead
  | late _ _ hserved =>
      rw [hclosing, htargets] at hserved
      rcases hserved with hp | hp | hless
      · cases hp
      · cases hp
      · cases hless
  | rejected hserved =>
      rw [hclosing] at hserved
      rcases hserved with hp | hp <;> cases hp

theorem refusedWith_laid (hl : Laid c) (htold : Told env c) (hfailing : Failing w c) (status : Nat)
    (body : Bytes) (close : Bool) (unsupported : Option Bytes)
    (hbegun : close = false → c.phase = .head → Begun c) :
    Laid (refusedWith env c status body close unsupported) := by
  unfold refusedWith answeredSelf
  generalize invented env c status body close unsupported = out
  have hinvented : ∀ e : Exchange, Alike e { e with
      statuses := e.statuses ++ [status]
      relay := e.relay.map fun r => { r with since := r.since ++ out, intruded := true } } :=
    fun e => ⟨rfl, rfl, rfl, rfl, fun s hs => List.mem_append_left _ hs⟩
  cases hcloses : closes c close with
  | true =>
      simp only [Bool.not_true, Bool.false_and, Bool.false_eq_true, if_false, if_true]
      exact hl.unmoved (.same rfl (fun _ => rfl) rfl (.inr rfl) rfl
        (alike_map (c := c) rfl hinvented))
  | false =>
      unfold closes at hcloses
      simp only [Bool.or_eq_false_iff, Bool.not_eq_false'] at hcloses
      obtain ⟨⟨hkeeps, -⟩, hdone⟩ := hcloses
      by_cases hphase : c.phase = .head
      · have hfresh := hl.head hphase
        have hread := hbegun hkeeps hphase
        obtain ⟨e, he, -⟩ := hread.current
        obtain ⟨parts, hparts, htaken⟩ := hl.latest hfresh
        have hover := (begun_over hread htold hphase hdone he).alike (hinvented e)
          fun hsome hnone => hsome (Option.map_eq_none_iff.mp hnone)
        have hgrown := forall₂_concat hparts hover
        simp only [Bool.not_false, Bool.true_and, Bool.false_eq_true, if_false]
        rw [if_pos (by show (!c.headConsumed) = true; rw [hfresh]; rfl)]
        have hpast : List.Forall₂ Over (c.book.past ++ (c.book.current.map fun e => { e with
            statuses := e.statuses ++ [status]
            relay := e.relay.map fun r =>
              { r with since := r.since ++ out, intruded := true } }).toList)
            (parts ++ [c.inbox.take c.head.len]) := by
          rw [he]
          exact hgrown
        refine .of_fresh ?_ hpast ?_ rfl (.inl rfl) rfl rfl rfl
        · show c.book.plain = c.book.taken ++ c.inbox.take c.head.len ++ c.inbox.drop c.head.len
          rw [List.append_assoc, List.take_append_drop]
          exact hl.arrived
        · show c.book.taken ++ c.inbox.take c.head.len = _
          rw [htaken, List.flatten_append, List.flatten_singleton]
      · have hconsumed := hl.failing hfailing hphase
        simp only [Bool.not_false, Bool.true_and, Bool.false_eq_true, if_false]
        rw [if_neg (by show ¬ (!c.headConsumed) = true; rw [hconsumed]; nofun)]
        refine hl.next hconsumed (fun _ _ _ _ => .inl hdone) rfl rfl rfl (fun e he => ?_) rfl
          (.inl rfl) rfl rfl rfl
        refine ⟨_, ?_, hinvented e, fun hsome hnone => hsome (Option.map_eq_none_iff.mp hnone)⟩
        show c.book.past ++ (c.book.current.map _).toList = _
        rw [he]
        rfl

/-- A response that is complete leaves its request behind, whatever is left of that. -/
theorem ended_laid (hl : Laid c) (htold : Told env c) (hseen : c.responseHeadSeen = true) :
    Laid (letLoose c).ended := by
  have hconsumed : c.headConsumed = true := hl.answered hseen
  have hrelayed : ∀ e tail, c.book.current = some e → Underway c e tail →
      c.requestBody.isDone = true ∨ e.relay ≠ none := by
    intro e tail he _
    refine .inr fun hnone => ?_
    rw [(htold.before e he hnone).1] at hseen
    cases hseen
  have hpast : ∀ e, c.book.current = some e → ∃ e', c.book.past ++ c.book.current.toList =
      c.book.past ++ [e'] ∧ Alike e e' ∧ (e.relay ≠ none → e'.relay ≠ none) := by
    intro e he
    rw [he]
    exact ⟨e, rfl, .refl e, id⟩
  unfold Conn.ended
  dsimp only
  split
  · exact hl.next hconsumed hrelayed rfl rfl rfl hpast rfl (.inl rfl) rfl rfl rfl
  · exact hl.next hconsumed hrelayed rfl rfl rfl hpast rfl (.inr rfl) rfl rfl rfl

theorem flushedDown_unmoved (ans : Answers) (fd : Fd) (c : Conn) :
    Unmoved c (flushedDown ans fd c) := by
  obtain ⟨tls, outbox, given, hsealed, -⟩ := sealed_fields ans.rustls c
  obtain ⟨tls', outbox', hunloaded, -⟩ := unloaded_fields
    { c with tls := tls, outbox := outbox, book := { c.book with given := given } }
  unfold flushedDown
  rw [hsealed]
  dsimp only
  rw [hunloaded]
  split
  · split
    · exact .same rfl id rfl (.inl rfl) rfl (alike_same rfl)
    · exact .same rfl id rfl (.inr rfl) rfl (alike_same rfl)
  · exact .same rfl id rfl (.inl rfl) rfl (alike_same rfl)

/-- What is queued for an upstream is sent on the connection tried last, in its place. -/
theorem flushedUp_laid (ans : Answers) (hs : Steady c) (hl : Laid c) : Laid (flushedUp ans c) := by
  unfold flushedUp
  split
  · exact hl
  rename_i up hup
  split
  swap
  · exact hl
  rename_i hready
  simp only [Bool.and_eq_true, Bool.not_eq_true', List.isEmpty_eq_false_iff] at hready
  obtain ⟨⟨hready, -⟩, hqueued⟩ := hready
  have hown : c.upBorrowed = false := by
    by_contra hlent
    have hunready : c.upReady = false := (hs.shape.borrowed ((Bool.not_eq_false _).mp hlent)).1
    rw [hunready] at hready
    cases hready
  have hconsumed : c.headConsumed = true := by
    by_contra hfresh
    rw [(hl.idle (Bool.eq_false_iff.mpr hfresh)).2.1] at hup
    cases hup
  have hbusy : c.phase ≠ .head := by
    intro hhead
    rw [hl.head hhead] at hconsumed
    cases hconsumed
  obtain ⟨parts, e, tail, hparts, he, htaken, hunderway⟩ := hl.underway hconsumed
  have hrest : ∀ sent ∈ (sents e).getLast?,
      sent ++ c.upOutbox = c.requestHead ++ e.body ++ tail := by
    intro sent hsent
    obtain ⟨rest, hall, rfl | hlapsed⟩ := hunderway.last sent hsent
    · exact hall
    · exact absurd hlapsed.outbox hqueued
  split
  · have hcurrent : (sentUp c).current = some { e with
        tried := e.tried.dropLast ++
          (e.tried.getLast?.map fun t => { t with sent := t.sent ++ c.upOutbox }).toList } :=
      congrArg (Option.map _) he
    obtain ⟨before, t, hsplit⟩ : ∃ before t, e.tried = before ++ [t] := by
      rcases List.eq_nil_or_concat e.tried with hnil | ⟨before, t, hsplit⟩
      · exact absurd hnil hunderway.tried
      · exact ⟨before, t, hsplit.trans (List.concat_eq_append ..)⟩
    have hsents : sents e = before.map (·.sent) ++ [t.sent] := by
      unfold sents
      rw [hsplit, List.map_append, List.map_singleton]
    rw [hsplit, List.dropLast_concat, List.getLast?_concat] at hcurrent
    have hwhole := hrest t.sent (by rw [hsents]; exact List.getLast?_concat ..)
    have hearlier := hunderway.earlier
    rw [hsents, List.dropLast_concat] at hearlier
    refine .of_underway _ hl.arrived hparts hcurrent htaken ⟨fun htail => ?_, hunderway.body,
      hunderway.rewritten.alike rfl rfl, hunderway.replay, by simp, ?_, ?_⟩ hconsumed hbusy
    · obtain ⟨hanswered, hupgraded⟩ := hunderway.upgraded htail
      exact ⟨hanswered, hupgraded.seen, hupgraded.phase⟩
    · unfold sents
      rw [Option.map_some, Option.toList_some, List.map_append, List.map_singleton,
        List.dropLast_concat]
      exact hearlier
    · unfold sents
      rw [Option.map_some, Option.toList_some, List.map_append, List.map_singleton,
        List.getLast?_concat]
      rintro sent ⟨⟩
      exact ⟨[], (List.append_nil _).trans hwhole, .inl rfl⟩
  · refine .of_underway _ hl.arrived hparts he htaken ⟨fun htail => ?_, hunderway.body,
      hunderway.rewritten, hunderway.replay, hunderway.tried, hunderway.earlier,
      fun sent hsent => ⟨c.upOutbox, hrest sent hsent, .inr ⟨rfl, rfl, hown⟩⟩⟩ hconsumed nofun
    have htail := htail.resolve_right nofun
    obtain ⟨hanswered, hupgraded⟩ := hunderway.upgraded (.inl htail)
    exact ⟨hanswered, hupgraded.seen, .inr rfl⟩

theorem watchedUp_unmoved (ans : Answers) (c : Conn) : Unmoved c (watchedUp ans c) := by
  have hsame : Unmoved c c := .same rfl id rfl (.inl rfl) rfl (alike_same rfl)
  unfold watchedUp
  split
  · exact hsame
  · split
    · exact .same rfl id rfl (.inl rfl) rfl (alike_same rfl)
    · exact hsame

theorem watchedDown_unmoved (ans : Answers) (fd : Fd) (c : Conn) :
    Unmoved c (watchedDown ans fd c) := by
  unfold watchedDown
  split
  · exact .same rfl id rfl (.inl rfl) rfl (alike_same rfl)
  · exact .same rfl id rfl (.inl rfl) rfl (alike_same rfl)

/-- A connection on which one more thing is tried: nothing was sent on that yet. -/
structure Started (c c' : Conn) (t : Try) : Prop where
  sent : t.sent = []
  current : c'.book.current = c.book.current.map fun e => { e with tried := e.tried ++ [t] }
  stock : stockOf c' = stockOf c
  phase : c'.phase = c.phase ∨ c'.phase = .exchanging ∨ c'.phase = .connecting

theorem launched_started (ans : Answers) (addr : SocketAddr) (w : World) (c : Conn) :
    ∃ t, Started c (launched ans addr w c) t := by
  obtain ⟨held, hheld⟩ := holdInflight_fields w
    { c with dispatchedAt := some w.clock, deadline := some (w.clock + w.config.responseTimeout) }
  unfold launched
  rw [hheld]
  dsimp only
  split
  · exact ⟨_, rfl, rfl, rfl, .inr (.inl rfl)⟩
  · split
    · exact ⟨_, rfl, rfl, rfl, .inl rfl⟩
    · split
      · exact ⟨_, rfl, rfl, rfl, .inr (.inl rfl)⟩
      · split
        · exact ⟨_, rfl, rfl, rfl, .inr (.inr rfl)⟩
        · exact ⟨_, rfl, rfl, rfl, .inl rfl⟩

/-- A connection is tried once everything sent on those before was some of the head. -/
theorem laid_started {t : Try} (hstarted : Started c c' t)
    (harrived : c.book.plain = c.book.taken ++ c.inbox)
    (hparts : List.Forall₂ Over c.book.past parts) (he : c.book.current = some e)
    (htaken : c.book.taken = parts.flatten ++ e.head) (hbody : e.body = [])
    (hreached : Reached [] e.framing c.requestBody) (hrewritten : Rewritten e c.requestHead)
    (hreplay : c.replayable = true ∨ 1 < c.targets.length → e.framing = .empty)
    (hearlier : ∀ sent ∈ sents e, sent <+: c.requestHead) (hqueued : c.upOutbox = c.requestHead)
    (hconsumed : c.headConsumed = true) (hphase : c.phase = .exchanging) : Laid c' := by
  have hstock := hstarted.stock
  unfold stockOf at hstock
  rw [Stock.mk.injEq] at hstock
  obtain ⟨hplain, htook, hpast, hinbox, hstill, hrequest, hhead, houtbox, htargets, hagain⟩ :=
    hstock
  have hopen : c'.phase = .exchanging ∨ c'.phase = .connecting := by
    rcases hstarted.phase with hsame | hopen
    · exact .inl (hsame.trans hphase)
    · exact hopen
  have hbusy : c'.phase ≠ .head ∧ c'.phase ≠ .tunnel := by
    rcases hopen with hp | hp <;> rw [hp] <;> exact ⟨nofun, nofun⟩
  have he' : c'.book.current = some { e with tried := e.tried ++ [t] } :=
    hstarted.current.trans (congrArg (Option.map _) he)
  have hsents : sents { e with tried := e.tried ++ [t] } = sents e ++ [[]] := by
    unfold sents
    rw [List.map_append, List.map_singleton, hstarted.sent]
  refine Laid.of_underway [] ?_ (hpast ▸ hparts) he' ?_ ⟨fun htail => ?_, ?_, ?_, ?_, ?_, ?_,
    fun sent hsent => ⟨c.requestHead, ?_, .inl ?_⟩⟩ (hstill.trans hconsumed) hbusy.1
  · rw [hplain, htook, hinbox]
    exact harrived
  · rw [htook, htaken, hbody, List.append_nil, List.append_nil]
  · rcases htail with hsome | htunnel
    · exact absurd rfl hsome
    · exact absurd htunnel hbusy.2
  · rw [hbody, hrequest]
    exact hreached
  · rw [hhead]
    exact hrewritten.alike rfl rfl
  · rw [hagain, htargets]
    exact hreplay
  · simp
  · rw [hsents, List.dropLast_concat, hhead]
    exact hearlier
  · rw [hsents, List.getLast?_concat] at hsent
    obtain rfl := Option.some.inj hsent
    rw [hhead, hbody, List.append_nil, List.append_nil]
    rfl
  · rw [houtbox, hqueued]

/-- The connection of a request with somewhere to go, once its head is taken. -/
def headTaken (aimed : Conn) (snapshot : Snapshot) (mirror : Option MirrorCopy) : Conn :=
  { aimed with
    mirror := mirror, inbox := aimed.inbox.drop aimed.head.len, headConsumed := true
    book := { aimed.book with
      taken := aimed.book.taken ++ aimed.inbox.take aimed.head.len }
    snapshot := some snapshot, phase := .exchanging, upOutbox := aimed.requestHead }

theorem dispatched_taken (ans : Answers) (w : World) (c : Conn) (snapshot : Snapshot)
    (matched : Matched) (framing : Framing) (first : Nat) (targets : List SocketAddr)
    (target : SocketAddr) : ∃ mirror,
      (dispatched ans w c snapshot matched framing first targets target).2 =
        headTaken (Conn.aimed ans c matched framing first targets target) snapshot mirror := by
  obtain ⟨planned, hplanned⟩ := planMirror_fields ans w
    (Conn.aimed ans c matched framing first targets target) snapshot matched.mirror framing
  unfold dispatched
  dsimp only
  rw [hplanned]
  split
  · obtain ⟨sent, hsent⟩ := sendMirror_fields
      (planMirror ans w (Conn.aimed ans c matched framing first targets target) snapshot
        matched.mirror framing).1
      { Conn.aimed ans c matched framing first targets target with mirror := planned }
    rw [hsent]
    exact ⟨sent, rfl⟩
  · exact ⟨planned, by rw [hplanned]; rfl⟩

/-- A request with a body has one address to be tried at. -/
theorem framing_of_targets {matched : Matched} {framing : Framing} {first allowed most : Nat}
    (hallowed : allowed = attempts framing matched.backend.endpoints.length most)
    (hmany : 1 < (targetsOf matched.backend first allowed).length) : framing = .empty := by
  by_contra hsome
  have hlength : (targetsOf matched.backend first allowed).length ≤ allowed := by
    refine (List.length_filterMap_le _ _).trans ?_
    rw [List.length_range]
  have hone : allowed = 1 := by
    rw [hallowed]
    exact if_neg hsome
  omega

/-- A request whose head is taken and whose first upstream is sought. -/
theorem sent_laid {matched : Matched} {framing : Framing} {first allowed most : Nat}
    {target : SocketAddr} {others : List SocketAddr} (w₂ : World) (snapshot : Snapshot)
    (hl : Laid c) (htold : Told env c) (hphase : c.phase = .head)
    (hbody : c.requestBody = Body.new framing)
    (hallowed : allowed = attempts framing matched.backend.endpoints.length most)
    (htargets : targetsOf matched.backend first allowed = target :: others)
    (hframed : ∀ e, c.book.current = some e → e.framing = framing) (hbegun : Begun c) :
    Laid (launched ans target w₂
      (dispatched ans w c snapshot matched framing first (target :: others) target).2) := by
  obtain ⟨e, he, hhead, hnone, hframing, -⟩ := hbegun.current
  obtain ⟨h0, hread⟩ := hbegun.read
  have hempty := hframed e he
  have hsplit : e.head ++ c.inbox.drop c.head.len = c.inbox := by
    rw [hhead, List.take_append_drop]
  have hparsed : Parsed e (c.inbox.drop c.head.len) c.head := by
    refine ⟨⟨h0, ?_⟩, ?_, ?_⟩
    · rw [hsplit]
      exact hread
    · rw [hhead, List.length_take, Nat.min_eq_left (accepted_len (.inl hread)).2]
    · rw [hsplit]
      exact hframing
  have hrewritten : Rewritten e
      (writeUpstreamRequest c.head c.inbox ⟨c.peer, c.scheme⟩ target framing false c.upgrade
        ans.requestId) := by
    refine ⟨_, _, ⟨c.peer, c.scheme⟩, target, c.upgrade, ans.requestId, hparsed, ?_⟩
    rw [hsplit, hempty]
  have hreplay : ((framing == .empty) = true ∨ 1 < (target :: others).length) →
      e.framing = .empty := by
    rintro (hreplay | hmany)
    · exact hempty.trans (of_decide_eq_true hreplay)
    · rw [← htargets] at hmany
      exact hempty.trans (framing_of_targets hallowed hmany)
  obtain ⟨parts, hparts, htaken⟩ := hl.latest (hl.head hphase)
  have harrived : c.book.plain =
      c.book.taken ++ c.inbox.take c.head.len ++ c.inbox.drop c.head.len := by
    rw [List.append_assoc, List.take_append_drop]
    exact hl.arrived
  have htook : c.book.taken ++ c.inbox.take c.head.len = parts.flatten ++ e.head := by
    rw [htaken, hhead]
  have hreached : Reached [] e.framing c.requestBody := by
    rw [hempty, hbody]
    exact reached_new framing
  have hnobody : ∀ sent ∈ sents e, sent <+: writeUpstreamRequest c.head c.inbox
      ⟨c.peer, c.scheme⟩ target framing false c.upgrade ans.requestId := by
    unfold sents
    rw [((htold.idle hphase).2 e he).1]
    exact fun sent hsent => absurd hsent List.not_mem_nil
  obtain ⟨mirror, hfields⟩ := dispatched_taken ans w c snapshot matched framing first
    (target :: others) target
  rw [hfields]
  obtain ⟨t, hstarted⟩ := launched_started ans target w₂
    (headTaken (Conn.aimed ans c matched framing first (target :: others) target) snapshot mirror)
  exact laid_started hstarted harrived hparts he htook hnone hreached hrewritten hreplay hnobody rfl
    rfl rfl

/-- A request is tried again only where it has no body, and so from its head. -/
theorem retried_laid {addr : SocketAddr} (w₂ : World) (hl : Laid c) (hdue : Due c)
    (hleft : c.pooledRace = true ∨ (c.committed = false ∧ c.attempt + 1 < c.targets.length)) :
    Laid (launched ans addr w₂ c.requeued) := by
  have hconsumed : c.headConsumed = true := by
    by_contra hfresh
    have haimed := hdue.aimed
    rw [(hl.idle (Bool.eq_false_iff.mpr hfresh)).2.2.2] at haimed
    cases haimed
  obtain ⟨parts, e, tail, hparts, he, htaken, hunderway⟩ := hl.underway hconsumed
  have hempty : e.framing = .empty := by
    refine hunderway.replay ?_
    rcases hleft with hrace | ⟨-, hmore⟩
    · unfold Conn.pooledRace at hrace
      simp only [Bool.and_eq_true] at hrace
      exact .inl hrace.2
    · exact .inr (by omega)
  have hnone : e.body = [] := by
    have hbody := hunderway.body
    rw [hempty] at hbody
    generalize c.requestBody = left at hbody
    cases hbody with
    | empty h => exact h
  have hreached : Reached [] e.framing c.requestBody := hnone ▸ hunderway.body
  obtain rfl : tail = [] := by
    by_contra htail
    have hseen := (hunderway.upgraded (.inl htail)).2.seen
    rw [hdue.seen] at hseen
    cases hseen
  rw [hnone, List.append_nil, List.append_nil] at htaken
  have hearlier : ∀ sent ∈ sents e, sent <+: c.requestHead := by
    intro sent hsent
    rcases List.eq_nil_or_concat (sents e) with hnil | ⟨before, last, hsplit⟩
    · rw [hnil] at hsent
      cases hsent
    · rw [List.concat_eq_append] at hsplit
      have hbefore := hunderway.earlier
      have hlast := hunderway.last
      rw [hsplit, List.dropLast_concat] at hbefore
      rw [hsplit, List.getLast?_concat] at hlast
      rw [hsplit] at hsent
      rcases List.mem_append.mp hsent with hold | hnew
      · exact hbefore sent hold
      · rw [List.mem_singleton.mp hnew]
        obtain ⟨rest, hrest, -⟩ := hlast last rfl
        rw [hnone, List.append_nil, List.append_nil] at hrest
        exact ⟨rest, hrest⟩
  have hstock : stockOf c.requeued = { stockOf c with outbox := c.requestHead } ∧
      c.requeued.book.current = c.book.current := by
    unfold Conn.requeued
    split <;> exact ⟨rfl, rfl⟩
  obtain ⟨hstock, hcurrent⟩ := hstock
  unfold stockOf at hstock
  rw [Stock.mk.injEq] at hstock
  obtain ⟨hplain, htook, hpast, hinbox, hstill, hrequest, hhead, houtbox, htargets, hagain⟩ :=
    hstock
  obtain ⟨t, hstarted⟩ := launched_started ans addr w₂ c.requeued
  refine laid_started hstarted ?_ (hpast ▸ hparts) (hcurrent.trans he) (htook.trans htaken) hnone
    (hrequest.symm ▸ hreached) (hhead.symm ▸ hunderway.rewritten) ?_ ?_ (houtbox.trans hhead.symm)
    (hstill.trans hconsumed) (requeued_aimed hdue).phase
  · rw [hplain, htook, hinbox]
    exact hl.arrived
  · rw [hagain, htargets]
    exact hunderway.replay
  · rw [hhead]
    exact hearlier

theorem shift_laid (h : Shift env ans calm fd w c c') (hs : Steady c) (htold : Told env c)
    (hl : Laid c) : Laid c' := by
  have hloose : ∀ {d : Conn}, Unmoved d (letLoose d) := fun {d} =>
    .same rfl id rfl (.inl rfl) rfl (alike_same rfl)
  cases h with
  | hands h => exact hands_laid h hl
  | refused hfailing status body close unsupported _ _ hbegun =>
      exact refusedWith_laid hl htold hfailing status body close unsupported hbegun
  | finished hseen => exact ended_laid hl htold hseen
  | flushedDown => exact hl.unmoved (flushedDown_unmoved ans fd c)
  | flushedUp => exact flushedUp_laid ans hs hl
  | watchedUp => exact hl.unmoved (watchedUp_unmoved ans c)
  | watchedDown => exact hl.unmoved (watchedDown_unmoved ans fd c)
  | @sent w₁ w₂ c c₁ matched framing first allowed target others hands hphase _ hbody hallowed
      htargets _ hframed hbegun =>
      exact sent_laid w₂ w₁.routes (hands_laid hands hl) (hands_told hands hs htold) hphase hbody
        hallowed htargets hframed hbegun
  | released => exact hl.unmoved hloose
  | @retried w₂ c addr hdue _ hleft => exact retried_laid w₂ hl hdue hleft
  | lost => exact hl.unmoved (.same rfl (fun _ => rfl) rfl (.inl rfl) rfl (alike_same rfl))

/-- What a read brings is behind what there was. -/
structure Heard (c c' : Conn) : Prop where
  bytes : ∃ more, c'.inbox = c.inbox ++ more ∧ c'.book.plain = c.book.plain ++ more
  taken : c'.book.taken = c.book.taken

theorem Heard.of_same (hinbox : c'.inbox = c.inbox) (hplain : c'.book.plain = c.book.plain)
    (htaken : c'.book.taken = c.book.taken) : Heard c c' :=
  ⟨⟨[], hinbox.trans (List.append_nil _).symm, hplain.trans (List.append_nil _).symm⟩, htaken⟩

theorem Heard.trans {c'' : Conn} (h : Heard c c') (h' : Heard c' c'') : Heard c c'' := by
  obtain ⟨⟨more, hinbox, hplain⟩, htaken⟩ := h
  obtain ⟨⟨more', hinbox', hplain'⟩, htaken'⟩ := h'
  refine ⟨⟨more ++ more', ?_, ?_⟩, htaken'.trans htaken⟩
  · rw [hinbox', hinbox, List.append_assoc]
  · rw [hplain', hplain, List.append_assoc]

theorem greet_heard (ans : Answers) (config : Config) (c : Conn) (session : Session)
    (offer : Offer) : Heard c (greet ans config c session offer) := by
  unfold greet
  split
  · exact .of_same rfl rfl rfl
  · split
    · exact .of_same rfl rfl rfl
    · dsimp only
      split
      · exact ⟨⟨_, rfl, rfl⟩, rfl⟩
      · exact ⟨⟨_, rfl, rfl⟩, rfl⟩

theorem unwrap_heard (ans : Answers) (config : Config) (c : Conn) (bytes : Bytes) :
    Heard c (unwrap ans config c bytes) := by
  unfold unwrap
  dsimp only
  split
  · exact ⟨⟨bytes, rfl, rfl⟩, rfl⟩
  · split
    · exact ⟨⟨_, rfl, rfl⟩, rfl⟩
    · refine Heard.trans ?_ (greet_heard ..)
      exact ⟨⟨_, rfl, rfl⟩, rfl⟩
    · exact ⟨⟨_, rfl, rfl⟩, rfl⟩

theorem readClient_heard (env : Outside) (ans : Answers) (w : World) (c : Conn)
    (outcome : Outcome) : Heard c (readClient env ans w c outcome) := by
  have hingest : ∀ bytes, Heard c
      (ingest env ans w { c with book := c.book.hearClient w.clock } bytes) := by
    intro bytes
    have hstamped : Heard c { c with book := c.book.hearClient w.clock } := .of_same rfl rfl rfl
    unfold ingest
    split
    · exact hstamped.trans (unwrap_heard ..)
    · dsimp only
      split
      · exact .of_same rfl rfl rfl
      · exact .of_same rfl rfl rfl
      · rename_i consumed client _
        have hnamed : Heard c { { c with book := c.book.hearClient w.clock } with
            peer := client.getD c.peer, preface := none
            deadline := some (w.clock + CLIENT_IDLE) } := .of_same rfl rfl rfl
        exact hnamed.trans (unwrap_heard ..)
  unfold readClient
  split
  · dsimp only
    split <;> exact .of_same rfl rfl rfl
  · rename_i bytes _
    have hwound : Heard (ingest env ans w { c with book := c.book.hearClient w.clock } bytes)
        { (ingest env ans w { c with book := c.book.hearClient w.clock } bytes) with
          deadline := some (w.clock + CLIENT_IDLE)
          book := (ingest env ans w { c with book := c.book.hearClient w.clock } bytes).book.wind
            w.clock CLIENT_IDLE } := .of_same rfl rfl rfl
    dsimp only
    split
    · exact (hingest bytes).trans hwound
    · exact hingest bytes
  · exact .of_same rfl rfl rfl

/-- Bytes that come in wait behind those that wait already. -/
theorem readClient_laid (env : Outside) (ans : Answers) (w : World) (hl : Laid c)
    (outcome : Outcome) : Laid (readClient env ans w c outcome) := by
  obtain ⟨⟨more, hinbox, hplain⟩, htaken⟩ := readClient_heard env ans w c outcome
  obtain ⟨hcurrent, hpast⟩ := readClient_exchanges env ans w c outcome
  have hphase := (readClient_taken env ans w c outcome).phase
  have hgathered : Laid { c with
      inbox := c.inbox ++ more, book := { c.book with plain := c.book.plain ++ more } } := by
    refine ⟨?_, ?_, hl.idle, hl.head⟩
    · show c.book.plain ++ more = c.book.taken ++ (c.inbox ++ more)
      rw [hl.arrived, List.append_assoc]
    · obtain ⟨parts, latest, hparts, hbytes, hlatest⟩ := hl.parted
      refine ⟨parts, latest, hparts, hbytes, ?_⟩
      unfold Latest at hlatest ⊢
      split at hlatest
      · rename_i hconsumed
        obtain ⟨e, tail, he, hsplit, hunderway⟩ := hlatest
        rw [if_pos hconsumed]
        exact ⟨e, tail, he, hsplit,
          fun htail => (hunderway.upgraded htail).imp_right fun h => ⟨h.seen, h.phase⟩,
          hunderway.body, hunderway.rewritten, hunderway.replay, hunderway.tried, hunderway.earlier,
          fun sent hsent => (hunderway.last sent hsent).imp fun rest hrest =>
            ⟨hrest.1, hrest.2.imp_right fun h => ⟨h.phase, h.outbox, h.own⟩⟩⟩
      · rename_i hconsumed
        rw [if_neg hconsumed]
        exact hlatest
  refine hgathered.unmoved ?_
  obtain ⟨_, _, _, _, _, _, _, _, _, _, hfields⟩ := readClient_fields env ans w c outcome
  rw [hfields] at hinbox hplain htaken hcurrent hpast hphase ⊢
  refine .same ?_ id rfl hphase rfl (alike_same hcurrent)
  unfold stockOf
  rw [Stock.mk.injEq]
  exact ⟨hplain, htaken, hpast, hinbox, rfl, rfl, rfl, rfl, rfl, rfl⟩

/-- Whatever becomes of a connection, its client's bytes stay where they belong. -/
theorem laid_lasts (env : Outside) : Lasting env fun c => Told env c ∧ Laid c where
  new ans w tls := by
    refine ⟨(told_lasts env).new ans w tls, ?_⟩
    unfold newClient
    dsimp only
    split <;> exact .of_fresh rfl .nil rfl rfl (.inl rfl) rfl rfl rfl
  shift hs h := fun ⟨ht, hl⟩ => ⟨shift_told h hs ht, shift_laid h hs ht hl⟩
  readDown ans outcome hs hop hreading hgiven hfits := by
    rintro ⟨ht, hl⟩
    refine ⟨(told_lasts env).readDown ans outcome hs hop hreading hgiven hfits ht, ?_⟩
    rename_i w op c
    have hread : Unmoved c { c with reading := false } :=
      .same rfl id rfl (.inl rfl) rfl (alike_same rfl)
    exact readClient_laid env ans _ (hl.unmoved hread) outcome
  wroteDown outcome hs hwriting := by
    rintro ⟨ht, hl⟩
    refine ⟨(told_lasts env).wroteDown outcome hs hwriting ht, hl.unmoved ?_⟩
    unfold wroteClient
    split
    · exact .same rfl id rfl (.inl rfl) rfl (alike_same rfl)
    · exact .same rfl id rfl (.inr rfl) rfl (alike_same rfl)
  readUp outcome hs hop hattached hreading hfits := by
    rintro ⟨ht, hl⟩
    rename_i w op c
    refine ⟨(told_lasts env).readUp outcome hs hop hattached hreading hfits ht, hl.unmoved ?_⟩
    have hreceived : ∀ e : Exchange, Alike e { e with
        relay := e.relay.map fun r => { r with received := r.received ++ outcome.bytes } } :=
      fun e => ⟨rfl, rfl, rfl, rfl, fun _ => id⟩
    exact .same rfl id rfl (.inl rfl) rfl (alike_map (Option.map_map ..) fun e =>
      (hreceived e).trans (alike_last _ fun _ => rfl))
  wroteUp outcome hs hattached hwriting := by
    rintro ⟨ht, hl⟩
    refine ⟨(told_lasts env).wroteUp outcome hs hattached hwriting ht, hl.unmoved ?_⟩
    split <;> exact .same rfl id rfl (.inl rfl) rfl (alike_same rfl)
  connected hs hattached hlent := by
    rintro ⟨ht, hl⟩
    rename_i up c
    have hearly : c.responseHeadSeen = false := (hs.shape.borrowed hlent).2.2.2.1
    refine ⟨(told_lasts env).connected hs hattached hlent ht, hl.unmoved ⟨rfl, id, fun h => ?_,
      nofun, fun hfresh => ?_, nofun, fun h => ?_, fun _ => ?_⟩⟩
    · rw [h.seen] at hearly
      cases hearly
    · rw [(hl.idle hfresh).2.1] at hattached
      cases hattached
    · rw [h.own] at hlent
      cases hlent
    · exact alike_map (c := c) rfl fun e => alike_last e fun _ => rfl
  missed hs hattached hlent := by
    rintro ⟨ht, hl⟩
    refine ⟨(told_lasts env).missed hs hattached hlent ht, hl.unmoved ⟨rfl, fun _ => rfl,
      fun h => ⟨h.seen, h.phase⟩, id, fun _ => ⟨.inl rfl, rfl⟩, id,
      fun h => ⟨h.phase, h.outbox, rfl⟩, fun _ => alike_same rfl⟩⟩
  spared hs hphase := by
    rintro ⟨ht, hl⟩
    rename_i c
    have hnext : (spared c).phase = c.phase ∨ (spared c).phase = .closing := by
      unfold spared
      dsimp only
      split
      · exact .inr rfl
      · exact .inl rfl
    exact ⟨(told_lasts env).spared hs hphase ht,
      hl.unmoved (.same rfl id rfl hnext rfl (alike_same rfl))⟩
  cutOff hs hphase := fun ⟨ht, hl⟩ =>
    ⟨(told_lasts env).cutOff hs hphase ht,
      hl.unmoved (.same rfl (fun _ => rfl) rfl (.inl rfl) rfl (alike_same rfl))⟩
  handed hs hphase := fun ⟨ht, hl⟩ =>
    ⟨(told_lasts env).handed hs hphase ht,
      hl.unmoved (.same rfl id rfl (.inl rfl) rfl (alike_same rfl))⟩

end Lives

section Runs

/-- The bytes of the request a connection has, as far as they are taken: its head, its body up to
where its framing has come and, once it was upgraded, the tunnel's. -/
def Begins (c : Conn) (bytes : Bytes) : Prop :=
  bytes = [] ∨ ∃ e tail, c.book.current = some e ∧ bytes = e.head ++ e.body ++ tail ∧
    Reached e.body e.framing c.requestBody ∧ (tail ≠ [] → 101 ∈ e.statuses)

/-- What a client sent is its requests, one behind the other, and what is in its inbox. -/
def Partitioned (c : Conn) : Prop :=
  ∃ parts latest, c.book.plain = parts.flatten ++ latest ++ c.inbox ∧
    List.Forall₂ Over c.book.past parts ∧ Begins c latest

theorem partitioned_of_laid {c : Conn} (h : Laid c) : Partitioned c := by
  obtain ⟨parts, latest, hparts, htaken, hlatest⟩ := h.parted
  refine ⟨parts, latest, by rw [← htaken]; exact h.arrived, hparts, ?_⟩
  unfold Latest at hlatest
  split at hlatest
  · obtain ⟨e, tail, he, hbytes, hunderway⟩ := hlatest
    exact .inr ⟨e, tail, he, hbytes, hunderway.body, fun htail =>
      (hunderway.upgraded (.inl htail)).1⟩
  · exact .inl hlatest

/-- In every run, the plaintext of every client falls into its requests and nothing between them:
each behind the head it was parsed from, framed as that head says, and outlived only with its body
complete or its response relayed. -/
theorem partitioned_always (env : Outside) (config : Config) (fixtures : Fixtures)
    (pool : Nat × Nat) (routes : Snapshot) (routeSlots : Nat → RouteSlot) (inflight : Nat → Nat)
    (acts : List Act)
    (htime : Meets (step env) OnTime
      (begun config fixtures pool routes routeSlots inflight) acts) :
    Always (step env) (fun m => ∀ c, Seen m.world c → Partitioned c)
      (begun config fixtures pool routes routeSlots inflight) acts :=
  (laid_lasts env).always (fun _ hall c hseen => partitioned_of_laid (hall c hseen).2) htime

attribute [local instance] fdRoom

/-- A request with a body is dispatched, the body in two parts, and the next one comes with it. -/
def postedInParts : List Act :=
  let dialled := { leastAnswers with connect := some (6, true) }
  let request := ascii "POST / HTTP/1.1\r\nHost: a\r\nContent-Length: 3\r\n\r\nab"
  [.complete (leastOp .accept 3 0 0) (.accepted 5) leastAnswers,
    .complete (leastOp .downRead 5 1 1) (.read request) leastAnswers,
    .turn dialled, .turn leastAnswers, .turn leastAnswers, .turn leastAnswers, .turn leastAnswers,
    .complete (leastOp .downRead 5 1 1) (.read (ascii "cGET")) leastAnswers,
    .turn leastAnswers, .turn leastAnswers]

theorem postedInParts_meets : Meets (step leastOutside) OnTime leastCore postedInParts :=
  meets_of_checks (fun _ _ => onTime_of_comes) (by decide +kernel)

theorem partitioned_of_parts :
    Always (step leastOutside) (fun m => ∀ c, Seen m.world c → Partitioned c) leastCore
      postedInParts :=
  partitioned_always leastOutside leastConfig leastFixtures (1, 1) leastSnapshot (fun _ => {})
    (fun _ => 0) postedInParts postedInParts_meets

/-- The bytes a request declares for its body, and a request by themselves. -/
def disguised : Bytes := ascii "GET /x HTTP/1.1\r\nHost: a\r\n\r\n"

/-- A request is answered before its body comes, and then the body comes. -/
def answeredEarly : List Act :=
  let dialled := { leastAnswers with connect := some (6, true) }
  let request := ascii "POST / HTTP/1.1\r\nHost: a\r\nContent-Length: 28\r\n\r\n"
  let response := ascii "HTTP/1.1 200 OK\r\nContent-Length: 0\r\n\r\n"
  [.complete (leastOp .accept 3 0 0) (.accepted 5) leastAnswers,
    .complete (leastOp .downRead 5 1 1) (.read request) leastAnswers,
    .turn dialled, .turn leastAnswers, .turn leastAnswers, .turn leastAnswers,
    .send 6 response, .complete (leastOp .upRead 6 0 1) (.read response) leastAnswers,
    .turn leastAnswers, .turn leastAnswers, .turn leastAnswers,
    .complete (leastOp .downRead 5 1 1) (.read disguised) leastAnswers,
    .turn leastAnswers]

/-- Whether the client on a descriptor has a request behind it without its body, and those bytes
as the head of the one it has. -/
def mistaken (fd : Fd) (m : Machine) : Bool :=
  (m.world.slots fd).leaves.any fun c =>
    c.book.past.map (fun e => (e.framing, e.body)) == [(.length 28, [])] &&
      c.book.current.map (·.head) == some disguised

/-- Nothing but the response has to be complete: a body that comes behind it is taken for the next
request. -/
theorem partitioned_of_early :
    ∃ m c, run (step leastOutside) leastCore answeredEarly = some m ∧ Seen m.world c ∧
      c.book.past.map (fun e => (e.framing, e.body)) = [(.length 28, [])] ∧
      c.book.current.map (·.head) = some disguised := by
  have hrun : (run (step leastOutside) leastCore answeredEarly).any (mistaken 5) = true := by
    decide +kernel
  obtain ⟨m, hm, hmistaken⟩ := (Option.any_eq_true ..).mp hrun
  obtain ⟨c, hc, hboth⟩ := List.any_eq_true.mp hmistaken
  simp only [Bool.and_eq_true, beq_iff_eq] at hboth
  refine ⟨m, c, hm, ?_, hboth⟩
  cases hslot : m.world.slots 5 with
  | client conn =>
      rw [hslot, Slot.leaves, List.mem_singleton] at hc
      exact hc ▸ .slot hslot
  | _ =>
      rw [hslot] at hc
      cases hc

end Runs

end Ramjet.Engine.Worker.Forwarding
