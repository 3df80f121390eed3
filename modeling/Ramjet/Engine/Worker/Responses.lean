/- digest: Responses are queued in order, and an upstream is pooled only behind a whole one. -/

import Ramjet.Engine.Worker.Forwarding
import Ramjet.Engine.Worker.PooledRetries

set_option autoImplicit false
set_option relaxedAutoImplicit false

namespace Ramjet.Engine.Worker.Responses

open Ramjet.Base.Octets
open Ramjet.Base.Net
open Ramjet.Base.Machine
open Ramjet.Engine.Codec.BodyFraming
open Ramjet.Engine.Headers
open Ramjet.Engine.IdlePool
open Ramjet.Engine.Tls
open Ramjet.Engine.Worker.Connection
open Ramjet.Engine.Worker.Core
open Ramjet.Engine.Worker.Serving
open Ramjet.Engine.Worker.Requests
open Ramjet.Engine.Worker.Handlers
open Ramjet.Engine.Worker.Loop
open Ramjet.Engine.Worker.Events
open Ramjet.Engine.Worker.Moves
open Ramjet.Engine.Worker.Images
open Ramjet.Engine.Worker.Keeping
open Ramjet.Engine.Worker.Alterations
open Ramjet.Engine.Worker.Coherence
open Ramjet.Engine.Worker.Inflight
open Ramjet.Engine.Worker.Shifts
open Ramjet.Engine.Worker.Relaying
open Ramjet.Engine.Worker.PooledRetries
open Ramjet.Engine.Worker.Forwarding
open Ramjet.Router.Stats

/-- The bytes queued for a request end in everything queued since its relayed response began. -/
def Ends (e : Exchange) (bytes : Bytes) : Prop :=
  ∀ since ∈ e.relay.map (·.since), since <:+ bytes

/-- Whatever was queued to a client is queued still or was given away, in the order of its
requests. -/
def Ordered (c : Conn) : Prop :=
  ∃ parts latest, c.book.given ++ c.outbox = parts.flatten ++ latest ∧
    List.Forall₂ Ends c.book.past parts ∧ ∀ e, c.book.current = some e → Ends e latest

/-- The client's side of a connection: in order until an operation on its socket fails, and silent
until the PROXY header is read, where there is one. -/
structure Queued (c : Conn) : Prop where
  ordered : c.book.torn = false → Ordered c
  silent : c.preface ≠ none → c.inbox = [] ∧ c.outbox = [] ∧ c.headConsumed = false

/-- Nothing was queued to a client, and nothing that was is gone. -/
structure Unsaid (c c' : Conn) : Prop where
  torn : c'.book.torn = false → c.book.torn = false
  queued : c'.book.torn = false → c'.book.given ++ c'.outbox = c.book.given ++ c.outbox
  past : c'.book.past = c.book.past
  current : ∀ e', c'.book.current = some e' → e'.relay = none ∨
    ∃ e, c.book.current = some e ∧ e'.relay.map (·.since) = e.relay.map (·.since)
  silent : c'.preface ≠ none → c.preface ≠ none ∧ c'.inbox = c.inbox ∧
    (c.outbox = [] → c'.outbox = []) ∧ c'.headConsumed = c.headConsumed

/-- An upstream that may be kept is one whose response has an end of its own, and while a request
has its upstream, its response is not intruded on. -/
structure Reusable (c : Conn) : Prop where
  sized : c.upstreamKeepAlive = true → c.responseHeadSeen = true →
    ∀ e, c.book.current = some e → delimiting c e ≠ .untilClose
  clean : c.upstream ≠ none → ∀ e r, c.book.current = some e → e.relay = some r →
    r.intruded = false

section Orders

variable {c c' : Conn} {e e' : Exchange} {bytes : Bytes}

theorem current_same (h : c'.book.current = c.book.current) :
    ∀ e', c'.book.current = some e' → e'.relay = none ∨
      ∃ e, c.book.current = some e ∧ e'.relay.map (·.since) = e.relay.map (·.since) :=
  fun e' he' => .inr ⟨e', h ▸ he', rfl⟩

theorem current_map {change : Exchange → Exchange}
    (h : c'.book.current = c.book.current.map change)
    (hall : ∀ e, (change e).relay.map (·.since) = e.relay.map (·.since)) :
    ∀ e', c'.book.current = some e' → e'.relay = none ∨
      ∃ e, c.book.current = some e ∧ e'.relay.map (·.since) = e.relay.map (·.since) := by
  intro e' he'
  rw [h] at he'
  obtain ⟨e, he, rfl⟩ := Option.map_eq_some_iff.mp he'
  exact .inr ⟨e, he, hall e⟩

theorem Queued.unsaid (h : Queued c) (hsame : Unsaid c c') : Queued c' := by
  refine ⟨fun htorn => ?_, fun hpreface => ?_⟩
  · obtain ⟨parts, latest, hqueued, hparts, hlatest⟩ := h.ordered (hsame.torn htorn)
    refine ⟨parts, latest, (hsame.queued htorn).trans hqueued, hsame.past ▸ hparts,
      fun e' he' since hsince => ?_⟩
    rcases hsame.current e' he' with hnone | ⟨e, he, hstill⟩
    · rw [hnone] at hsince
      cases hsince
    · rw [hstill] at hsince
      exact hlatest e he since hsince
  · obtain ⟨hbefore, hinbox, houtbox, hconsumed⟩ := hsame.silent hpreface
    obtain ⟨hnothing, hquiet, hfresh⟩ := h.silent hbefore
    exact ⟨hinbox.trans hnothing, houtbox hquiet, hconsumed.trans hfresh⟩

/-- More is queued for the request a connection has. -/
theorem Queued.more (h : Queued c) (hplain : c.preface = none) (htorn : c'.book.torn = c.book.torn)
    (hgiven : c'.book.given = c.book.given) (houtbox : c'.outbox = c.outbox ++ bytes)
    (hpast : c'.book.past = c.book.past) (hpreface : c'.preface = c.preface)
    (hcurrent : ∀ e', c'.book.current = some e' → (∃ since, since <:+ bytes ∧
      e'.relay.map (·.since) = some since) ∨
      ∃ e, c.book.current = some e ∧
        e'.relay.map (·.since) = (e.relay.map (·.since)).map (· ++ bytes)) : Queued c' := by
  refine ⟨fun hwhole => ?_, fun hsome => absurd (hpreface.trans hplain) hsome⟩
  obtain ⟨parts, latest, hqueued, hparts, hlatest⟩ := h.ordered (htorn ▸ hwhole)
  refine ⟨parts, latest ++ bytes, ?_, hpast ▸ hparts, fun e' he' since hsince => ?_⟩
  · rw [hgiven, houtbox, ← List.append_assoc, hqueued, List.append_assoc]
  · rcases hcurrent e' he' with ⟨since', hend, hnew⟩ | ⟨e, he, hgrown⟩
    · rw [hnew] at hsince
      obtain rfl := Option.some.inj hsince
      exact hend.trans (List.suffix_append latest bytes)
    · rw [hgrown] at hsince
      obtain ⟨since', hsince', rfl⟩ := Option.mem_map.mp hsince
      obtain ⟨front, hfront⟩ := hlatest e he since' hsince'
      exact ⟨front, by rw [← List.append_assoc, hfront]⟩

/-- The request a connection has joins those behind it. -/
theorem Queued.next (h : Queued c) (hplain : c.preface = none) (htorn : c'.book.torn = c.book.torn)
    (hgiven : c'.book.given = c.book.given) (houtbox : c'.outbox = c.outbox)
    (hpast : c'.book.past = c.book.past ++ c.book.current.toList)
    (hcurrent : c'.book.current = none) (hpreface : c'.preface = c.preface) : Queued c' := by
  refine ⟨fun hwhole => ?_, fun hsome => absurd (hpreface.trans hplain) hsome⟩
  obtain ⟨parts, latest, hqueued, hparts, hlatest⟩ := h.ordered (htorn ▸ hwhole)
  have hnobody : ∀ {bytes : Bytes}, ∀ e, c'.book.current = some e → Ends e bytes := by
    intro bytes e he
    rw [hcurrent] at he
    cases he
  cases he : c.book.current with
  | none =>
      rw [he] at hpast
      refine ⟨parts, latest, ?_, (hpast.trans (List.append_nil _)) ▸ hparts, hnobody⟩
      rw [hgiven, houtbox]
      exact hqueued
  | some e =>
      rw [he] at hpast
      refine ⟨parts ++ [latest], [], ?_, ?_, hnobody⟩
      · rw [hgiven, houtbox, hqueued, List.flatten_append, List.flatten_singleton, List.append_nil]
      · rw [hpast]
        exact List.rel_append hparts (.cons (hlatest e he) .nil)

theorem Queued.plain (h : Queued c) (hconsumed : c.headConsumed = true) : c.preface = none := by
  by_contra hsome
  rw [(h.silent hsome).2.2] at hconsumed
  cases hconsumed

theorem Unsaid.same (htorn : c'.book.torn = c.book.torn) (hgiven : c'.book.given = c.book.given)
    (houtbox : c'.outbox = c.outbox) (hpast : c'.book.past = c.book.past)
    (hcurrent : c'.book.current = c.book.current) (hpreface : c'.preface = c.preface)
    (hinbox : c'.inbox = c.inbox) (hconsumed : c'.headConsumed = c.headConsumed) : Unsaid c c' :=
  ⟨htorn.symm.trans, fun _ => by rw [hgiven, houtbox], hpast, current_same hcurrent,
    fun hsome => ⟨hpreface ▸ hsome, hinbox, houtbox.trans, hconsumed⟩⟩

/-- Where nothing is silent any more, only what is queued counts. -/
theorem Unsaid.of_plain (hplain : c'.preface = none) (htorn : c'.book.torn = c.book.torn)
    (hgiven : c'.book.given = c.book.given) (houtbox : c'.outbox = c.outbox)
    (hpast : c'.book.past = c.book.past)
    (hcurrent : ∀ e', c'.book.current = some e' → e'.relay = none ∨
      ∃ e, c.book.current = some e ∧ e'.relay.map (·.since) = e.relay.map (·.since)) :
    Unsaid c c' :=
  ⟨htorn.symm.trans, fun _ => by rw [hgiven, houtbox], hpast, hcurrent,
    fun hsome => absurd hplain hsome⟩

end Orders

section Progressing

variable {env : Outside} {ans : Answers} {calm : Bool} {w w' : World} {fd : Fd} {c c' : Conn}
  {p q : Hand}

theorem queue_since (r : Option Relay) (bytes : Bytes) :
    (r.map fun r => { r with since := r.since ++ bytes }).map (·.since) =
      (r.map (·.since)).map (· ++ bytes) := by
  rw [Option.map_map, Option.map_map]
  rfl

theorem pumped_unsaid {progressed : Bool} (hplain : c.preface = none)
    (h : pumpRequestBody w c = .ok (w', c', progressed)) : Unsaid c c' := by
  rcases pumped_exact h with rfl | ⟨n, done, body, mirror, -, -, rfl⟩
  · exact .same rfl rfl rfl rfl rfl rfl rfl rfl
  · exact .of_plain hplain rfl rfl rfl rfl (current_map (c := c) rfl fun _ => rfl)

/-- Whatever an exchange does to its connection, what it queues for the client is for its own
request. -/
theorem progress_queued (h : Progress env ans calm p q) (hs : Steady p.2) (hl : Laid p.2)
    (hq : Queued p.2) : Queued q.2 := by
  have hlate : p.2.responseHeadSeen = true → p.2.preface = none :=
    fun hseen => hq.plain (hl.answered hseen)
  have hserving : p.2.phase = .exchanging ∨ p.2.phase = .relaying → p.2.preface = none := by
    intro hphase
    refine hq.plain (hl.consumed ?_ ?_) <;>
      rcases hphase with hp | hp <;> rw [hp] <;> nofun
  have hread : Read p.2 → p.2.preface = none := by
    rintro hread
    by_contra hsome
    exact read_inbox hread (hq.silent hsome).1
  cases h with
  | parsed | halfSent | upParsed | truncated | upEnded | undispatched | extended =>
      exact hq.unsaid (.same rfl rfl rfl rfl rfl rfl rfl rfl)
  | @begun w c hphase hbegun =>
      refine hq.unsaid (.of_plain (hread hbegun) rfl rfl rfl rfl fun e' he' => .inl ?_)
      cases he'
      rfl
  | @described w c framing hphase hdescribed =>
      exact hq.unsaid (.of_plain (hread hdescribed) rfl rfl rfl rfl
        (current_map (c := c) rfl fun _ => rfl))
  | @routed w c matched hphase hrouted =>
      exact hq.unsaid (.of_plain (hread hrouted) rfl rfl rfl rfl
        (current_map (c := c) rfl fun _ => rfl))
  | refused => exact hq
  | pumped hphase hpumped => exact hq.unsaid (pumped_unsaid (hserving hphase) hpumped)
  | @tunnelled w c asked hphase =>
      obtain ⟨out, hout⟩ := tunnelled_fields env w c asked
      rw [hout]
      have houtbox : c.outbox ++ out ++ c.upInbox.drop c.upHead.len =
          c.outbox ++ (out ++ c.upInbox.drop c.upHead.len) := List.append_assoc ..
      refine hq.more (hserving (.inl hphase)) rfl rfl houtbox rfl rfl fun e' he' => .inl ?_
      obtain ⟨e₁, he₁, rfl⟩ := Option.map_eq_some_iff.mp he'
      obtain ⟨e₀, -, rfl⟩ := Option.map_eq_some_iff.mp he₁
      exact ⟨_, List.suffix_refl _, rfl⟩
  | @headRelayed w c framing hphase =>
      obtain ⟨out, hout⟩ := relayHead_fields env w c framing
      rw [hout]
      refine hq.more (hserving (.inl hphase)) rfl rfl rfl rfl rfl fun e' he' => .inl ?_
      obtain ⟨e₀, -, rfl⟩ := Option.map_eq_some_iff.mp he'
      exact ⟨out, List.suffix_refl _, rfl⟩
  | @bodyRelayed w c n done body hphase =>
      refine hq.more (hserving (.inr hphase)) rfl rfl rfl rfl rfl fun e' he' => .inr ?_
      obtain ⟨e₀, he₀, rfl⟩ := Option.map_eq_some_iff.mp he'
      exact ⟨e₀, he₀, queue_since ..⟩
  | @shuttled w c hphase =>
      obtain ⟨tls, phase, hasty, hfields, -, -⟩ := shuttled_fields ans c
      rw [hfields]
      refine hq.more (hlate (hs.shape.late (.inr hphase))) rfl rfl rfl rfl rfl
        fun e' he' => .inr ?_
      obtain ⟨e₀, he₀, rfl⟩ := Option.map_eq_some_iff.mp he'
      exact ⟨e₀, he₀, queue_since ..⟩
  | @closed w c hphase hseen =>
      refine hq.more (hlate hseen) rfl rfl rfl rfl rfl fun e' he' => .inr ?_
      obtain ⟨e₀, he₀, rfl⟩ := Option.map_eq_some_iff.mp he'
      exact ⟨e₀, he₀, queue_since ..⟩

theorem hands_queued (h : Hands env ans calm p q) (hs : Steady p.2) (hl : Laid p.2)
    (hq : Queued p.2) : Queued q.2 := by
  induction h with
  | refl => exact hq
  | tail hbefore hstep ih =>
      exact progress_queued hstep (hands_steady hbefore hs) (hands_laid hbefore hl) ih

/-- A response the core invents is queued behind what there is of its request's. -/
theorem refusedWith_queued (hl : Laid c) (hq : Queued c) (hfailing : Failing w c) (status : Nat)
    (body : Bytes) (close : Bool) (unsupported : Option Bytes) :
    Queued (refusedWith env c status body close unsupported) := by
  have hplain : c.preface = none := by
    by_contra hsome
    obtain ⟨hinbox, -, hfresh⟩ := hq.silent hsome
    by_cases hphase : c.phase = .head
    · cases hfailing with
      | early _ hread => exact hread hinbox
      | late hbusy => exact hbusy hphase
      | rejected hserved =>
          rw [hphase] at hserved
          rcases hserved with hp | hp <;> cases hp
    · rw [hl.failing hfailing hphase] at hfresh
      cases hfresh
  unfold refusedWith answeredSelf
  generalize invented env c status body close unsupported = out
  have hinvented : ∀ d : Conn, d.book.torn = c.book.torn → d.book.given = c.book.given →
      d.outbox = c.outbox → d.book.past = c.book.past → d.book.current = c.book.current →
      d.preface = c.preface → Queued ({ d with counted := true }.invent status out) := by
    intro d htorn hgiven houtbox hpast hcurrent hpreface
    refine hq.more hplain htorn hgiven (congrArg (· ++ out) houtbox) hpast hpreface
      fun e' he' => .inr ?_
    obtain ⟨e₀, he₀, rfl⟩ := Option.map_eq_some_iff.mp he'
    refine ⟨e₀, hcurrent ▸ he₀, ?_⟩
    rw [Option.map_map, Option.map_map]
    rfl
  cases closes c close with
  | true =>
      simp only [Bool.not_true, Bool.false_and, Bool.false_eq_true, if_false, if_true]
      exact (hinvented (letLoose c).cutOff rfl rfl rfl rfl rfl rfl).unsaid
        (.same rfl rfl rfl rfl rfl rfl rfl rfl)
  | false =>
      simp only [Bool.not_false, Bool.true_and, Bool.false_eq_true, if_false]
      split
      · exact (hinvented (letLoose c).cutOff.dropHead rfl rfl rfl rfl rfl rfl).next hplain rfl rfl
          rfl rfl rfl rfl
      · exact (hinvented (letLoose c).cutOff rfl rfl rfl rfl rfl rfl).next hplain rfl rfl rfl rfl
          rfl rfl

end Progressing

section Lives

variable {env : Outside} {ans : Answers} {calm : Bool} {w w' : World} {fd : Fd} {c c' : Conn}

theorem ended_queued (hl : Laid c) (hq : Queued c) (hseen : c.responseHeadSeen = true) :
    Queued (letLoose c).ended := by
  have hplain : c.preface = none := hq.plain (hl.answered hseen)
  unfold Conn.ended
  dsimp only
  split <;> exact hq.next hplain rfl rfl rfl rfl rfl rfl

theorem Unsaid.trans {c'' : Conn} (h : Unsaid c c') (h' : Unsaid c' c'')
    (hcurrent : c''.book.current = c'.book.current) : Unsaid c c'' := by
  refine ⟨h.torn ∘ h'.torn, fun hwhole => (h'.queued hwhole).trans (h.queued (h'.torn hwhole)),
    h'.past.trans h.past, fun e he => h.current e (hcurrent ▸ he), fun hsome => ?_⟩
  obtain ⟨hbefore, hinbox, houtbox, hconsumed⟩ := h'.silent hsome
  obtain ⟨hfirst, hinbox', houtbox', hconsumed'⟩ := h.silent hbefore
  exact ⟨hfirst, hinbox.trans hinbox', houtbox ∘ houtbox', hconsumed.trans hconsumed'⟩

/-- What is sealed is given to the record layer. -/
theorem sealed_unsaid (r : Rustls) (c : Conn) : Unsaid c (c.sealed r) := by
  unfold Conn.sealed
  split
  · exact .same rfl rfl rfl rfl rfl rfl rfl rfl
  · split
    · exact .same rfl rfl rfl rfl rfl rfl rfl rfl
    · refine ⟨id, fun _ => ?_, rfl, current_same rfl,
        fun hsome => ⟨hsome, rfl, fun hnone => ?_, rfl⟩⟩
      · show c.book.given ++ c.outbox.take _ ++ c.outbox.drop _ = _
        rw [List.append_assoc, List.take_append_drop]
      · show c.outbox.drop _ = []
        rw [hnone, List.drop_nil]

/-- What is written where there is no record layer is given away. -/
theorem unloaded_unsaid (c : Conn) (submitted : Bytes) :
    Unsaid c { c.unloaded with
      writing := true
      book := { c.book with given := c.book.given ++ c.given, submitted := submitted } } := by
  unfold Conn.unloaded Conn.given
  split
  · exact .same rfl (List.append_nil _) rfl rfl rfl rfl rfl rfl
  · exact ⟨id, fun _ => List.append_nil _, rfl, current_same rfl,
      fun hsome => ⟨hsome, rfl, fun _ => rfl, rfl⟩⟩

theorem torn_unsaid (htorn : c'.book.torn = true) (hpast : c'.book.past = c.book.past)
    (hcurrent : c'.book.current = c.book.current) (hpreface : c'.preface = c.preface)
    (hinbox : c'.inbox = c.inbox) (houtbox : c.outbox = [] → c'.outbox = [])
    (hconsumed : c'.headConsumed = c.headConsumed) : Unsaid c c' := by
  refine ⟨fun hwhole => ?_, fun hwhole => ?_, hpast, current_same hcurrent,
    fun hsome => ⟨hpreface ▸ hsome, hinbox, houtbox, hconsumed⟩⟩ <;>
    rw [htorn] at hwhole <;> cases hwhole

/-- Where the write is refused, so is the connection. -/
theorem refused_unsaid (c : Conn) :
    Unsaid c { c.unloaded with phase := .closing, book := c.book.tear } := by
  unfold Conn.unloaded
  split
  · exact torn_unsaid rfl rfl rfl rfl rfl id rfl
  · exact torn_unsaid rfl rfl rfl rfl rfl (fun _ => rfl) rfl

theorem flushedDown_unsaid (ans : Answers) (fd : Fd) (c : Conn) :
    Unsaid c (flushedDown ans fd c) := by
  have hsealed := sealed_unsaid ans.rustls c
  generalize hd : c.sealed ans.rustls = d at hsealed
  unfold flushedDown
  dsimp only
  rw [hd]
  split
  · split
    · refine hsealed.trans (unloaded_unsaid d _) ?_
      unfold Conn.unloaded
      split <;> rfl
    · refine hsealed.trans (refused_unsaid d) ?_
      unfold Conn.unloaded
      split <;> rfl
  · exact hsealed

/-- A request is behind its connection only once its response has begun, or it was refused. -/
theorem launched_unsaid (ans : Answers) (addr : SocketAddr) (w : World) (c : Conn) :
    Unsaid c (launched ans addr w c) := by
  obtain ⟨held, hheld⟩ := holdInflight_fields w
    { c with dispatchedAt := some w.clock, deadline := some (w.clock + w.config.responseTimeout) }
  have htried : ∀ {b : Book} {t : Try}, b.current = c.book.current →
      ∀ e', (b.attempt t).current = some e' → e'.relay = none ∨
        ∃ e, c.book.current = some e ∧ e'.relay.map (·.since) = e.relay.map (·.since) := by
    intro b t hb e' he'
    obtain ⟨e₀, he₀, rfl⟩ := Option.map_eq_some_iff.mp he'
    exact .inr ⟨e₀, hb ▸ he₀, rfl⟩
  have hstill : c.preface ≠ none → c.preface ≠ none ∧ c.inbox = c.inbox ∧
      (c.outbox = [] → c.outbox = []) ∧ c.headConsumed = c.headConsumed :=
    fun hsome => ⟨hsome, rfl, id, rfl⟩
  unfold launched
  rw [hheld]
  dsimp only
  split
  · exact ⟨id, fun _ => rfl, rfl, htried rfl, hstill⟩
  · split
    · exact ⟨id, fun _ => rfl, rfl, htried rfl, hstill⟩
    · split
      · exact ⟨id, fun _ => rfl, rfl, htried rfl, hstill⟩
      · split
        · exact ⟨id, fun _ => rfl, rfl, htried rfl, hstill⟩
        · exact ⟨id, fun _ => rfl, rfl, htried rfl, hstill⟩

theorem flushedUp_unsaid (ans : Answers) (c : Conn) : Unsaid c (flushedUp ans c) := by
  unfold flushedUp
  split
  · exact .same rfl rfl rfl rfl rfl rfl rfl rfl
  · split
    · split
      · exact ⟨id, fun _ => rfl, rfl, current_map (c := c) rfl fun _ => rfl,
          fun hsome => ⟨hsome, rfl, id, rfl⟩⟩
      · exact .same rfl rfl rfl rfl rfl rfl rfl rfl
    · exact .same rfl rfl rfl rfl rfl rfl rfl rfl

theorem shift_queued (h : Shift env ans calm fd w c c') (hs : Steady c) (hl : Laid c)
    (hq : Queued c) : Queued c' := by
  cases h with
  | hands h => exact hands_queued h hs hl hq
  | refused hfailing status body close unsupported =>
      exact refusedWith_queued hl hq hfailing status body close unsupported
  | finished hseen => exact ended_queued hl hq hseen
  | flushedDown => exact hq.unsaid (flushedDown_unsaid ans fd c)
  | flushedUp => exact hq.unsaid (flushedUp_unsaid ans c)
  | watchedUp =>
      refine hq.unsaid ?_
      unfold watchedUp
      split
      · exact .same rfl rfl rfl rfl rfl rfl rfl rfl
      · split <;> exact .same rfl rfl rfl rfl rfl rfl rfl rfl
  | watchedDown =>
      refine hq.unsaid ?_
      unfold watchedDown
      split <;> exact .same rfl rfl rfl rfl rfl rfl rfl rfl
  | @sent w₁ w₂ c c₁ matched framing first allowed target others hands hphase hread =>
      have hq₁ := hands_queued hands hs hl hq
      have hplain : c₁.preface = none := by
        by_contra hsome
        exact read_inbox hread (hq₁.silent hsome).1
      obtain ⟨mirror, hfields⟩ := dispatched_taken ans w₁ c₁ w₁.routes matched framing first
        (target :: others) target
      have hdispatched : Unsaid c₁ (dispatched ans w₁ c₁ w₁.routes matched framing first
          (target :: others) target).2 := by
        rw [hfields]
        exact .of_plain hplain rfl rfl rfl rfl (current_same rfl)
      exact (hq₁.unsaid hdispatched).unsaid (launched_unsaid ..)
  | @retried w₂ c addr =>
      have hrequeued : Unsaid c c.requeued := by
        unfold Conn.requeued
        split <;> exact .same rfl rfl rfl rfl rfl rfl rfl rfl
      exact (hq.unsaid hrequeued).unsaid (launched_unsaid ..)
  | released | lost => exact hq.unsaid (.same rfl rfl rfl rfl rfl rfl rfl rfl)

/-- What is heard of a client is nothing said to it. -/
structure Mute (c c' : Conn) : Prop where
  torn : c'.book.torn = c.book.torn
  given : c'.book.given = c.book.given
  outbox : c'.outbox = c.outbox
  preface : c'.preface = c.preface

theorem Mute.trans {c'' : Conn} (h : Mute c c') (h' : Mute c' c'') : Mute c c'' :=
  ⟨h'.torn.trans h.torn, h'.given.trans h.given, h'.outbox.trans h.outbox,
    h'.preface.trans h.preface⟩

theorem greet_mute (ans : Answers) (config : Config) (c : Conn) (session : Session)
    (offer : Offer) : Mute c (greet ans config c session offer) := by
  unfold greet
  split
  · exact ⟨rfl, rfl, rfl, rfl⟩
  · split
    · exact ⟨rfl, rfl, rfl, rfl⟩
    · dsimp only
      split <;> exact ⟨rfl, rfl, rfl, rfl⟩

theorem unwrap_mute (ans : Answers) (config : Config) (c : Conn) (bytes : Bytes) :
    Mute c (unwrap ans config c bytes) := by
  unfold unwrap
  dsimp only
  split
  · exact ⟨rfl, rfl, rfl, rfl⟩
  · split
    · exact ⟨rfl, rfl, rfl, rfl⟩
    · refine Mute.trans ?_ (greet_mute ..)
      exact ⟨rfl, rfl, rfl, rfl⟩
    · exact ⟨rfl, rfl, rfl, rfl⟩

/-- Until its PROXY header is read, a connection has heard nothing that counts. -/
theorem ingest_silent (env : Outside) (ans : Answers) (w : World) (c : Conn) (bytes : Bytes)
    (hq : Queued c) : (ingest env ans w c bytes).book.torn = c.book.torn ∧
      (ingest env ans w c bytes).book.given = c.book.given ∧
      (ingest env ans w c bytes).outbox = c.outbox ∧
      ((ingest env ans w c bytes).preface ≠ none → c.preface ≠ none ∧
        (ingest env ans w c bytes).inbox = c.inbox) := by
  unfold ingest
  split
  · rename_i hnone
    obtain ⟨htorn, hgiven, houtbox, hpreface⟩ := unwrap_mute ans w.config c bytes
    exact ⟨htorn, hgiven, houtbox, fun hsome => absurd (hpreface.trans hnone) hsome⟩
  · rename_i seen hseen
    have hsome : c.preface ≠ none := by
      rw [hseen]
      nofun
    dsimp only
    split
    · exact ⟨rfl, rfl, rfl, fun _ => ⟨hsome, rfl⟩⟩
    · exact ⟨rfl, rfl, (hq.silent hsome).2.1.symm, fun _ => ⟨hsome, rfl⟩⟩
    · rename_i consumed client _
      obtain ⟨htorn, hgiven, houtbox, hpreface⟩ := unwrap_mute ans w.config { c with
        peer := client.getD c.peer, preface := none, deadline := some (w.clock + CLIENT_IDLE) }
        ((seen ++ bytes).drop consumed)
      exact ⟨htorn, hgiven, houtbox, fun hstill => absurd hpreface hstill⟩

theorem readClient_queued (env : Outside) (ans : Answers) (w : World) (hq : Queued c)
    (outcome : Outcome) : Queued (readClient env ans w c outcome) := by
  obtain ⟨hcurrent, hpast⟩ := readClient_exchanges env ans w c outcome
  obtain ⟨_, _, _, _, _, _, _, _, _, _, hfields⟩ := readClient_fields env ans w c outcome
  have hconsumed : (readClient env ans w c outcome).headConsumed = c.headConsumed := by rw [hfields]
  refine hq.unsaid ?_
  clear hfields
  revert hcurrent hpast hconsumed
  unfold readClient
  split
  · dsimp only
    split <;> exact fun _ _ _ => .same rfl rfl rfl rfl rfl rfl rfl rfl
  · rename_i bytes _
    have hstamped : Queued { c with book := c.book.hearClient w.clock } :=
      hq.unsaid (.same rfl rfl rfl rfl rfl rfl rfl rfl)
    obtain ⟨htorn, hgiven, houtbox, hsilent⟩ := ingest_silent env ans w _ bytes hstamped
    dsimp only
    split
    · rename_i hplain
      intro hcurrent hpast _
      exact .of_plain (Option.isNone_iff_eq_none.mp hplain) htorn hgiven houtbox hpast
        (current_same hcurrent)
    · intro hcurrent hpast hconsumed
      exact ⟨htorn.symm.trans, fun _ => congrArg₂ (· ++ ·) hgiven houtbox, hpast,
        current_same hcurrent,
        fun hsome => ⟨(hsilent hsome).1, (hsilent hsome).2, houtbox.trans, hconsumed⟩⟩
  · exact fun _ _ _ => torn_unsaid rfl rfl rfl rfl rfl (fun _ => rfl) rfl

end Lives

section Boundaries

variable {env : Outside} {ans : Answers} {calm : Bool} {w w' : World} {fd : Fd} {c c' : Conn}
  {p q : Hand}

theorem Reusable.of_unseen (ht : Told env c) (hseen : c.responseHeadSeen = false) :
    Reusable c := by
  refine ⟨fun _ hlate => ?_, fun _ e r he hr => ?_⟩
  · rw [hseen] at hlate
    cases hlate
  · rw [(ht.unseen hseen he).1] at hr
    cases hr

theorem Reusable.of_none (hnone : c.book.current = none) : Reusable c := by
  refine ⟨fun _ _ e he => ?_, fun _ e _ he => ?_⟩ <;> rw [hnone] at he <;> cases he

theorem Reusable.untouched (h : Reusable c) (hsame : Untouched c c')
    (hkeep : c'.upstreamKeepAlive = true → c.upstreamKeepAlive = true) : Reusable c' := by
  refine ⟨fun hkept hseen e' he' => ?_, fun hup e' r he' hr => ?_⟩
  · obtain ⟨e, he, -, hheard, -⟩ := hsame.current e' he'
    unfold delimiting
    rw [hsame.head, hsame.method, hheard]
    exact h.sized (hkeep hkept) (hsame.seen.symm.trans hseen) e he
  · obtain ⟨e, he, hrelay, -, -⟩ := hsame.current e' he'
    exact h.clean (hsame.upstream hup) e r he (hrelay.symm.trans hr)

/-- Queueing more of a response is no reason to give up its upstream. -/
theorem Reusable.queued (h : Reusable c) {bytes : Bytes} (hhead : c'.upHead = c.upHead)
    (hmethod : c'.methodWasHead = c.methodWasHead)
    (hseen : c'.responseHeadSeen = c.responseHeadSeen) (hup : c'.upstream = c.upstream)
    (hkeep : c'.upstreamKeepAlive = true → c.upstreamKeepAlive = true)
    (hcurrent : c'.book.current = (c.book.queue bytes).current) : Reusable c' := by
  refine ⟨fun hkept hlate e' he' => ?_, fun hsome e' r he' hr => ?_⟩
  · obtain ⟨e, he, hheard, -, -⟩ := queue_current bytes (hcurrent.symm.trans he')
    unfold delimiting
    rw [hhead, hmethod, hheard]
    exact h.sized (hkeep hkept) (hseen.symm.trans hlate) e he
  · obtain ⟨e, he, -, -, hqueued⟩ := queue_current bytes (hcurrent.symm.trans he')
    rw [hqueued] at hr
    obtain ⟨r₀, hr₀, rfl⟩ := Option.map_eq_some_iff.mp hr
    exact h.clean (hup ▸ hsome) e r₀ he hr₀

/-- The head that is relayed says where its response ends, if its upstream is to be kept. -/
theorem relayHead_reusable (ht : Told env c) (hseen : c.responseHeadSeen = false)
    (hstatus : isSwitchingProtocols c.upHead = false) {framing : Framing}
    (hframing : responseFraming c.upHead c.upInbox c.methodWasHead = .ok framing) :
    Reusable (relayHead env w c framing).2 := by
  obtain ⟨out, hout⟩ := relayHead_fields env w c framing
  rw [hout]
  refine ⟨fun hkept _ e he => ?_, fun _ e r he hr => ?_⟩
  · obtain ⟨e₀, he₀, hheard, -, -⟩ := relay_current _ _ _ he
    have hinbox : heard e = c.upInbox := hheard.trans (ht.unseen hseen he₀).2
    unfold delimiting
    dsimp only
    rw [hstatus, hinbox, hframing]
    rintro (rfl : framing = .untilClose)
    simp [Framing.allowsReuse] at hkept
  · obtain ⟨-, -, -, -, hrelay⟩ := relay_current _ _ _ he
    rw [hrelay] at hr
    cases hr
    rfl

theorem progress_reusable (h : Progress env ans calm p q) (hs : Steady p.2) (ht : Told env p.2)
    (hr : Reusable p.2) : Reusable q.2 := by
  have htold := progress_told h hs ht
  cases h with
  | halfSent | undispatched | truncated =>
      exact hr.untouched ⟨rfl, rfl, rfl, rfl, rfl, rfl, id, nofun, fun _ => .inr rfl, id,
        Relaying.current_same rfl⟩ id
  | parsed | upEnded | extended =>
      exact hr.untouched ⟨rfl, rfl, rfl, rfl, rfl, rfl, id, id, fun _ => .inl rfl, id,
        Relaying.current_same rfl⟩ id
  | begun hphase | described hphase | routed hphase =>
      exact .of_unseen htold (hs.shape.head hphase).2.2.2.2
  | refused => exact hr
  | pumped hphase hpumped =>
      refine hr.untouched (pumped_untouched hpumped) ?_
      rcases pumped_exact hpumped with rfl | ⟨n, done, body, mirror, -, -, rfl⟩ <;> exact id
  | upParsed hphase hseen => exact .of_unseen htold hseen
  | @tunnelled w c asked =>
      obtain ⟨out, hout⟩ := tunnelled_fields env w c asked
      rw [hout]
      refine ⟨nofun, fun _ e r he hr => ?_⟩
      obtain ⟨e₁, he₁, -, -, hqueued⟩ := queue_current _ he
      obtain ⟨-, -, -, -, hrelay⟩ := relay_current _ _ _ he₁
      rw [hqueued, hrelay] at hr
      cases hr
      rfl
  | headRelayed hphase hseen hstatus hread hframing =>
      exact relayHead_reusable ht hseen hstatus hframing
  | bodyRelayed => exact hr.queued rfl rfl rfl rfl id rfl
  | @shuttled w c =>
      obtain ⟨tls, phase, hasty, hfields, -, -⟩ := shuttled_fields ans c
      rw [hfields]
      exact hr.queued rfl rfl rfl rfl id rfl
  | closed => exact hr.queued rfl rfl rfl rfl nofun rfl

theorem hands_reusable (h : Hands env ans calm p q) (hs : Steady p.2) (ht : Told env p.2)
    (hr : Reusable p.2) : Reusable q.2 := by
  induction h with
  | refl => exact hr
  | tail hbefore hstep ih =>
      exact progress_reusable hstep (hands_steady hbefore hs) (hands_told hbefore hs ht) ih

theorem refusedWith_reusable (hr : Reusable c) (status : Nat) (body : Bytes) (close : Bool)
    (unsupported : Option Bytes) : Reusable (refusedWith env c status body close unsupported) := by
  unfold refusedWith answeredSelf
  cases closes c close with
  | false =>
      simp only [Bool.false_eq_true, if_false]
      exact .of_none rfl
  | true =>
      simp only [Bool.not_true, Bool.false_and, Bool.false_eq_true, if_false, if_true]
      refine ⟨fun hkept hseen e he => ?_, fun hup => absurd rfl hup⟩
      obtain ⟨e₀, he₀, rfl⟩ := Option.map_eq_some_iff.mp he
      exact hr.sized hkept hseen e₀ he₀

theorem launched_seen (addr : SocketAddr) (w : World) (c : Conn) :
    (launched ans addr w c).responseHeadSeen = c.responseHeadSeen := by
  obtain ⟨held, hheld⟩ := holdInflight_fields w
    { c with dispatchedAt := some w.clock, deadline := some (w.clock + w.config.responseTimeout) }
  unfold launched
  rw [hheld]
  dsimp only
  split
  · rfl
  · split
    · rfl
    · split
      · rfl
      · split <;> rfl

theorem shift_reusable (h : Shift env ans calm fd w c c') (hs : Steady c) (ht : Told env c)
    (hr : Reusable c) : Reusable c' := by
  have htold := shift_told h hs ht
  cases h with
  | hands h => exact hands_reusable h hs ht hr
  | refused => exact refusedWith_reusable hr ..
  | finished =>
      refine .of_none ?_
      unfold Conn.ended
      dsimp only
      split <;> rfl
  | flushedDown =>
      refine hr.untouched (flushedDown_untouched ans fd c) ?_
      obtain ⟨tls, outbox, given, hsealed, -⟩ := sealed_fields ans.rustls c
      obtain ⟨tls', outbox', hunloaded, -⟩ := unloaded_fields
        { c with tls := tls, outbox := outbox, book := { c.book with given := given } }
      unfold flushedDown
      rw [hsealed]
      dsimp only
      rw [hunloaded]
      split
      · split <;> exact id
      · exact id
  | flushedUp =>
      refine hr.untouched (flushedUp_untouched ans c) ?_
      unfold flushedUp
      split
      · exact id
      · split
        · split <;> exact id
        · exact id
  | watchedUp =>
      refine hr.untouched (watchedUp_untouched ans c) ?_
      unfold watchedUp
      split
      · exact id
      · split <;> exact id
  | watchedDown =>
      refine hr.untouched (watchedDown_untouched ans fd c) ?_
      unfold watchedDown
      split <;> exact id
  | @sent w₁ w₂ c c₁ matched framing first allowed target others hands hphase =>
      obtain ⟨_, _, _, hfields⟩ := dispatched_fields ans w₁ c₁ w₁.routes matched framing first
        (target :: others) target
      refine .of_unseen htold ?_
      rw [launched_seen, hfields]
      exact ((hands_steady hands hs).shape.head hphase).2.2.2.2
  | released =>
      exact hr.untouched ⟨rfl, rfl, rfl, rfl, rfl, rfl, id, id, fun _ => .inl rfl, id,
        Relaying.current_same rfl⟩ id
  | @retried w₂ c addr hdue =>
      refine .of_unseen htold ?_
      rw [launched_seen]
      unfold Conn.requeued
      split <;> rfl
  | lost =>
      exact hr.untouched ⟨rfl, rfl, rfl, rfl, rfl, rfl, id, id, fun _ => .inl rfl,
        fun hup => absurd rfl hup, Relaying.current_same rfl⟩ id

/-- What is known of the client's side and of the upstream's. -/
structure Answering (env : Outside) (c : Conn) : Prop where
  told : Told env c
  laid : Laid c
  queued : Queued c
  reusable : Reusable c

theorem Answering.same (h : Answering env c) (hother : Told env c' ∧ Laid c')
    (hunsaid : Unsaid c c') (hsame : Untouched c c')
    (hkeep : c'.upstreamKeepAlive = c.upstreamKeepAlive) : Answering env c' :=
  ⟨hother.1, hother.2, h.queued.unsaid hunsaid, h.reusable.untouched hsame hkeep.symm.trans⟩

/-- Whatever becomes of a connection, its client is answered in order. -/
theorem answering_lasts (env : Outside) : Lasting env (Answering env) where
  new ans w tls := by
    obtain ⟨htold, hlaid⟩ := (laid_lasts env).new ans w tls
    refine ⟨htold, hlaid, ?_, ?_⟩
    · unfold newClient
      dsimp only
      split <;> exact ⟨fun _ => ⟨[], [], rfl, .nil, nofun⟩, fun _ => ⟨rfl, rfl, rfl⟩⟩
    · refine .of_none ?_
      unfold newClient
      dsimp only
      split <;> rfl
  shift hs hshift h :=
    ⟨shift_told hshift hs h.told, shift_laid hshift hs h.told h.laid,
      shift_queued hshift hs h.laid h.queued, shift_reusable hshift hs h.told h.reusable⟩
  readDown ans outcome hs hop hreading hgiven hfits h := by
    rename_i w op c
    obtain ⟨htold, hlaid⟩ :=
      (laid_lasts env).readDown ans outcome hs hop hreading hgiven hfits ⟨h.told, h.laid⟩
    have hunread : Untouched c { c with reading := false } :=
      ⟨rfl, rfl, rfl, rfl, rfl, rfl, id, id, fun _ => .inl rfl, id, Relaying.current_same rfl⟩
    have hsilent : Unsaid c { c with reading := false } := .same rfl rfl rfl rfl rfl rfl rfl rfl
    have hkeep : (readClient env ans (w.retire op outcome) { c with reading := false }
        outcome).upstreamKeepAlive = c.upstreamKeepAlive := by
      obtain ⟨_, _, _, _, _, _, _, _, _, _, hfields⟩ :=
        readClient_fields env ans (w.retire op outcome) { c with reading := false } outcome
      rw [hfields]
    exact ⟨htold, hlaid, readClient_queued env ans _ (h.queued.unsaid hsilent) outcome,
      (h.reusable.untouched hunread id).untouched (readClient_untouched ..) hkeep.symm.trans⟩
  wroteDown outcome hs hwriting h := by
    refine h.same ((laid_lasts env).wroteDown outcome hs hwriting ⟨h.told, h.laid⟩) ?_
      (wroteClient_untouched _ outcome) ?_
    · unfold wroteClient
      split
      · exact .same rfl rfl rfl rfl rfl rfl rfl rfl
      · exact torn_unsaid rfl rfl rfl rfl rfl (fun _ => rfl) rfl
    · unfold wroteClient
      split <;> rfl
  readUp outcome hs hop hattached hreading hfits h := by
    rename_i w op c
    obtain ⟨htold, hlaid⟩ :=
      (laid_lasts env).readUp outcome hs hop hattached hreading hfits ⟨h.told, h.laid⟩
    have hup : c.upstream ≠ none := hattached.symm ▸ Option.some_ne_none _
    refine ⟨htold, hlaid, h.queued.unsaid ⟨id, fun _ => rfl, rfl, ?_,
      fun hsome => ⟨hsome, rfl, id, rfl⟩⟩, fun hkept hseen e he => ?_, fun _ e r he hr => ?_⟩
    · intro e he
      obtain ⟨e₀, he₀, hrelay, -, -⟩ := hear_current he
      refine .inr ⟨e₀, he₀, ?_⟩
      rw [hrelay, Option.map_map]
      rfl
    · obtain ⟨e₀, he₀, -, hheard, -⟩ := hear_current he
      have hheard := hheard (h.told.engaged e₀ he₀ hup)
      obtain ⟨r₀, -, hrelayed⟩ := h.told.begun hseen he₀
      have hsame : delimiting (hear c outcome.bytes (stampsOf w op outcome)) e =
          delimiting c e₀ := delimiting_grown hrelayed.arrived hheard rfl rfl
      rw [hsame]
      exact h.reusable.sized hkept hseen e₀ he₀
    · obtain ⟨e₀, he₀, hrelay, -, -⟩ := hear_current he
      obtain ⟨r₀, hr₀, rfl⟩ := Option.map_eq_some_iff.mp (hrelay.symm.trans hr)
      exact h.reusable.clean hup e₀ r₀ he₀ hr₀
  wroteUp outcome hs hattached hwriting h := by
    refine h.same ((laid_lasts env).wroteUp outcome hs hattached hwriting ⟨h.told, h.laid⟩) ?_ ?_ ?_
    · split <;> exact .same rfl rfl rfl rfl rfl rfl rfl rfl
    · split <;> exact ⟨rfl, rfl, rfl, rfl, rfl, rfl, id, id, fun _ => .inl rfl, id,
        Relaying.current_same rfl⟩
    · split <;> rfl
  connected hs hattached hlent h := by
    obtain ⟨htold, hlaid⟩ := (laid_lasts env).connected hs hattached hlent ⟨h.told, h.laid⟩
    refine ⟨htold, hlaid, h.queued.unsaid ⟨id, fun _ => rfl, rfl,
      current_map (c := _) rfl fun _ => rfl, fun hsome => ⟨hsome, rfl, id, rfl⟩⟩,
      .of_unseen htold (hs.shape.borrowed hlent).2.2.2.1⟩
  missed hs hattached hlent h :=
    h.same ((laid_lasts env).missed hs hattached hlent ⟨h.told, h.laid⟩)
      (.same rfl rfl rfl rfl rfl rfl rfl rfl)
      ⟨rfl, rfl, rfl, rfl, rfl, rfl, id, id, fun _ => .inl rfl, fun hup => absurd rfl hup,
        Relaying.current_same rfl⟩ rfl
  spared hs hphase h := by
    rename_i c
    obtain ⟨htold, hlaid⟩ := (laid_lasts env).spared hs hphase ⟨h.told, h.laid⟩
    exact ⟨htold, hlaid, h.queued.unsaid (.same rfl rfl rfl rfl rfl rfl rfl rfl), h.reusable.sized,
      h.reusable.clean⟩
  cutOff hs hphase h :=
    h.same ((laid_lasts env).cutOff hs hphase ⟨h.told, h.laid⟩)
      (.same rfl rfl rfl rfl rfl rfl rfl rfl)
      ⟨rfl, rfl, rfl, rfl, rfl, rfl, id, id, fun _ => .inl rfl, fun hup => absurd rfl hup,
        Relaying.current_same rfl⟩ rfl
  handed hs hphase h :=
    h.same ((laid_lasts env).handed hs hphase ⟨h.told, h.laid⟩)
      (.same rfl rfl rfl rfl rfl rfl rfl rfl)
      ⟨rfl, rfl, rfl, rfl, rfl, rfl, id, id, fun _ => .inl rfl, id,
        Relaying.current_same rfl⟩ rfl

end Boundaries

section Runs

variable {env : Outside} {s : Bool} {w w' : World} {c : Conn} {m : Moment}

/-- The client's side of a connection: what is queued for it, and the response it is being sent. -/
structure Answered (env : Outside) (c : Conn) : Prop where
  ordered : c.book.torn = false → Ordered c
  current : ∀ e r, c.book.current = some e → e.relay = some r → Relayed env c e r

attribute [local instance] fdRoom

/-- A connection with a response complete: its upstream said nothing before the head and, behind the
body, only what is in the inbox, and the client was queued the head rewritten and that body. -/
def Complete (env : Outside) (c : Conn) : Prop :=
  ∃ e r body, c.book.current = some e ∧ e.relay = some r ∧ Relayed env c e r ∧
    heard e = (heard e).take c.upHead.len ++ body ++ c.upInbox ∧
    Reached body (delimiting c e) c.responseBody ∧ c.responseBody.isDone = true ∧
    r.since = r.head ++ body ∧
    (c.book.torn = false → r.head ++ body <:+ c.book.given ++ c.outbox)

/-- A connection whose upstream goes back to the pool: it said nothing but the one response, and
that said where it ended. -/
def Bounded (env : Outside) (c : Conn) : Prop :=
  Complete env c ∧ c.upInbox = [] ∧ ∀ e, c.book.current = some e → delimiting c e ≠ .untilClose

/-- Every exchange that ended with its upstream ended whole. -/
structure Closed (env : Outside) (w : World) : Prop where
  finished : ∀ c, .finished c ∈ w.moments → c.upstream ≠ none → Complete env c
  pooled : ∀ up c, .pooled up c ∈ w.moments → Bounded env c

theorem complete_of_answering (h : Answering env c) (hseen : c.responseHeadSeen = true)
    (hdone : c.responseBody.isDone = true) (hup : c.upstream ≠ none) : Complete env c := by
  have hconsumed : c.headConsumed = true := h.laid.answered hseen
  obtain ⟨-, e, -, -, he, -, -⟩ := h.laid.underway hconsumed
  obtain ⟨r, hr, hrelayed⟩ := h.told.begun hseen he
  obtain ⟨body, hsince, hreceived, hreached⟩ := hrelayed.body (h.reusable.clean hup e r he hr)
  refine ⟨e, r, body, he, hr, hrelayed, ?_, hreached, hdone, hsince, fun htorn => ?_⟩
  · rw [List.append_assoc, ← hreceived, hrelayed.received, List.take_append_drop]
  · obtain ⟨parts, latest, hqueued, -, hlatest⟩ := h.queued.ordered htorn
    rw [hqueued, ← hsince]
    refine (hlatest e he r.since ?_).trans (List.suffix_append ..)
    rw [hr]
    rfl

/-- Giving back what it held does not change what a connection has said and heard. -/
theorem complete_letLoose (h : Complete env c) : Complete env (letLoose c) := by
  obtain ⟨e, r, body, he, hr, hrelayed, hheard, hreached, hdone, hsince, hqueued⟩ := h
  refine ⟨e, r, body, he, hr, ?_, hheard, hreached, hdone, hsince, hqueued⟩
  have hwritten : Written env (letLoose c) e r :=
    hrelayed.written.grown hrelayed.arrived (List.append_nil _).symm rfl rfl rfl id (.inl rfl)
  exact ⟨hrelayed.arrived, hrelayed.received, hwritten, hrelayed.body⟩

theorem closed_event (hevent : Event env false s w w')
    (hall : ∀ c, Seen w c → Answering env c) (h : Closed env w) : Closed env w' := by
  refine ⟨fun c hmem hup => ?_, fun up c hmem => ?_⟩
  · have hends : Moment.Ends (.finished c) := trivial
    rcases event_ends hevent hends hmem with hold | ⟨fd, hnew⟩
    · exact h.finished c hold hup
    · cases hnew with
      | finished hslot hseen hdone =>
          exact complete_of_answering (hall c (.slot hslot)) hseen hdone hup
  · have hends : Moment.Ends (.pooled up c) := trivial
    rcases event_ends hevent hends hmem with hold | ⟨fd, hnew⟩
    · exact h.pooled up c hold
    · cases hnew with
      | @pooled c₀ _ hslot hseen hdone hphase hup hlasts hempty =>
          have hanswering := hall c₀ (.slot hslot)
          have hattached : c₀.upstream ≠ none := hup.symm ▸ Option.some_ne_none _
          exact ⟨complete_letLoose (complete_of_answering hanswering hseen hdone hattached), hempty,
            hanswering.reusable.sized hlasts hseen⟩

/-- In every run, an exchange that ends with its upstream ends with one whole response queued for
its client as the upstream sent it; and an upstream is only ever pooled behind a response that said
where it ends, with nothing heard beyond it. -/
theorem closed_always (env : Outside) (config : Config) (fixtures : Fixtures) (pool : Nat × Nat)
    (routes : Snapshot) (routeSlots : Nat → RouteSlot) (inflight : Nat → Nat) (acts : List Act)
    (htime : Meets (step env) OnTime
      (begun config fixtures pool routes routeSlots inflight) acts) :
    Always (step env) (fun m => Closed env m.world)
      (begun config fixtures pool routes routeSlots inflight) acts := by
  have hnothing : Closed env (initial config fixtures pool routes routeSlots inflight) :=
    ⟨fun c hmem => absurd hmem List.not_mem_nil, fun up c hmem => absurd hmem List.not_mem_nil⟩
  have hnobody : ∀ c, Seen (initial config fixtures pool routes routeSlots inflight) c →
      Answering env c := by
    rintro c (hslot | hleft | hended)
    · cases hslot
    · cases hleft
    · cases hended
  have hkeeps : ∀ s w w', Kept s w → Event env false s w w' →
      (∀ c, Seen w c → Answering env c) ∧ Closed env w →
      (∀ c, Seen w' c → Answering env c) ∧ Closed env w' :=
    fun s w w' hkept hevent ⟨hall, hclosed⟩ =>
      ⟨(answering_lasts env).event hkept hevent hall, closed_event hevent hall hclosed⟩
  exact always_of_events hkeeps (fun m hm => hm.2) ⟨hnobody, hnothing⟩ htime

theorem closed_of_restarted :
    Always (step leastOutside) (fun m => Closed leastOutside m.world) poolingCore restarted :=
  closed_always leastOutside leastConfig leastFixtures (2, 2) leastSnapshot (fun _ => {})
    (fun _ => 0) restarted restarted_onTime

end Runs

end Ramjet.Engine.Worker.Responses
