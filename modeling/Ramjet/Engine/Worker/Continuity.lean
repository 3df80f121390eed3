/- digest: What lasts of the requests of a connection and of the copy it keeps of one. -/

import Ramjet.Engine.Worker.Effects
import Ramjet.Engine.Worker.Relaying

set_option autoImplicit false
set_option relaxedAutoImplicit false

namespace Ramjet.Engine.Worker.Continuity

open Ramjet.Base.Octets
open Ramjet.Base.Net
open Ramjet.Engine.Codec.MessageHead
open Ramjet.Engine.Codec.BodyFraming
open Ramjet.Engine.IdlePool
open Ramjet.Engine.Worker.Accounting
open Ramjet.Engine.Worker.Connection
open Ramjet.Engine.Worker.Core
open Ramjet.Engine.Worker.Serving
open Ramjet.Engine.Worker.Handlers
open Ramjet.Engine.Worker.Moves
open Ramjet.Engine.Worker.Images
open Ramjet.Engine.Worker.Alterations
open Ramjet.Engine.Worker.Inflight
open Ramjet.Engine.Worker.Relaying
open Ramjet.Engine.Worker.Effects

/-- Between two requests a connection has none, and no copy of one. -/
def Idle (c : Conn) : Prop := c.phase = .head → c.mirror = none ∧ c.book.current = none

/-- Of the bodies of two requests and how they are framed, nothing differs. -/
def SameBody (e e' : Exchange) : Prop := e'.framing = e.framing ∧ e'.body = e.body

/-- What is left of a connection's requests, and of the copy of the one it has: the requests keep
their numbers and their bodies, none is added, and the copy stays as it is until its request is
over. -/
structure Onward (c c' : Conn) : Prop where
  past : c.book.past.length ≤ c'.book.past.length
  length : c'.book.exchanges.length = c.book.exchanges.length
  keeps : ∀ (i : Nat) (e : Exchange), c.book.exchanges[i]? = some e →
    ∃ e', c'.book.exchanges[i]? = some e' ∧ SameBody e e'
  idle : Idle c → Idle c'
  copy : (c'.mirror = c.mirror ∧ c'.requestBody = c.requestBody ∧
      c'.book.past.length = c.book.past.length) ∨
    (c'.mirror = none ∧ (c.book.current.isSome = true → c.book.past.length < c'.book.past.length))

section Relations

variable {c c₁ c' : Conn}

theorem SameBody.trans {e e₁ e' : Exchange} (h : SameBody e e₁) (h' : SameBody e₁ e') :
    SameBody e e' := ⟨h'.1.trans h.1, h'.2.trans h.2⟩

/-- The request a connection has is the one numbered behind those that are over. -/
theorem exchanges_current (b : Book) : b.exchanges[b.past.length]? = b.current := by
  unfold Book.exchanges
  rw [List.getElem?_append_right le_rfl, Nat.sub_self]
  cases b.current <;> rfl

theorem Onward.trans (h : Onward c c₁) (h' : Onward c₁ c') : Onward c c' := by
  refine ⟨h.past.trans h'.past, h'.length.trans h.length, fun i e he => ?_, h'.idle ∘ h.idle, ?_⟩
  · obtain ⟨e₁, he₁, hfirst⟩ := h.keeps i e he
    obtain ⟨e', he', hlast⟩ := h'.keeps i e₁ he₁
    exact ⟨e', he', hfirst.trans hlast⟩
  · rcases h.copy with ⟨hmirror, hbody, hpast⟩ | ⟨hnone, hgrown⟩
    · rcases h'.copy with ⟨hmirror', hbody', hpast'⟩ | ⟨hnone', hgrown'⟩
      · exact .inl ⟨hmirror'.trans hmirror, hbody'.trans hbody, hpast'.trans hpast⟩
      · refine .inr ⟨hnone', fun hsome => ?_⟩
        obtain ⟨e, he⟩ := Option.isSome_iff_exists.mp hsome
        obtain ⟨e₁, he₁, -⟩ := h.keeps _ e ((exchanges_current _).trans he)
        rw [← hpast, exchanges_current] at he₁
        rw [← hpast]
        exact hgrown' (Option.isSome_iff_exists.mpr ⟨e₁, he₁⟩)
    · refine .inr ⟨?_, fun hsome => (hgrown hsome).trans_le h'.past⟩
      rcases h'.copy with ⟨hmirror', -⟩ | ⟨hnone', -⟩
      · exact hmirror'.trans hnone
      · exact hnone'

/-- The request a connection has may have changed, but not in its body. -/
theorem Onward.of_current (change : Exchange → Exchange) (hpast : c'.book.past = c.book.past)
    (hcurrent : c'.book.current = c.book.current.map change)
    (hchange : ∀ e, SameBody e (change e)) (hmirror : c'.mirror = c.mirror)
    (hbody : c'.requestBody = c.requestBody) (hphase : c'.phase = .head → c.phase = .head) :
    Onward c c' := by
  refine ⟨hpast.symm ▸ le_rfl, ?_, fun i e he => ?_, fun hidle hhead => ?_,
    .inl ⟨hmirror, hbody, congrArg List.length hpast⟩⟩
  · unfold Book.exchanges
    rw [hpast, hcurrent]
    cases c.book.current <;> simp
  · unfold Book.exchanges at he ⊢
    rw [hpast, hcurrent]
    by_cases hi : i < c.book.past.length
    · rw [List.getElem?_append_left hi] at he ⊢
      exact ⟨e, he, rfl, rfl⟩
    · rw [List.getElem?_append_right (by omega)] at he ⊢
      cases hc : c.book.current with
      | none =>
          rw [hc] at he
          cases he
      | some e₀ =>
          rw [hc] at he
          obtain ⟨hi, rfl⟩ := List.getElem?_eq_some_iff.mp he
          have hzero : i - c.book.past.length = 0 := by simpa using hi
          rw [Option.map_some, Option.toList_some]
          simp only [hzero, List.getElem?_cons_zero, Option.toList_some, List.getElem_cons_zero]
          exact ⟨change e₀, rfl, hchange e₀⟩
  · obtain ⟨hnone, hfree⟩ := hidle (hphase hhead)
    exact ⟨hmirror.trans hnone, by rw [hcurrent, hfree]; rfl⟩

/-- Nothing happened to the request a connection has. -/
theorem Onward.of_same (hpast : c'.book.past = c.book.past)
    (hcurrent : c'.book.current = c.book.current) (hmirror : c'.mirror = c.mirror)
    (hbody : c'.requestBody = c.requestBody) (hphase : c'.phase = .head → c.phase = .head) :
    Onward c c' :=
  .of_current id hpast (by rw [hcurrent, Option.map_id_fun, id_eq])
    (fun _ => ⟨rfl, rfl⟩) hmirror hbody hphase

theorem Onward.refl (c : Conn) : Onward c c := .of_same rfl rfl rfl rfl id

/-- The request a connection has is over, and its copy is dropped. -/
theorem Onward.of_close (hbook : c'.book = c.book.close) (hmirror : c'.mirror = none) :
    Onward c c' := by
  have hall : c'.book.exchanges = c.book.exchanges := by
    rw [hbook]
    exact List.append_nil _
  have hpast : c'.book.past = c.book.past ++ c.book.current.toList := by
    rw [hbook]
    rfl
  refine ⟨?_, congrArg List.length hall, fun i e he => ⟨e, hall ▸ he, rfl, rfl⟩,
    fun _ _ => ⟨hmirror, by rw [hbook]; rfl⟩, .inr ⟨hmirror, fun hsome => ?_⟩⟩
  · rw [hpast, List.length_append]
    omega
  · obtain ⟨e, he⟩ := Option.isSome_iff_exists.mp hsome
    rw [hpast, he, List.length_append]
    exact Nat.lt_succ_self _

end Relations

section Effects

variable {env : Outside} {ans : Answers} {c c' : Conn}

theorem onward_relay {b : Book} {status : Nat} {out received : Bytes}
    (hbook : c'.book = b.relay status out received) (hpast : b.past = c.book.past)
    (hcurrent : b.current = c.book.current) (hmirror : c'.mirror = c.mirror)
    (hbody : c'.requestBody = c.requestBody) (hphase : c'.phase ≠ .head) : Onward c c' := by
  refine .of_current (fun e => { e with
    statuses := e.statuses ++ [status], relay := some ⟨out, received, out, false⟩ })
    (by rw [hbook]; exact hpast) ?_ (fun _ => ⟨rfl, rfl⟩) hmirror hbody fun hhead =>
    absurd hhead hphase
  rw [hbook, ← hcurrent]
  rfl

theorem onward_queue {b : Book} {bytes : Bytes} (hbook : c'.book = b.queue bytes)
    (hpast : b.past = c.book.past) (hcurrent : b.current = c.book.current)
    (hmirror : c'.mirror = c.mirror) (hbody : c'.requestBody = c.requestBody)
    (hphase : c'.phase = .head → c.phase = .head) : Onward c c' := by
  refine .of_current (fun e => { e with
    relay := e.relay.map fun r => { r with since := r.since ++ bytes } })
    (by rw [hbook]; exact hpast) ?_ (fun _ => ⟨rfl, rfl⟩) hmirror hbody hphase
  rw [hbook, ← hcurrent]
  rfl

theorem onward_onTry {b : Book} {change : Try → Try} (hbook : c'.book = b.onTry change)
    (hpast : b.past = c.book.past) (hcurrent : b.current = c.book.current)
    (hmirror : c'.mirror = c.mirror) (hbody : c'.requestBody = c.requestBody)
    (hphase : c'.phase = .head → c.phase = .head) : Onward c c' := by
  refine .of_current (fun e => { e with
    tried := e.tried.dropLast ++ (e.tried.getLast?.map change).toList })
    (by rw [hbook]; exact hpast) ?_ (fun _ => ⟨rfl, rfl⟩) hmirror hbody hphase
  rw [hbook, ← hcurrent]
  rfl

theorem onward_attempt {b : Book} {t : Try} (hbook : c'.book = b.attempt t)
    (hpast : b.past = c.book.past) (hcurrent : b.current = c.book.current)
    (hmirror : c'.mirror = c.mirror) (hbody : c'.requestBody = c.requestBody)
    (hphase : c'.phase = .head → c.phase = .head) : Onward c c' := by
  refine .of_current (fun e => { e with tried := e.tried ++ [t] })
    (by rw [hbook]; exact hpast) ?_ (fun _ => ⟨rfl, rfl⟩) hmirror hbody hphase
  rw [hbook, ← hcurrent]
  rfl

theorem flushedDown_onward (ans : Answers) (fd : Fd) (c : Conn) :
    Onward c (flushedDown ans fd c) := by
  obtain ⟨tls, outbox, given, hsealed, -⟩ := sealed_fields ans.rustls c
  obtain ⟨tls', outbox', hunloaded, -⟩ := unloaded_fields
    { c with tls := tls, outbox := outbox, book := { c.book with given := given } }
  unfold flushedDown
  rw [hsealed]
  dsimp only
  rw [hunloaded]
  split
  · split
    · exact .of_same rfl rfl rfl rfl id
    · exact .of_same rfl rfl rfl rfl nofun
  · exact .of_same rfl rfl rfl rfl id

theorem flushedUp_onward (ans : Answers) (c : Conn) : Onward c (flushedUp ans c) := by
  unfold flushedUp
  split
  · exact .refl c
  · split
    · split
      · exact onward_onTry rfl rfl rfl rfl rfl id
      · exact .of_same rfl rfl rfl rfl nofun
    · exact .refl c

theorem watchedUp_onward (ans : Answers) (c : Conn) : Onward c (watchedUp ans c) := by
  unfold watchedUp
  split
  · exact .refl c
  · split
    · exact .of_same rfl rfl rfl rfl id
    · exact .refl c

theorem watchedDown_onward (ans : Answers) (fd : Fd) (c : Conn) :
    Onward c (watchedDown ans fd c) := by
  unfold watchedDown
  split
  · exact .of_same rfl rfl rfl rfl id
  · exact .refl c

theorem ended_onward (c : Conn) : Onward c (letLoose c).ended := by
  unfold Conn.ended
  dsimp only
  split
  · exact .of_close rfl rfl
  · exact .of_close rfl rfl

theorem tunnelled_onward (env : Outside) (w : World) (c : Conn) (asked : Bytes) :
    Onward c (tunnelled env w c asked).2 := by
  obtain ⟨out, hout⟩ := tunnelled_fields env w c asked
  rw [hout]
  have hrelayed : Onward c { c with
      phase := .tunnel
      book := { c.book with taken := c.book.taken ++ c.inbox }.relay 101 out
        (c.upInbox.drop c.upHead.len) } :=
    onward_relay (b := { c.book with taken := c.book.taken ++ c.inbox }) rfl rfl rfl rfl rfl nofun
  exact hrelayed.trans (onward_queue rfl rfl rfl rfl rfl nofun)

theorem relayHead_onward (env : Outside) (w : World) (c : Conn) (framing : Framing) :
    Onward c (relayHead env w c framing).2 := by
  obtain ⟨out, hout⟩ := relayHead_fields env w c framing
  rw [hout]
  exact onward_relay rfl rfl rfl rfl rfl nofun

theorem shuttled_onward (ans : Answers) (c : Conn) : Onward c (shuttled ans c) := by
  obtain ⟨tls, phase, hasty, hfields, hnext, -⟩ := shuttled_fields ans c
  rw [hfields]
  have hqueued : Onward c { c with
      book := Book.queue { c.book with taken := c.book.taken ++ c.inbox } c.upInbox } :=
    onward_queue rfl rfl rfl rfl rfl id
  refine hqueued.trans ?_
  refine .of_same rfl rfl rfl rfl fun hhead => ?_
  rcases hnext with hsame | hclosing
  · exact hsame ▸ hhead
  · exact absurd (hclosing.symm.trans hhead) nofun

theorem readClient_onward (env : Outside) (ans : Answers) (w : World) (c : Conn)
    (outcome : Outcome) : Onward c (readClient env ans w { c with reading := false } outcome) := by
  obtain ⟨hcurrent, hpast⟩ := readClient_exchanges env ans w { c with reading := false } outcome
  have hphase := (@readClient_unmoved env ans w { c with reading := false } outcome).phase
  obtain ⟨_, _, _, _, _, _, _, _, _, _, hfields⟩ := readClient_fields env ans w
    { c with reading := false } outcome
  rw [hfields] at hcurrent hpast hphase ⊢
  exact .of_same hpast hcurrent rfl rfl hphase

theorem wroteClient_onward (c : Conn) (outcome : Outcome) : Onward c (wroteClient c outcome) := by
  unfold wroteClient
  split
  · exact .of_same rfl rfl rfl rfl id
  · exact .of_same rfl rfl rfl rfl nofun

theorem hear_onward (c : Conn) (bytes : Bytes) (stamps : List Nat) :
    Onward c (hear c bytes stamps) := by
  have hreceived : Onward c { c with book := c.book.receive bytes } := by
    refine .of_current (fun e => { e with
      relay := e.relay.map fun r => { r with received := r.received ++ bytes } })
      rfl rfl (fun _ => ⟨rfl, rfl⟩) rfl rfl id
  refine hreceived.trans ?_
  exact onward_onTry (b := { c.book with
    lease := { c.book.lease with stamps := c.book.lease.stamps ++ stamps } }.receive bytes)
    rfl rfl rfl rfl rfl id

theorem launched_onward (ans : Answers) (addr : SocketAddr) (w : World) (c : Conn) :
    Onward c (launched ans addr w c) := by
  obtain ⟨held, hheld⟩ := holdInflight_fields w
    { c with
      dispatchedAt := some w.clock, deadline := some (w.clock + w.config.responseTimeout) }
  unfold launched
  dsimp only
  rw [hheld]
  split
  · exact onward_attempt rfl rfl rfl rfl rfl nofun
  · split
    · exact onward_attempt rfl rfl rfl rfl rfl id
    · split
      · exact onward_attempt rfl rfl rfl rfl rfl nofun
      · split
        · exact onward_attempt rfl rfl rfl rfl rfl nofun
        · exact onward_attempt rfl rfl rfl rfl rfl id

theorem requeued_onward (c : Conn) : Onward c c.requeued := by
  unfold Conn.requeued
  split <;> exact .of_same rfl rfl rfl rfl nofun

theorem answeredSelf_onward (c : Conn) (status : Nat) (out : Bytes) (close : Bool) :
    Onward c (answeredSelf c status out close) := by
  have hdropped : ∀ early : Bool, Onward c (if early then c.dropHead else c) := by
    intro early
    cases early with
    | true => exact .of_same rfl rfl rfl rfl id
    | false => exact .refl c
  have hinvented : ∀ d : Conn, Onward d ({ d with counted := true }.invent status out) := fun d =>
    .of_current (fun e => { e with
        statuses := e.statuses ++ [status]
        relay := e.relay.map fun r => { r with since := r.since ++ out, intruded := true } })
      rfl rfl (fun _ => ⟨rfl, rfl⟩) rfl rfl id
  have hcounted := (hdropped (!close && !c.headConsumed)).trans (hinvented _)
  cases close with
  | true => exact hcounted.trans (.of_same rfl rfl rfl rfl nofun)
  | false => exact hcounted.trans (.of_close rfl rfl)

theorem refused_onward (env : Outside) (c : Conn) (status : Nat) (body : Bytes) (close : Bool)
    (unsupported : Option Bytes) : Onward c (refusedWith env c status body close unsupported) := by
  have hloose : Onward c (letLoose c).cutOff := .of_same rfl rfl rfl rfl id
  exact hloose.trans (answeredSelf_onward _ _ _ _)

/-- Whatever is done to a connection short of beginning a request or taking bytes of its body, its
requests last. -/
theorem onward_steadfast (env : Outside) : Steadfast env Onward where
  refl := .refl
  trans := .trans
  flushedDown := flushedDown_onward
  flushedUp := flushedUp_onward
  watchedUp := watchedUp_onward
  watchedDown := watchedDown_onward
  closing _ := .of_same rfl rfl rfl rfl nofun
  cutOff _ := .of_same rfl rfl rfl rfl id
  ended := ended_onward
  letLoose _ := .of_same rfl rfl rfl rfl id
  lost _ _ := .of_same rfl rfl rfl rfl id
  severed _ := .of_same rfl rfl rfl rfl nofun
  upParsed _ _ := .of_same rfl rfl rfl rfl id
  tunnelled := tunnelled_onward env
  relayHead := relayHead_onward env
  relayed _ _ _ _ := onward_queue rfl rfl rfl rfl rfl id
  closed _ := onward_queue rfl rfl rfl rfl rfl id
  shuttled := shuttled_onward
  upEnded _ := .of_same rfl rfl rfl rfl id
  extended _ _ _ := .of_same rfl rfl rfl rfl id
  readClient := readClient_onward env
  wroteClient := wroteClient_onward
  hear := hear_onward
  delivered _ _ := .of_same rfl rfl rfl rfl id
  undelivered _ := .of_same rfl rfl rfl rfl id
  connected _ := onward_onTry rfl rfl rfl rfl rfl nofun
  missed _ := .of_same rfl rfl rfl rfl id
  spared c := by
    refine .of_same rfl rfl rfl rfl fun hhead => ?_
    exact (spared_unmoved c).phase hhead
  refused := refused_onward env
  launched := launched_onward
  requeued := requeued_onward

end Effects

end Ramjet.Engine.Worker.Continuity
