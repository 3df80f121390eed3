/- digest: What each function of a core makes of the one connection it serves. -/

import Ramjet.Engine.Worker.Moves

set_option autoImplicit false
set_option relaxedAutoImplicit false

namespace Ramjet.Engine.Worker.Images

open Ramjet.Base.Octets
open Ramjet.Base.Net
open Ramjet.Engine.Codec.MessageHead
open Ramjet.Engine.Headers
open Ramjet.Engine.IdlePool
open Ramjet.Engine.Limits
open Ramjet.Engine.Tls
open Ramjet.Engine.Worker.Accounting
open Ramjet.Engine.Worker.Connection
open Ramjet.Engine.Worker.Core
open Ramjet.Engine.Worker.Serving
open Ramjet.Engine.Worker.Requests
open Ramjet.Engine.Worker.Moves

section Equations

variable {env : Outside} {ans : Answers} {fd : Fd} {w : World} {c : Conn}

theorem flushDown_slot (hslot : w.slots fd = .client c) :
    (flushDown ans w fd).slots fd = .client (flushedDown ans fd c) := by
  unfold flushDown flushedDown
  simp only [hslot]
  split
  · split
    · exact setClient_slot ..
    · exact setClient_slot ..
  · exact setClient_slot ..

theorem flushUp_slot (hslot : w.slots fd = .client c) :
    (flushUp ans w fd).slots fd = .client (flushedUp ans c) := by
  unfold flushUp flushedUp
  simp only [hslot]
  cases hup : c.upstream with
  | none => exact hslot
  | some up =>
      dsimp only
      split
      · split
        · exact setClient_slot ..
        · exact setClient_slot ..
      · exact hslot

theorem readUp_slot (hslot : w.slots fd = .client c) :
    (readUp ans w fd).slots fd = .client (watchedUp ans c) := by
  unfold readUp watchedUp
  simp only [hslot]
  cases hup : c.upstream with
  | none => exact hslot
  | some up =>
      dsimp only
      split
      · exact setClient_slot ..
      · exact hslot

theorem readDown_slot (hslot : w.slots fd = .client c) :
    (readDown ans w fd).slots fd = .client (watchedDown ans fd c) := by
  unfold readDown watchedDown
  simp only [hslot]
  split
  · exact setClient_slot ..
  · exact hslot

theorem refuse_conn (w : World) (c : Conn) (status : Nat) (out : Bytes) (close : Bool) :
    (refuse w c status out close).2 = answeredSelf c status out close := by
  simp only [refuse, answeredSelf, recordResponse_fields]

theorem fail_slot (hslot : w.slots fd = .client c) (status : Nat) (body : Bytes) (close : Bool)
    (unsupported : Option Bytes) :
    (failUnsupported env ans w fd status body close unsupported).slots fd =
      .client (refusedWith env c status body close unsupported) := by
  unfold failUnsupported
  simp only [hslot]
  rw [setClient_slot, refuse_conn, released_fields]
  rfl

theorem finish_slot (hslot : w.slots fd = .client c) :
    (finishResponse ans w fd).slots fd = .client (letLoose c).ended := by
  unfold finishResponse
  simp only [hslot]
  rw [setClient_slot, released_fields]
  rfl

end Equations

section Fields

variable {ans : Answers} {fd : Fd} {c : Conn}

/-- Nothing is read out of nothing. -/
theorem parse_nothing (h0 : Head) :
    parseRequestHead .standard [] h0 = (.ok false, { h0 with scanned := 0 }) := by
  have hscan : findHeadEnd .standard [] h0 = (.ok none, { h0 with scanned := 0 }) := by
    unfold findHeadEnd
    simp only [List.length_nil, Nat.min_zero, List.drop_nil]
    rfl
  unfold parseRequestHead
  rw [hscan]

theorem read_inbox (h : Read c) : c.inbox ≠ [] := by
  obtain ⟨h0, hread⟩ := h
  intro hempty
  rw [hempty, parse_nothing] at hread
  cases hread

theorem sealed_fields (r : Rustls) (c : Conn) :
    ∃ tls outbox given, c.sealed r =
        { c with tls := tls, outbox := outbox, book := { c.book with given := given } } ∧
      tls.map (·.state) = stage c := by
  unfold Conn.sealed
  split
  · exact ⟨c.tls, c.outbox, c.book.given, rfl, rfl⟩
  · rename_i session hsession
    split
    · exact ⟨c.tls, c.outbox, c.book.given, rfl, rfl⟩
    · refine ⟨_, _, _, rfl, ?_⟩
      unfold stage Session.sealPlain
      rw [hsession]
      split <;> rfl

theorem unloaded_fields (c : Conn) :
    ∃ tls outbox, c.unloaded = { c with tls := tls, outbox := outbox } ∧
      tls.map (·.state) = stage c := by
  unfold Conn.unloaded
  split
  · rename_i session hsession
    refine ⟨_, c.outbox, rfl, ?_⟩
    unfold stage
    rw [hsession]
    rfl
  · exact ⟨c.tls, [], rfl, rfl⟩

theorem flushedDown_handOff (c : Conn) : (flushedDown ans fd c).handOff = c.handOff := by
  obtain ⟨tls, outbox, given, hsealed, -⟩ := sealed_fields ans.rustls c
  obtain ⟨tls', outbox', hunloaded, -⟩ := unloaded_fields
    { c with tls := tls, outbox := outbox, book := { c.book with given := given } }
  unfold flushedDown
  rw [hsealed]
  dsimp only
  rw [hunloaded]
  split
  · split <;> rfl
  · rfl

theorem flushedUp_handOff (c : Conn) : (flushedUp ans c).handOff = c.handOff := by
  unfold flushedUp
  split
  · rfl
  · split
    · split <;> rfl
    · rfl

theorem watchedUp_handOff (c : Conn) : (watchedUp ans c).handOff = c.handOff := by
  unfold watchedUp
  split
  · rfl
  · split <;> rfl

end Fields

end Ramjet.Engine.Worker.Images
