/- digest: Every in-flight counter is what connections have counted on it and not given back. -/

import Mathlib.Data.Nat.ModEq
import Ramjet.Base.Totals
import Ramjet.Engine.Worker.Coherence

set_option autoImplicit false
set_option relaxedAutoImplicit false

namespace Ramjet.Engine.Worker.Inflight

open Ramjet.Base.Octets
open Ramjet.Base.Machine
open Ramjet.Base.Net
open Ramjet.Base.Totals
open Ramjet.Engine.IdlePool
open Ramjet.Engine.Worker.Accounting
open Ramjet.Engine.Worker.Connection
open Ramjet.Engine.Worker.Core
open Ramjet.Engine.Worker.Serving
open Ramjet.Engine.Worker.Requests
open Ramjet.Engine.Worker.Handlers
open Ramjet.Engine.Worker.Loop
open Ramjet.Engine.Worker.Descriptors
open Ramjet.Engine.Worker.Moves
open Ramjet.Engine.Worker.Images
open Ramjet.Engine.Worker.Events
open Ramjet.Engine.Worker.Keeping
open Ramjet.Engine.Worker.Arrivals
open Ramjet.Engine.Worker.Alterations
open Ramjet.Engine.Worker.Changes
open Ramjet.Engine.Worker.Coherence

/-- A connection holds its endpoint from when it is given an upstream until it lets go of it, and
holds nothing while it waits for a request. -/
structure Holding (c : Conn) : Prop where
  engaged : c.upstream ≠ none → ∀ handle, heldCounter c = some handle → c.inflightHeld = true
  waiting : c.phase = .head → c.inflightHeld = false ∧ c.upstream = none

/-- What one connection counts on a counter. -/
def holds (c : Conn) (handle : Nat) : Nat :=
  if c.inflightHeld = true ∧ heldCounter c = some handle then 1 else 0

def holding (handle : Nat) : Slot → Nat
  | .client c => holds c handle
  | _ => 0

/-- What the connections of a core count on a counter. -/
def held (w : World) (handle : Nat) : Nat := total fun fd => holding handle (w.slots fd)

/-- What connections that are gone still count on it. -/
def leaked (w : World) (handle : Nat) : Nat := (w.archive.map fun c => holds c handle).sum

/-- Every counter is what it was before this core, what its connections count and what those that
are gone still do. -/
def Balanced (base : Nat → Nat) (w : World) : Prop :=
  ∀ handle, w.inflight handle ≡ base handle + held w handle + leaked w handle [MOD U32_SIZE]

section Connections

variable {env : Outside} {ans : Answers} {calm : Bool} {w w' : World} {fd : Fd} {c c' d : Conn}
  {p q : Hand}

/-- Nothing that a hold depends on changed. -/
structure Unmoved (c c' : Conn) : Prop where
  upstream : c'.upstream = c.upstream
  flag : c'.inflightHeld = c.inflightHeld
  counter : heldCounter c' = heldCounter c
  phase : c'.phase = .head → c.phase = .head

theorem Unmoved.refl (c : Conn) : Unmoved c c := ⟨rfl, rfl, rfl, id⟩

theorem Unmoved.trans {c'' : Conn} (h : Unmoved c c') (h' : Unmoved c' c'') : Unmoved c c'' :=
  ⟨h'.upstream.trans h.upstream, h'.flag.trans h.flag, h'.counter.trans h.counter,
    h.phase ∘ h'.phase⟩

theorem Unmoved.holds (h : Unmoved c c') (handle : Nat) : holds c' handle = holds c handle := by
  unfold Inflight.holds
  rw [h.flag, h.counter]

theorem Holding.unmoved (h : Holding c) (hsame : Unmoved c c') : Holding c' := by
  refine ⟨fun hup handle hhandle => ?_, fun hphase => ?_⟩
  · rw [hsame.upstream] at hup
    rw [hsame.counter] at hhandle
    rw [hsame.flag]
    exact h.engaged hup handle hhandle
  · rw [hsame.flag, hsame.upstream]
    exact h.waiting (hsame.phase hphase)

theorem holds_unheld (hfree : c.inflightHeld = false) (handle : Nat) : holds c handle = 0 := by
  unfold holds
  rw [if_neg fun h => by rw [hfree] at h; exact Bool.false_ne_true h.1]

theorem Holding.of_free (hup : c.upstream = none) (hfree : c.inflightHeld = false) : Holding c :=
  ⟨fun hsome => absurd hup hsome, fun _ => ⟨hfree, hup⟩⟩

theorem progress_unmoved (h : Progress env ans calm p q) : Unmoved p.2 q.2 := by
  cases h with
  | halfSent | undispatched | truncated => exact ⟨rfl, rfl, rfl, nofun⟩
  | pumped hphase hpumped =>
      obtain ⟨_, _, _, _, _, rfl⟩ := pumped_fields hpumped
      exact ⟨rfl, rfl, rfl, id⟩
  | @tunnelled w c asked =>
      obtain ⟨out, hout⟩ := tunnelled_fields env w c asked
      rw [hout]
      exact ⟨rfl, rfl, rfl, nofun⟩
  | @headRelayed w c framing =>
      obtain ⟨out, hout⟩ := relayHead_fields env w c framing
      rw [hout]
      exact ⟨rfl, rfl, rfl, nofun⟩
  | @shuttled w c =>
      obtain ⟨tls, phase, hasty, hfields, hphase, -⟩ := shuttled_fields ans c
      rw [hfields]
      refine ⟨rfl, rfl, rfl, fun hhead => ?_⟩
      rcases hphase with hsame | hclosing
      · exact hsame ▸ hhead
      · rw [hclosing] at hhead
        cases hhead
  | _ => exact ⟨rfl, rfl, rfl, id⟩

theorem hands_unmoved (h : Hands env ans calm p q) : Unmoved p.2 q.2 := by
  induction h with
  | refl => exact .refl _
  | tail _ hstep ih => exact ih.trans (progress_unmoved hstep)

theorem flushedDown_unmoved (ans : Answers) (fd : Fd) (c : Conn) :
    Unmoved c (flushedDown ans fd c) := by
  obtain ⟨tls, outbox, given, hsealed, -⟩ := sealed_fields ans.rustls c
  obtain ⟨tls', outbox', hunloaded, -⟩ := unloaded_fields
    { c with tls := tls, outbox := outbox, book := { c.book with given := given } }
  unfold flushedDown
  rw [hsealed]
  dsimp only
  rw [hunloaded]
  split
  · split
    · exact ⟨rfl, rfl, rfl, id⟩
    · exact ⟨rfl, rfl, rfl, nofun⟩
  · exact ⟨rfl, rfl, rfl, id⟩

theorem flushedUp_unmoved (ans : Answers) (c : Conn) : Unmoved c (flushedUp ans c) := by
  unfold flushedUp
  split
  · exact .refl c
  · split
    · split
      · exact ⟨rfl, rfl, rfl, id⟩
      · exact ⟨rfl, rfl, rfl, nofun⟩
    · exact .refl c

theorem watchedUp_unmoved (ans : Answers) (c : Conn) : Unmoved c (watchedUp ans c) := by
  unfold watchedUp
  split
  · exact .refl c
  · split
    · exact ⟨rfl, rfl, rfl, id⟩
    · exact .refl c

theorem watchedDown_unmoved (ans : Answers) (fd : Fd) (c : Conn) :
    Unmoved c (watchedDown ans fd c) := by
  unfold watchedDown
  split
  · exact ⟨rfl, rfl, rfl, id⟩
  · exact .refl c

theorem refusedWith_free (env : Outside) (c : Conn) (status : Nat) (body : Bytes) (close : Bool)
    (unsupported : Option Bytes) :
    (refusedWith env c status body close unsupported).upstream = none ∧
      (refusedWith env c status body close unsupported).inflightHeld = false := by
  unfold refusedWith answeredSelf
  dsimp only
  split <;> split <;> exact ⟨rfl, rfl⟩

theorem ended_free (c : Conn) :
    (letLoose c).ended.upstream = none ∧ (letLoose c).ended.inflightHeld = false := by
  unfold Conn.ended
  dsimp only
  split <;> exact ⟨rfl, rfl⟩

/-- A connection that holds its endpoint's counter after a hold, whatever else was written. -/
theorem holdInflight_held (w : World) (c : Conn) {handle : Nat}
    (hhandle : heldCounter c = some handle) : (holdInflight w c).2.inflightHeld = true := by
  unfold holdInflight
  split
  · assumption
  · rw [hhandle]

variable (ans) in
theorem launched_holding (addr : SocketAddr) (w : World) (h : Aimed c) :
    Holding (launched ans addr w c) := by
  have hhold : ∀ handle, heldCounter c = some handle →
      (holdInflight w
        { c with dispatchedAt := some w.clock
                 deadline := some (w.clock + w.config.responseTimeout) }).2.inflightHeld = true :=
    fun handle hhandle => holdInflight_held w _ hhandle
  obtain ⟨flag, hflag⟩ := holdInflight_fields w
    { c with dispatchedAt := some w.clock, deadline := some (w.clock + w.config.responseTimeout) }
  rw [hflag] at hhold
  have hphase := h.phase
  unfold launched
  rw [hflag]
  dsimp only
  split
  · exact ⟨fun _ handle hhandle => hhold handle hhandle, nofun⟩
  · split
    · exact ⟨fun hup => absurd h.upstream hup, fun hhead => absurd (hphase.symm.trans hhead) nofun⟩
    · split
      · exact ⟨fun _ handle hhandle => hhold handle hhandle, nofun⟩
      · split
        · exact ⟨fun _ handle hhandle => hhold handle hhandle, nofun⟩
        · exact ⟨fun hup => absurd rfl hup, fun hhead => absurd (hphase.symm.trans hhead) nofun⟩

theorem alter_holding (h : Alter env ans calm fd w c c') (hc : Holding c) : Holding c' := by
  cases h with
  | progress h => exact hc.unmoved (progress_unmoved h)
  | refused =>
      obtain ⟨hup, hfree⟩ := refusedWith_free env c ‹_› ‹_› ‹_› ‹_›
      exact .of_free hup hfree
  | finished => exact .of_free (ended_free c).1 (ended_free c).2
  | flushedDown => exact hc.unmoved (flushedDown_unmoved ans fd c)
  | flushedUp => exact hc.unmoved (flushedUp_unmoved ans c)
  | watchedUp => exact hc.unmoved (watchedUp_unmoved ans c)
  | watchedDown => exact hc.unmoved (watchedDown_unmoved ans fd c)
  | @dispatched c matched framing first allowed target others hphase =>
      obtain ⟨_, _, _, hfields⟩ := dispatched_fields ans w c w.routes matched framing first
        (target :: others) target
      rw [hfields]
      obtain ⟨hfree, hup⟩ := hc.waiting hphase
      exact .of_free hup hfree
  | @launched c addr haimed => exact launched_holding ans addr w haimed
  | released hdue => exact .of_free hdue.upstream rfl
  | requeued hdue hheld =>
      unfold Conn.requeued
      split <;> exact .of_free hdue.upstream hheld
  | lost hown hphase => exact ⟨fun hup => absurd rfl hup, fun hhead => absurd hhead hphase⟩

theorem alters_holding (h : Alters env ans calm fd w c c') (hc : Holding c) : Holding c' := by
  induction h with
  | refl => exact hc
  | tail _ hstep ih =>
      obtain ⟨_, -, halter⟩ := hstep
      exact alter_holding halter ih

variable (env) (ans) in
/-- What is read off the client's socket writes to nothing of the exchange but its bytes. -/
theorem readClient_fields (w : World) (c : Conn) (outcome : Outcome) :
    ∃ peer phase tls handOff preface inbox outbox clientEof deadline book,
      readClient env ans w c outcome = { c with
        peer := peer, phase := phase, tls := tls, handOff := handOff, preface := preface
        inbox := inbox, outbox := outbox, clientEof := clientEof, deadline := deadline
        book := book } := by
  have hgreet : ∀ config (c : Conn) session offer,
      ∃ tls handOff phase inbox book, greet ans config c session offer = { c with
        tls := tls, handOff := handOff, phase := phase, inbox := inbox, book := book } := by
    intro config c session offer
    unfold greet
    dsimp only
    repeat' split
    all_goals exact ⟨_, _, _, _, _, rfl⟩
  have hunwrap : ∀ config (c : Conn) bytes,
      ∃ tls handOff phase inbox book, unwrap ans config c bytes = { c with
        tls := tls, handOff := handOff, phase := phase, inbox := inbox, book := book } := by
    intro config c bytes
    unfold unwrap
    dsimp only
    split
    · exact ⟨_, _, _, _, _, rfl⟩
    · split
      · exact ⟨_, _, _, _, _, rfl⟩
      · obtain ⟨_, _, _, _, _, hgreeted⟩ := hgreet config _ _ _
        rw [hgreeted]
        exact ⟨_, _, _, _, _, rfl⟩
      · exact ⟨_, _, _, _, _, rfl⟩
  have hingest : ∀ (c : Conn) bytes,
      ∃ peer phase tls handOff preface inbox outbox clientEof deadline book,
        ingest env ans w c bytes = { c with
          peer := peer, phase := phase, tls := tls, handOff := handOff, preface := preface
          inbox := inbox, outbox := outbox, clientEof := clientEof, deadline := deadline
          book := book } := by
    intro c bytes
    unfold ingest
    split
    · obtain ⟨_, _, _, _, _, hunwrapped⟩ := hunwrap w.config c bytes
      rw [hunwrapped]
      exact ⟨_, _, _, _, _, _, _, _, _, _, rfl⟩
    · dsimp only
      split
      · exact ⟨_, _, _, _, _, _, _, _, _, _, rfl⟩
      · exact ⟨_, _, _, _, _, _, _, _, _, _, rfl⟩
      · obtain ⟨_, _, _, _, _, hunwrapped⟩ := hunwrap w.config _ _
        rw [hunwrapped]
        exact ⟨_, _, _, _, _, _, _, _, _, _, rfl⟩
  unfold readClient
  split
  · dsimp only
    split <;> exact ⟨_, _, _, _, _, _, _, _, _, _, rfl⟩
  · rename_i bytes _
    obtain ⟨_, _, _, _, _, _, _, _, _, _, hingested⟩ :=
      hingest { c with book := c.book.hearClient w.clock } bytes
    dsimp only
    rw [hingested]
    split <;> exact ⟨_, _, _, _, _, _, _, _, _, _, rfl⟩
  · exact ⟨_, _, _, _, _, _, _, _, _, _, rfl⟩

theorem readClient_unmoved (w : World) (c : Conn) (outcome : Outcome) :
    Unmoved c (readClient env ans w c outcome) := by
  have hphase := (readClient_taken env ans w c outcome).phase
  obtain ⟨_, _, _, _, _, _, _, _, _, _, hfields⟩ := readClient_fields env ans w c outcome
  rw [hfields] at hphase ⊢
  refine ⟨rfl, rfl, rfl, fun hhead => ?_⟩
  rcases hphase with hsame | hclosing
  · exact hsame ▸ hhead
  · exact absurd (hclosing.symm.trans hhead) nofun

theorem wroteClient_unmoved (c : Conn) (outcome : Outcome) :
    Unmoved c (wroteClient c outcome) := by
  unfold wroteClient
  split
  · exact ⟨rfl, rfl, rfl, id⟩
  · exact ⟨rfl, rfl, rfl, nofun⟩

theorem spared_unmoved (c : Conn) : Unmoved c (spared c) := by
  refine ⟨rfl, rfl, rfl, fun hhead => ?_⟩
  unfold spared at hhead
  dsimp only at hhead
  split at hhead
  · cases hhead
  · exact hhead

theorem wroteUp_unmoved (c : Conn) (payload : Bytes) (outcome : Outcome) :
    Unmoved c
      (if outcome = .wrote then delivered c payload else { c with upWriting := false }) := by
  split <;> exact ⟨rfl, rfl, rfl, id⟩

theorem change_holding (h : Change env calm fd w c c') (hc : Holding c) : Holding c' := by
  cases h with
  | moved h => exact alters_holding h hc
  | @readDown op c ans outcome =>
      have hquiet : Unmoved c { c with reading := false } := ⟨rfl, rfl, rfl, id⟩
      exact hc.unmoved (hquiet.trans (readClient_unmoved _ _ outcome))
  | wroteDown outcome => exact hc.unmoved (wroteClient_unmoved c outcome)
  | readUp => exact hc.unmoved ⟨rfl, rfl, rfl, id⟩
  | wroteUp outcome => exact hc.unmoved (wroteUp_unmoved c _ outcome)
  | connected => exact hc.unmoved ⟨rfl, rfl, rfl, nofun⟩
  | missed hattached =>
      refine ⟨fun hup => absurd rfl hup, fun hhead => ?_⟩
      rw [(hc.waiting hhead).2] at hattached
      cases hattached
  | spared => exact hc.unmoved (spared_unmoved c)

theorem newClient_holding (ans : Answers) (w : World) (tls : Bool) :
    Holding (newClient ans w tls) := by
  unfold newClient
  dsimp only
  split <;> exact .of_free rfl rfl

/-- Every connection of a core holds what it should. -/
def AllHolding (w : World) : Prop := ∀ fd c, w.slots fd = .client c → Holding c

theorem event_holding {s : Bool} (h : Kept s w) (hevent : Event env calm s w w')
    (hall : AllHolding w) : AllHolding w' := by
  intro fd c' hslot'
  rcases event_changes h hevent fd c' hslot' with
    hsame | ⟨c, hslot, hchange⟩ | ⟨ans, tls, -, -, rfl⟩
  · exact hall fd c' hsame
  · exact change_holding hchange (hall fd c hslot)
  · exact newClient_holding ans w tls

end Connections

section Counts

variable {env : Outside} {ans : Answers} {calm : Bool} {w w' : World} {fd : Fd} {c c' d : Conn}
  {handle : Nat}

theorem modEq_pred (n : Nat) : (n + (U32_SIZE - 1)) % U32_SIZE + 1 ≡ n [MOD U32_SIZE] := by
  have hback : (n + (U32_SIZE - 1)) % U32_SIZE + 1 ≡ n + (U32_SIZE - 1) + 1 [MOD U32_SIZE] :=
    (Nat.mod_modEq _ _).add_right 1
  have hround : n + (U32_SIZE - 1) + 1 = n + U32_SIZE := by
    unfold U32_SIZE
    omega
  rw [hround] at hback
  exact hback.trans (Nat.add_modEq_right ..)

/-- A release takes off the counter what the connection counts on it. -/
theorem release_counts (w : World) (c : Conn) (handle : Nat) :
    (releaseInflight w c).1.inflight handle + holds c handle ≡ w.inflight handle
      [MOD U32_SIZE] := by
  unfold releaseInflight
  dsimp only
  cases hflag : c.inflightHeld with
  | false =>
      rw [if_neg Bool.false_ne_true, holds_unheld hflag]
      rfl
  | true =>
      rw [if_pos rfl]
      have hsame : heldCounter { c with inflightHeld := false } = heldCounter c := rfl
      rw [hsame]
      cases hcounter : heldCounter c with
      | none =>
          have hnone : holds c handle = 0 := if_neg fun h => by
            rw [hcounter] at h
            cases h.2
          rw [hnone]
          rfl
      | some counter =>
          dsimp only
          by_cases hhandle : handle = counter
          · subst hhandle
            have hone : holds c handle = 1 := if_pos ⟨hflag, hcounter⟩
            rw [Function.update_self, hone]
            exact modEq_pred _
          · have hnone : holds c handle = 0 := if_neg fun h => by
              rw [hcounter] at h
              exact hhandle (Option.some.inj h.2).symm
            rw [Function.update_of_ne hhandle, hnone]
            rfl

/-- A hold puts on the counter what the connection counts on it from then on. -/
theorem hold_counts (w : World) (c : Conn) (handle : Nat) :
    (holdInflight w c).1.inflight handle + holds c handle ≡
      w.inflight handle + holds (holdInflight w c).2 handle [MOD U32_SIZE] := by
  unfold holdInflight
  cases hflag : c.inflightHeld with
  | true =>
      rw [if_pos rfl]
  | false =>
      rw [if_neg Bool.false_ne_true, holds_unheld hflag]
      cases hcounter : heldCounter c with
      | none =>
          dsimp only
          rw [holds_unheld hflag]
      | some counter =>
          dsimp only
          have hsame : heldCounter { c with inflightHeld := true } = some counter := hcounter
          by_cases hhandle : handle = counter
          · subst hhandle
            have hone : holds { c with inflightHeld := true } handle = 1 := if_pos ⟨rfl, hsame⟩
            rw [Function.update_self, hone, Nat.add_zero]
            exact Nat.mod_modEq _ _
          · have hnone : holds { c with inflightHeld := true } handle = 0 := if_neg fun h => by
              rw [hsame] at h
              exact hhandle (Option.some.inj h.2).symm
            rw [Function.update_of_ne hhandle, hnone]

theorem quiet_inflight (h : Quiet w w') : w'.inflight = w.inflight := by
  obtain ⟨_, _, _, _, _, _, rfl, -⟩ := h
  rfl

theorem close_inflight (w : World) (ans : Answers) (f : Fd) :
    (w.close ans f).inflight = w.inflight := by
  have hcounted : (w.countOff f).inflight = w.inflight := by
    unfold World.countOff
    split <;> rfl
  have hvacated : ((w.countOff f).vacate f).inflight = w.inflight := hcounted
  unfold World.close
  dsimp only
  split
  · exact hvacated
  · exact hvacated

theorem closeAll_inflight (ans : Answers) (fds : List Fd) (w : World) :
    (World.closeAll ans w fds).inflight = w.inflight := by
  induction fds generalizing w with
  | nil => rfl
  | cons f rest ih => exact (ih (w.close ans f)).trans (close_inflight w ans f)

theorem letGo_inflight (ans : Answers) (w : World) (c : Conn) :
    (letGo ans w c).inflight = w.inflight := by
  unfold letGo
  split
  · rfl
  · split
    · rfl
    · exact close_inflight ..

theorem lose_inflight (ans : Answers) (w : World) (c : Conn) :
    (lose ans w c).inflight = w.inflight := by
  unfold lose
  split
  · rfl
  · exact close_inflight ..

theorem fail_inflight (hslot : w.slots fd = .client c) (status : Nat) (body : Bytes) (close : Bool)
    (unsupported : Option Bytes) :
    (failUnsupported env ans w fd status body close unsupported).inflight =
      (releaseInflight w c).1.inflight := by
  unfold failUnsupported
  simp only [hslot]
  exact (quiet_inflight (Frames.Quiet.refuse _ _ _ _ _)).trans (letGo_inflight ..)

theorem releaseUpstream_inflight (ans : Answers) (w : World) (c : Conn) (up : Fd) :
    (releaseUpstream ans w c up).inflight = w.inflight := by
  unfold releaseUpstream
  dsimp only
  split
  · split
    · split
      · rfl
      · split
        · rfl
        · exact close_inflight ..
    · exact close_inflight ..
  · exact close_inflight ..

theorem finish_inflight (hslot : w.slots fd = .client c) :
    (finishResponse ans w fd).inflight = (releaseInflight w c).1.inflight := by
  have hnoted : (releaseInflight (w.remember (.finished c)) c).1.inflight =
      (releaseInflight w c).1.inflight := by
    unfold releaseInflight
    split
    · dsimp only
      split <;> rfl
    · rfl
  unfold finishResponse
  simp only [hslot]
  cases c.upstream with
  | none => exact hnoted
  | some up => exact (releaseUpstream_inflight ..).trans hnoted

theorem openUpstream_inflight (hslot : w.slots fd = .client c) {addr : SocketAddr}
    (haddr : c.targets[c.attempt]? = some addr) :
    (openUpstream env ans w fd).1.inflight =
      (holdInflight w
        { c with dispatchedAt := some w.clock
                 deadline := some (w.clock + w.config.responseTimeout) }).1.inflight := by
  unfold openUpstream
  simp only [hslot, haddr]
  split
  · rfl
  · split
    · rfl
    · split
      · rfl
      · split <;> rfl

theorem launched_holds (ans : Answers) (addr : SocketAddr) (w : World) (c : Conn) (handle : Nat) :
    holds (launched ans addr w c) handle =
      holds (holdInflight w
        { c with dispatchedAt := some w.clock
                 deadline := some (w.clock + w.config.responseTimeout) }).2 handle := by
  obtain ⟨flag, hflag⟩ := holdInflight_fields w
    { c with dispatchedAt := some w.clock, deadline := some (w.clock + w.config.responseTimeout) }
  unfold launched
  rw [hflag]
  dsimp only
  repeat' split
  all_goals rfl

variable (env) (ans) in
/-- Giving a connection an upstream counts on its endpoint what the connection counts after it. -/
theorem openUpstream_counts (hslot : w.slots fd = .client c) {addr : SocketAddr}
    (haddr : c.targets[c.attempt]? = some addr) (handle : Nat) :
    (openUpstream env ans w fd).1.inflight handle + holds c handle ≡
      w.inflight handle + holds (launched ans addr w c) handle [MOD U32_SIZE] := by
  rw [openUpstream_inflight hslot haddr, launched_holds]
  exact hold_counts w _ handle

theorem flushDown_inflight (ans : Answers) (w : World) (fd : Fd) :
    (flushDown ans w fd).inflight = w.inflight := by
  unfold flushDown
  split
  · dsimp only
    split
    · split <;> rfl
    · rfl
  · rfl

theorem flushUp_inflight (ans : Answers) (w : World) (fd : Fd) :
    (flushUp ans w fd).inflight = w.inflight := by
  unfold flushUp
  split
  · split
    · rfl
    · dsimp only
      split
      · split <;> rfl
      · rfl
  · rfl

theorem readUp_inflight (ans : Answers) (w : World) (fd : Fd) :
    (readUp ans w fd).inflight = w.inflight := by
  unfold readUp
  split
  · split
    · rfl
    · split <;> rfl
  · rfl

theorem readDown_inflight (ans : Answers) (w : World) (fd : Fd) :
    (readDown ans w fd).inflight = w.inflight := by
  unfold readDown
  split
  · split <;> rfl
  · rfl

theorem settle_inflight (ans : Answers) (w : World) (fd : Fd) :
    (settle ans w fd).inflight = w.inflight := by
  unfold settle
  split
  · split
    · exact (close_inflight ..).trans (letGo_inflight ..)
    · rfl
  · rfl

theorem handOff_inflight (w : World) (fd : Fd) : (handOff w fd).1.inflight = w.inflight := by
  unfold handOff
  split
  · split <;> rfl
  · rfl

/-- A connection that stays on its descriptor counts more or less by what a move adds to a
counter or takes off it. -/
theorem move_counts {s : Bool} (h : Kept s w) (hmove : Move env ans calm fd w w')
    (hslot : w.slots fd = .client c) (hslot' : w'.slots fd = .client c') (hc : Holding c)
    (handle : Nat) :
    w'.inflight handle + holds c handle ≡ w.inflight handle + holds c' handle [MOD U32_SIZE] := by
  have hsame : w'.inflight = w.inflight → (holds c' handle = holds c handle) →
      w'.inflight handle + holds c handle ≡ w.inflight handle + holds c' handle
        [MOD U32_SIZE] := by
    intro hinflight hholds
    rw [hinflight, hholds]
  have hfreed : w'.inflight = (releaseInflight w c).1.inflight → c'.inflightHeld = false →
      w'.inflight handle + holds c handle ≡ w.inflight handle + holds c' handle
        [MOD U32_SIZE] := by
    intro hinflight hfree
    rw [hinflight, holds_unheld hfree]
    exact release_counts w c handle
  have hmine : ∀ {d : Conn}, w'.slots fd = .client d → c' = d := by
    intro d hd
    rw [hslot', Slot.client.injEq] at hd
    exact hd
  have hgone : w'.slots fd ≠ .empty := by
    rw [hslot']
    nofun
  cases hmove with
  | @put w₁ d d' hslotd hands =>
      rw [hslot, Slot.client.injEq] at hslotd
      subst hslotd
      have hquiet : w₁.inflight = w.inflight := quiet_inflight (hands_quiet hands)
      refine hsame hquiet ?_
      rw [hmine (setClient_slot ..)]
      exact (hands_unmoved hands).holds handle
  | @fail d hslotd hfailing status body close unsupported =>
      rw [hmine (fail_slot hslot ..)] at hfreed ⊢
      exact hfreed (fail_inflight hslot ..) (refusedWith_free ..).2
  | rejected | failed =>
      refine hsame rfl ?_
      rw [hmine hslot]
  | finish =>
      rw [hmine (finish_slot hslot)] at hfreed ⊢
      exact hfreed (finish_inflight hslot) (ended_free c).2
  | handOff hslotd hgiven hdispatch =>
      rw [hslot, Slot.client.injEq] at hslotd
      subst hslotd
      exact absurd (vacated_handOff hslot hgiven hdispatch).empty hgone
  | preface hslotd hphase hpreface hdispatch =>
      exact absurd (vacated_handOff (setClient_slot ..) rfl hdispatch).empty hgone
  | flushDown =>
      refine hsame (flushDown_inflight ..) ?_
      rw [hmine (flushDown_slot hslot)]
      exact (flushedDown_unmoved ans fd c).holds handle
  | flushUp =>
      refine hsame (flushUp_inflight ..) ?_
      rw [hmine (flushUp_slot hslot)]
      exact (flushedUp_unmoved ans c).holds handle
  | readUp =>
      refine hsame (readUp_inflight ..) ?_
      rw [hmine (readUp_slot hslot)]
      exact (watchedUp_unmoved ans c).holds handle
  | readDown =>
      refine hsame (readDown_inflight ..) ?_
      rw [hmine (readDown_slot hslot)]
      exact (watchedDown_unmoved ans fd c).holds handle
  | settle =>
      refine hsame (settle_inflight ..) ?_
      unfold settle at hslot'
      simp only [hslot] at hslot'
      split at hslot'
      · rw [(vacated_close (setClient_slot ..) ans).empty] at hslot'
        cases hslot'
      · rw [hslot, Slot.client.injEq] at hslot'
        rw [hslot']
  | @dispatched w₁ d c₁ matched framing first allowed target others hslotd hands hphase hread hbody
      hallowed htargets =>
      rw [hslot, Slot.client.injEq] at hslotd
      subst hslotd
      have hfresh := Turns.Fresh.of_shape (hands_steady hands (h.steady fd c hslot)).shape hphase
      obtain ⟨-, haddr⟩ := Turns.dispatched_aimed ans w₁ hfresh w₁.routes matched framing first
        target others
      have hfree : c₁.inflightHeld = false :=
        (hc.unmoved (hands_unmoved hands)).waiting hphase |>.1
      have hfields := dispatched_fields ans w₁ c₁ w₁.routes matched framing first
        (target :: others) target
      have hfree' : (dispatched ans w₁ c₁ w₁.routes matched framing first (target :: others)
          target).2.inflightHeld = false := by
        obtain ⟨_, _, _, hfields⟩ := hfields
        rw [hfields]
        exact hfree
      have hquiet := (hands_quiet hands).trans (Quiet.dispatched ans w₁ c₁ w₁.routes matched framing
        first (target :: others) target)
      have hcounts := fun w₂ : World =>
        openUpstream_counts env ans (setClient_slot w₂ fd _) haddr handle
      have hcounts := hcounts (dispatched ans w₁ c₁ w₁.routes matched framing first
        (target :: others) target).1
      rw [holds_unheld hfree'] at hcounts
      rw [hmine (launched_slot (setClient_slot ..) haddr)]
      have hnone : holds c handle = 0 := by
        rw [← (hands_unmoved hands).holds handle]
        exact holds_unheld hfree handle
      rw [hnone]
      have hinflight : (dispatched ans w₁ c₁ w₁.routes matched framing first (target :: others)
          target).1.inflight = w.inflight := quiet_inflight hquiet
      rw [← hinflight]
      exact hcounts
  | released hslotd hdue =>
      rw [hslot, Slot.client.injEq] at hslotd
      subst hslotd
      rw [hmine (setClient_slot ..)] at hfreed ⊢
      refine hfreed rfl ?_
      rw [released_fields]
  | @requeued d addr hslotd hdue hheld hleft haddr =>
      rw [hslot, Slot.client.injEq] at hslotd
      subst hslotd
      have hfree : c.requeued.inflightHeld = false := by
        unfold Conn.requeued
        split <;> exact hheld
      have hcounts := openUpstream_counts env ans (setClient_slot w fd c.requeued) haddr handle
      rw [holds_unheld hfree] at hcounts
      rw [hmine (launched_slot (setClient_slot ..) haddr), holds_unheld hheld]
      exact hcounts
  | lost hslotd =>
      rw [hslot, Slot.client.injEq] at hslotd
      subst hslotd
      rw [hmine (setClient_slot ..)] at hsame ⊢
      exact hsame (lose_inflight ..) rfl
  | idled =>
      refine absurd ?_ hgone
      rw [close_slots, Function.update_self]
  | gone hempty =>
      rw [hslot] at hempty
      cases hempty

/-- A move that no connection is there for, or whose connection leaves, writes to no counter. -/
theorem move_inflight (hmove : Move env ans calm fd w w')
    (hgone : (∀ c, w.slots fd ≠ .client c) ∨ w'.slots fd = .empty) :
    w'.inflight = w.inflight := by
  have hno : ∀ {c d : Conn}, w.slots fd = .client c → w'.slots fd = .client d → False := by
    intro c d hslot hslot'
    rcases hgone with hnone | hempty
    · exact hnone c hslot
    · rw [hslot'] at hempty
      cases hempty
  cases hmove with
  | @put w₁ c c' hslot hands =>
      have hquiet : w₁.inflight = w.inflight := quiet_inflight (hands_quiet hands)
      exact hquiet
  | fail hslot => exact (hno hslot (fail_slot hslot ..)).elim
  | rejected | failed => rfl
  | finish hslot => exact (hno hslot (finish_slot hslot)).elim
  | handOff => exact handOff_inflight ..
  | preface => exact handOff_inflight ..
  | flushDown => exact flushDown_inflight ..
  | flushUp => exact flushUp_inflight ..
  | readUp => exact readUp_inflight ..
  | readDown => exact readDown_inflight ..
  | settle => exact settle_inflight ..
  | @dispatched w₁ c c₁ matched framing first allowed target others hslot hands hphase hread hbody
      hallowed htargets =>
      have hslot' : ∃ d, (openUpstream env ans
          ((dispatched ans w₁ c₁ w₁.routes matched framing first (target :: others)
            target).1.setClient fd
            (dispatched ans w₁ c₁ w₁.routes matched framing first (target :: others) target).2)
          fd).1.slots fd = .client d := by
        obtain ⟨_, _, _, hfields⟩ := dispatched_fields ans w₁ c₁ w₁.routes matched framing first
          (target :: others) target
        have haddr : (dispatched ans w₁ c₁ w₁.routes matched framing first (target :: others)
            target).2.targets[(dispatched ans w₁ c₁ w₁.routes matched framing first
              (target :: others) target).2.attempt]? = some target := by
          rw [hfields]
          rfl
        exact ⟨_, launched_slot (setClient_slot ..) haddr⟩
      obtain ⟨d, hd⟩ := hslot'
      exact (hno hslot hd).elim
  | released hslot => exact (hno hslot (setClient_slot ..)).elim
  | requeued hslot _ _ _ haddr => exact (hno hslot (launched_slot (setClient_slot ..) haddr)).elim
  | lost => exact lose_inflight ..
  | idled => exact close_inflight ..
  | gone => rfl

end Counts

section Balances

variable {env : Outside} {calm s : Bool} {base : Nat → Nat} {w w' w₁ : World} {fd : Fd}
  {c c' d : Conn}

theorem bare_holding {slot : Slot} (h : Bare slot) (handle : Nat) : holding handle slot = 0 := by
  cases slot with
  | client => exact h.elim
  | _ => rfl

theorem not_client_holding {slot : Slot} (h : ∀ c, slot ≠ .client c) (handle : Nat) :
    holding handle slot = 0 := by
  cases slot with
  | client c => exact absurd rfl (h c)
  | _ => rfl

/-- Around a descriptor on which a connection counts as before, the balance is kept where the
counter moves with the connection. -/
theorem Balanced.around (hb : Balanced base w) (fd : Fd)
    (hslots : ∀ x, x ≠ fd → w'.slots x = w.slots x ∨ (Bare (w.slots x) ∧ Bare (w'.slots x)))
    (hcount : ∀ handle,
      w'.inflight handle + holding handle (w.slots fd) + leaked w handle ≡
        w.inflight handle + holding handle (w'.slots fd) + leaked w' handle [MOD U32_SIZE]) :
    Balanced base w' := by
  intro handle
  have htotal : held w' handle + holding handle (w.slots fd) =
      held w handle + holding handle (w'.slots fd) := by
    refine total_replace (f := fun x => holding handle (w.slots x))
      (g := fun x => holding handle (w'.slots x)) fd fun x hx => ?_
    rcases hslots x hx with hsame | ⟨hbare, hbare'⟩
    · rw [hsame]
    · rw [bare_holding hbare, bare_holding hbare']
  have hbefore := ((hb handle).add_right (holding handle (w'.slots fd) + leaked w' handle))
  have hsum : w.inflight handle + (holding handle (w'.slots fd) + leaked w' handle) =
      w.inflight handle + holding handle (w'.slots fd) + leaked w' handle := (Nat.add_assoc ..).symm
  rw [hsum] at hbefore
  have hafter : w'.inflight handle + (holding handle (w.slots fd) + leaked w handle) ≡
      base handle + held w' handle + leaked w' handle +
          (holding handle (w.slots fd) + leaked w handle) [MOD U32_SIZE] := by
    have hright : base handle + held w handle + leaked w handle +
        (holding handle (w'.slots fd) + leaked w' handle) =
        base handle + held w' handle + leaked w' handle +
          (holding handle (w.slots fd) + leaked w handle) := by
      omega
    rw [← hright, ← Nat.add_assoc]
    exact (hcount handle).trans hbefore
  exact Nat.ModEq.add_right_cancel' _ hafter

theorem leaked_same (harchive : w'.archive = w.archive) (handle : Nat) :
    leaked w' handle = leaked w handle := by
  unfold leaked
  rw [harchive]

theorem leaked_left (harchive : w'.archive = w.archive ++ [d]) (handle : Nat) :
    leaked w' handle = leaked w handle + holds d handle := by
  unfold leaked
  rw [harchive, List.map_append, List.sum_append, List.map_singleton, List.sum_singleton]

/-- A connection was written to in its slot, and counts what it did. -/
theorem Balanced.put (hb : Balanced base w) (w₁ : World) (hslots : w₁.slots = w.slots)
    (harchive : w₁.archive = w.archive) (hinflight : w₁.inflight = w.inflight)
    (hslot : w.slots fd = .client c) (hholds : ∀ handle, holds c' handle = holds c handle) :
    Balanced base (w₁.setClient fd c') := by
  refine hb.around fd (fun x hx => .inl ?_) fun handle => ?_
  · rw [setClient_slots, Function.update_of_ne hx, hslots]
  · have hleaked : leaked (w₁.setClient fd c') handle = leaked w handle :=
      leaked_same harchive handle
    have hcounter : (w₁.setClient fd c').inflight handle = w.inflight handle :=
      congrFun hinflight handle
    rw [hleaked, hcounter, hslot, setClient_slot]
    show w.inflight handle + holds c handle + _ ≡ w.inflight handle + holds c' handle + _ [MOD _]
    rw [hholds handle]

theorem Balanced.departed (hb : Balanced base w) (hslot : w.slots fd = .client c)
    (hvacated : Vacated fd w w' d) (hholds : ∀ handle, holds d handle = holds c handle)
    (hinflight : w'.inflight = w.inflight) : Balanced base w' := by
  refine hb.around fd hvacated.slots fun handle => ?_
  rw [leaked_left hvacated.archive, hslot, hvacated.empty, hinflight]
  show w.inflight handle + holds c handle + _ ≡ w.inflight handle + 0 + (_ + holds d handle) [MOD _]
  rw [hholds handle]
  have hsum : w.inflight handle + holds c handle + leaked w handle =
      w.inflight handle + 0 + (leaked w handle + holds c handle) := by omega
  rw [hsum]

theorem departs_holds {ans : Answers} (h : Departs ans fd w c d) (handle : Nat) :
    holds d handle = holds c handle := by
  cases h <;> rfl

theorem move_balanced {ans : Answers} (h : Kept s w) (hmove : Move env ans calm fd w w')
    (hall : AllHolding w) (hb : Balanced base w) : Balanced base w' := by
  cases move_turned h hmove with
  | @altered c c' hslot hslot' halters haround =>
      refine hb.around fd haround.slots fun handle => ?_
      rw [leaked_same haround.archive, hslot, hslot']
      exact (move_counts h hmove hslot hslot' (hall fd c hslot) handle).add_right _
  | @departed c d hslot hdeparts hvacated =>
      exact hb.departed hslot hvacated (departs_holds hdeparts)
        (move_inflight hmove (.inr hvacated.empty))
  | untouched hsame haround =>
      refine hb.around fd haround.slots fun handle => ?_
      rw [leaked_same haround.archive, hsame]
      refine Nat.ModEq.add_right _ ?_
      by_cases hclient : ∃ c, w.slots fd = .client c
      · obtain ⟨c, hslot⟩ := hclient
        rw [hslot]
        exact move_counts h hmove hslot (hsame.trans hslot) (hall fd c hslot) handle
      · rw [move_inflight hmove (.inl fun c hc => hclient ⟨c, hc⟩)]

/-- What happens beside the connections writes to no in-flight counter. -/
theorem aside_inflight (h : Aside w w') : w'.inflight = w.inflight := by
  cases h with
  | lapsed | adminLeft | adminHungUp | adminClosed => exact close_inflight ..
  | flushed | unlistened => exact closeAll_inflight ..
  | _ => rfl

theorem aside_balanced (h : Aside w w') (hb : Balanced base w) : Balanced base w' := by
  have hapart := aside_apart h
  intro handle
  have hheld : held w' handle = held w handle := by
    refine total_congr fun x => ?_
    by_cases hclient : ∃ c, w.slots x = .client c
    · obtain ⟨c, hslot⟩ := hclient
      rw [hslot, (hapart.clients x c).mpr hslot]
    · rw [not_client_holding fun c hc => hclient ⟨c, hc⟩,
        not_client_holding fun c hc => hclient ⟨c, (hapart.clients x c).mp hc⟩]
  rw [aside_inflight h, hheld, leaked_same hapart.archive]
  exact hb handle

/-- Whatever happens to a core, its in-flight counters stay balanced. -/
theorem event_balanced (h : Kept s w) (hevent : Event env calm s w w') (hall : AllHolding w)
    (hb : Balanced base w) : Balanced base w' := by
  cases hevent with
  | moved hmove => exact move_balanced h hmove hall hb
  | @readDown op c ans outcome hop hslot =>
      refine hb.put (w.retire op outcome) rfl rfl rfl hslot fun handle => ?_
      exact (readClient_unmoved _ { c with reading := false } outcome).holds handle
  | @wroteDown op c outcome hop hslot =>
      exact hb.put (w.retire op outcome) rfl rfl rfl hslot (wroteClient_unmoved c outcome).holds
  | @readUp op down c outcome hop hup hslot =>
      exact hb.put (w.retire op outcome) rfl rfl rfl hslot fun _ => rfl
  | @wroteUp op down c outcome hop hup hslot =>
      exact hb.put (w.retire op outcome) rfl rfl rfl hslot
        (wroteUp_unmoved c op.payload outcome).holds
  | @connected up down c hmem hup hslot =>
      exact hb.put { w with borrowed := w.borrowed.erase up } rfl rfl rfl hslot fun _ => rfl
  | @missed up down c hmem hup hslot =>
      have hne : up ≠ down := by
        rintro rfl
        rw [hup] at hslot
        cases hslot
      refine hb.around down (fun x hx => ?_) fun handle => ?_
      · rw [setClient_slots, Function.update_of_ne hx]
        show Function.update w.slots up .empty x = _ ∨
          _ ∧ Bare (Function.update w.slots up .empty x)
        by_cases hxu : x = up
        · subst hxu
          rw [Function.update_self, hup]
          exact .inr ⟨trivial, trivial⟩
        · rw [Function.update_of_ne hxu]
          exact .inl rfl
      · rw [setClient_slot, hslot]
        rfl
  | @started fd ans tls hfree hserving hslot =>
      refine hb.around fd (fun x hx => .inl ?_) fun handle => ?_
      · rw [setClient_slots, Function.update_of_ne hx]
        rfl
      · have hnone : holds (newClient ans w tls) handle = 0 := by
          refine holds_unheld ?_ handle
          unfold newClient
          dsimp only
          split <;> rfl
        rw [setClient_slot, not_client_holding hslot]
        show _ ≡ w.inflight handle + holds (newClient ans w tls) handle + leaked w handle [MOD _]
        rw [hnone]
        rfl
  | @spared fd c hslot =>
      exact hb.put { w with drainInflight := w.drainInflight + 1 } rfl rfl rfl hslot
        (spared_unmoved c).holds
  | @cut fd c ans hweak hslot =>
      exact hb.departed hslot (vacated_close hslot ans) (fun _ => rfl) (close_inflight ..)
  | published | elapsed => exact hb
  | aside hbeside => exact aside_balanced hbeside hb

/-- Every connection with an upstream holds the counter of its endpoint, and the counters say how
many do. -/
structure Accounts (base : Nat → Nat) (m : Machine) : Prop where
  engaged : ∀ fd c, m.world.slots fd = .client c → c.upstream ≠ none →
    ∀ handle, heldCounter c = some handle → c.inflightHeld = true
  balanced : Balanced base m.world

variable {config : Config} {fixtures : Fixtures} {pool : Nat × Nat} {routes : Snapshot}
  {routeSlots : Nat → Ramjet.Router.Stats.RouteSlot}

theorem begun_balanced :
    Balanced base (initial config fixtures pool routes routeSlots base) := by
  intro handle
  have hheld : held (initial config fixtures pool routes routeSlots base) handle = 0 :=
    total_zero fun _ => rfl
  have hleaked : leaked (initial config fixtures pool routes routeSlots base) handle = 0 := rfl
  rw [hheld, hleaked]
  rfl

/-- From the moment it is given an upstream until it lets go of it, a connection holds its
endpoint's counter, in every state of every run. -/
theorem accounts_always {acts : List Act}
    (htime : Meets (step env) OnTime (begun config fixtures pool routes routeSlots base) acts) :
    Always (step env) (Accounts base) (begun config fixtures pool routes routeSlots base) acts := by
  have hkeeps : ∀ s w w', Kept s w → Event env false s w w' →
      (AllHolding w ∧ Balanced base w) → AllHolding w' ∧ Balanced base w' :=
    fun s w w' hkept hevent hgood =>
      ⟨event_holding hkept hevent hgood.1, event_balanced hkept hevent hgood.1 hgood.2⟩
  have hnobody : AllHolding (initial config fixtures pool routes routeSlots base) :=
    fun _ _ hc => by cases hc
  refine always_of_events hkeeps (fun m hm => ?_) ⟨hnobody, begun_balanced⟩ htime
  exact ⟨fun fd c hslot => (hm.1 fd c hslot).engaged, hm.2⟩

end Balances

end Ramjet.Engine.Worker.Inflight
