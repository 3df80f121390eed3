/- digest: What each function of a core makes of the connections, said once for every relation. -/

import Ramjet.Engine.Worker.Alterations

set_option autoImplicit false
set_option relaxedAutoImplicit false

namespace Ramjet.Engine.Worker.Effects

open Ramjet.Base.Octets
open Ramjet.Base.Net
open Ramjet.Engine.Codec.MessageHead
open Ramjet.Engine.Codec.BodyFraming
open Ramjet.Engine.IdlePool
open Ramjet.Engine.Limits
open Ramjet.Engine.Route
open Ramjet.Engine.Worker.Accounting
open Ramjet.Engine.Worker.Connection
open Ramjet.Engine.Worker.Core
open Ramjet.Engine.Worker.Serving
open Ramjet.Engine.Worker.Requests
open Ramjet.Engine.Worker.Handlers
open Ramjet.Engine.Worker.Loop
open Ramjet.Engine.Worker.Moves
open Ramjet.Engine.Worker.Frames
open Ramjet.Engine.Worker.Images
open Ramjet.Engine.Worker.Keeping
open Ramjet.Engine.Worker.Alterations

section Relations

/-- A relation that everything keeps that is done to a connection, short of beginning a request,
taking bytes of its body, answering it or trying an upstream for it. -/
structure Gentle (env : Outside) (R : Conn → Conn → Prop) : Prop where
  refl : ∀ c, R c c
  trans : ∀ {c c₁ c₂}, R c c₁ → R c₁ c₂ → R c c₂
  flushedDown : ∀ ans fd c, R c (flushedDown ans fd c)
  flushedUp : ∀ ans c, R c (flushedUp ans c)
  watchedUp : ∀ ans c, R c (watchedUp ans c)
  watchedDown : ∀ ans fd c, R c (watchedDown ans fd c)
  closing : ∀ c, R c { c with phase := .closing }
  cutOff : ∀ c, R c c.cutOff
  ended : ∀ c, R c (letLoose c).ended
  letLoose : ∀ c, R c (letLoose c)
  lost : ∀ c committed, R c { c with upstream := none, committed := committed }
  severed : ∀ c, R c { c with upstream := none, phase := .closing, book := c.book.sever }
  upParsed : ∀ c upHead, R c { c with upHead := upHead }
  tunnelled : ∀ w c asked, R c (tunnelled env w c asked).2
  relayHead : ∀ w c framing, R c (relayHead env w c framing).2
  relayed : ∀ c n done body, R c (relayed c n done body)
  closed : ∀ c, R c (closed c)
  shuttled : ∀ ans c, R c (shuttled ans c)
  upEnded : ∀ c, R c { c with upstreamEof := true, upReading := false }
  extended : ∀ c now span,
    R c { c with deadline := some (now + span), book := c.book.wind now span }
  readClient : ∀ ans w c outcome, R c (readClient env ans w { c with reading := false } outcome)
  wroteClient : ∀ c outcome, R c (wroteClient c outcome)
  hear : ∀ c bytes stamps, R c (hear c bytes stamps)
  delivered : ∀ c payload, R c (delivered c payload)
  undelivered : ∀ c, R c { c with upWriting := false }
  connected : ∀ c, R c (connected c)
  missed : ∀ c, R c { c with upBorrowed := false, upstream := none }
  spared : ∀ c, R c (spared c)

/-- And one that answering a request and trying an upstream for it keep as well. -/
structure Steadfast (env : Outside) (R : Conn → Conn → Prop) : Prop extends Gentle env R where
  refused : ∀ c status body close unsupported, R c (refusedWith env c status body close unsupported)
  launched : ∀ ans addr w c, R c (launched ans addr w c)
  requeued : ∀ c, R c c.requeued

/-- What has become of the connection on a descriptor: it is there, it has left, or none was. -/
inductive Becomes (R : Conn → Conn → Prop) (fd : Fd) (w w' : World) : Prop
  | stays {c c' : Conn} (hslot : w.slots fd = .client c) (hslot' : w'.slots fd = .client c')
      (h : R c c')
  | leaves {c d : Conn} (hslot : w.slots fd = .client c) (hempty : w'.slots fd = .empty)
      (hlast : w'.archive.getLast? = some d) (h : R c d)
  | nobody (hslot : ∀ c, w.slots fd ≠ .client c) (hslot' : ∀ c, w'.slots fd ≠ .client c)

/-- A function does something to the connection on a descriptor, and nothing to the others. -/
structure Does (R : Conn → Conn → Prop) (fd : Fd) (w w' : World) : Prop where
  others : ∀ x d, x ≠ fd → w'.slots x = .client d → w.slots x = .client d
  own : Becomes R fd w w'

/-- Every connection there is comes of one there was. -/
def Descends (R : Conn → Conn → Prop) (w w' : World) : Prop :=
  ∀ x c', w'.slots x = .client c' → ∃ c, w.slots x = .client c ∧ R c c'

variable {env : Outside} {R : Conn → Conn → Prop} {w w₁ w' : World} {fd : Fd} {c c₁ c' : Conn}

theorem Descends.refl (hR : Gentle env R) (w : World) : Descends R w w :=
  fun _ c hslot => ⟨c, hslot, hR.refl c⟩

theorem Descends.trans (hR : Gentle env R) (h : Descends R w w₁) (h' : Descends R w₁ w') :
    Descends R w w' := by
  intro x c' hslot'
  obtain ⟨c₁, hslot₁, hlast⟩ := h' x c' hslot'
  obtain ⟨c, hslot, hfirst⟩ := h x c₁ hslot₁
  exact ⟨c, hslot, hR.trans hfirst hlast⟩

/-- Connections may leave, and nothing else happens to them. -/
theorem Descends.of_fewer (hR : Gentle env R)
    (h : ∀ x d, w'.slots x = .client d → w.slots x = .client d) : Descends R w w' :=
  fun x d hslot => ⟨d, h x d hslot, hR.refl d⟩

theorem Descends.put (hR : Gentle env R) (hslot : w.slots fd = .client c)
    (h : ∀ x d, x ≠ fd → w₁.slots x = .client d → w.slots x = .client d) (hc : R c c') :
    Descends R w (w₁.setClient fd c') := by
  intro x d hd
  by_cases hx : x = fd
  · subst hx
    rw [setClient_slot, Slot.client.injEq] at hd
    exact ⟨c, hslot, hd ▸ hc⟩
  · rw [setClient_slots, Function.update_of_ne hx] at hd
    exact ⟨d, h x d hx hd, hR.refl d⟩

/-- Emptying a slot makes no connection. -/
theorem empty_elsewhere {x : Fd} {d : Conn} (hd : (w.setSlot fd .empty).slots x = .client d) :
    w.slots x = .client d := by
  rw [setSlot_slots] at hd
  by_cases hx : x = fd
  · subst hx
    rw [Function.update_self] at hd
    cases hd
  · rw [Function.update_of_ne hx] at hd
    exact hd

/-- A slot that holds no connection is filled with no connection. -/
theorem Descends.putOther (hR : Gentle env R) {slot : Slot} (hslot : ∀ c, slot ≠ .client c) :
    Descends R w (w.setSlot fd slot) := by
  refine .of_fewer hR fun x d hd => ?_
  by_cases hx : x = fd
  · subst hx
    rw [setSlot_slots, Function.update_self] at hd
    exact absurd hd (hslot d)
  · rw [setSlot_slots, Function.update_of_ne hx] at hd
    exact hd

theorem Descends.clear (hR : Gentle env R) (w : World) (fd : Fd) :
    Descends R w (w.setSlot fd .empty) := .putOther hR fun _ h => by cases h

theorem Descends.close (hR : Gentle env R) (w : World) (ans : Answers) (fd : Fd) :
    Descends R w (w.close ans fd) := by
  refine .of_fewer hR fun x d hd => ?_
  rw [close_slots] at hd
  by_cases hx : x = fd
  · subst hx
    rw [Function.update_self] at hd
    cases hd
  · rw [Function.update_of_ne hx] at hd
    exact hd

theorem Descends.closeAll (hR : Gentle env R) (w : World) (ans : Answers) (fds : List Fd) :
    Descends R w (World.closeAll ans w fds) := by
  induction fds generalizing w with
  | nil => exact .refl hR w
  | cons f rest ih => exact (Descends.close hR w ans f).trans hR (ih _)

theorem Does.descends (hR : Gentle env R) (h : Does R fd w w') : Descends R w w' := by
  intro x c' hslot'
  by_cases hx : x = fd
  · subst hx
    cases h.own with
    | @stays c d hslot hd hcd =>
        rw [hd, Slot.client.injEq] at hslot'
        exact ⟨c, hslot, hslot' ▸ hcd⟩
    | leaves _ hempty =>
        rw [hempty] at hslot'
        cases hslot'
    | nobody _ hnone => exact absurd hslot' (hnone c')
  · exact ⟨c', h.others x c' hx hslot', hR.refl c'⟩

theorem Does.of_slot (hslot : w.slots fd = .client c) (hframe : Frame fd w w')
    (hslot' : w'.slots fd = .client c') (h : R c c') : Does R fd w w' :=
  ⟨hframe.others, .stays hslot hslot' h⟩

theorem Does.put (hslot : w.slots fd = .client c) (hframe : Frame fd w w₁) (h : R c c') :
    Does R fd w (w₁.setClient fd c') :=
  .of_slot hslot (hframe.trans (.put fd _ _)) (setClient_slot ..) h

/-- Where no connection is, none is put. -/
theorem Does.clear (hslot : ∀ c, w.slots fd ≠ .client c) : Does R fd w (w.setSlot fd .empty) := by
  refine ⟨(Frame.put fd w _).others, .nobody hslot fun c hc => ?_⟩
  rw [setSlot_slots, Function.update_self] at hc
  cases hc

theorem Does.after (hR : Gentle env R) (hslot : w.slots fd = .client c) (hframe : Frame fd w w₁)
    (hslot₁ : w₁.slots fd = .client c₁) (h : R c c₁) (hdoes : Does R fd w₁ w') :
    Does R fd w w' := by
  refine ⟨fun x d hx hd => hframe.others x d hx (hdoes.others x d hx hd), ?_⟩
  cases hdoes.own with
  | stays hsame hslot' hnext =>
      rw [hslot₁, Slot.client.injEq] at hsame
      exact .stays hslot hslot' (hR.trans h (hsame ▸ hnext))
  | leaves hsame hempty hlast hnext =>
      rw [hslot₁, Slot.client.injEq] at hsame
      exact .leaves hslot hempty hlast (hR.trans h (hsame ▸ hnext))
  | nobody hnone => exact absurd hslot₁ (hnone c₁)

end Relations

section Exchanges

variable {env : Outside} {ans : Answers} {R : Conn → Conn → Prop} {w : World} {fd : Fd}
  {c₀ c : Conn}

theorem handOff_does (hR : Gentle env R) : Does R fd w (handOff w fd).1 := by
  unfold handOff
  split
  · rename_i c hslot
    split
    · exact .put hslot (.refl fd w) (hR.closing c)
    · refine ⟨(Frame.vacate fd _ fd).others,
        .leaves hslot (Function.update_self ..) ?_ (hR.refl c)⟩
      show (w.archive ++ (w.slots fd).leaves).getLast? = some c
      rw [hslot]
      exact List.getLast?_concat
  · rename_i hnone
    exact .clear hnone

theorem settle_does (hR : Gentle env R) (hslot : w.slots fd = .client c) :
    Does R fd w (settle ans w fd) := by
  refine ⟨(Frame.settle fd w).others, ?_⟩
  unfold settle
  simp only [hslot]
  split
  · have hleft := vacated_close
      (setClient_slot (letGo ans w c) fd c.cutOff) ans
    refine .leaves hslot hleft.empty ?_ (hR.cutOff c)
    rw [hleft.archive]
    exact List.getLast?_concat
  · exact .stays hslot hslot (hR.refl c)

theorem drive_does (hR : Gentle env R) : Does R fd w (drive ans w fd).1 := by
  unfold drive
  split
  · rename_i c hslot
    split
    · exact handOff_does hR
    · have hdown : (flushDown ans w fd).slots fd = _ := flushDown_slot hslot
      have hup : (flushUp ans (flushDown ans w fd) fd).slots fd = _ := flushUp_slot hdown
      have hread : (readUp ans (flushUp ans (flushDown ans w fd) fd) fd).slots fd = _ :=
        readUp_slot hup
      have hall : (readDown ans (readUp ans (flushUp ans (flushDown ans w fd) fd) fd) fd).slots
          fd = _ := readDown_slot hread
      refine .after hR hslot ?_ hall ?_ (settle_does hR hall)
      · exact (((Frame.flushDown fd w).trans (.flushUp fd _)).trans (.readUp fd _)).trans
          (.readDown fd _)
      · exact hR.trans (hR.trans (hR.trans (hR.flushedDown ans fd c) (hR.flushedUp ans _))
          (hR.watchedUp ans _)) (hR.watchedDown ans fd _)
  · rename_i hnone
    exact .clear hnone

theorem fail_does (hslot : w.slots fd = .client c) {status : Nat} {body : Bytes} {close : Bool}
    {unsupported : Option Bytes} (h : R c (refusedWith env c status body close unsupported)) :
    Does R fd w (failUnsupported env ans w fd status body close unsupported) :=
  .of_slot hslot (.fail hslot ..) (fail_slot hslot ..) h

/-- A connection is answered, and what that leaves of it is written. -/
theorem failed_does (hR : Gentle env R) (hslot : w.slots fd = .client c) {status : Nat}
    {body : Bytes} {close : Bool} {unsupported : Option Bytes}
    (h : R c (refusedWith env c status body close unsupported)) :
    Does R fd w
      (drive ans (failUnsupported env ans w fd status body close unsupported) fd).1 :=
  .after hR hslot (.fail hslot ..) (fail_slot hslot ..) h (drive_does hR)

theorem finish_does (hR : Gentle env R) (hslot : w.slots fd = .client c) :
    Does R fd w (finishResponse ans w fd) :=
  .of_slot hslot (.finish hslot) (finish_slot hslot) (hR.ended c)

theorem openUpstream_does (hR : Steadfast env R) (hslot : w.slots fd = .client c) :
    Does R fd w (openUpstream env ans w fd).1 := by
  cases haddr : c.targets[c.attempt]? with
  | none =>
      unfold openUpstream
      simp only [hslot, haddr]
      exact failed_does hR.toGentle hslot (hR.refused ..)
  | some addr =>
      exact .of_slot hslot (.openUpstream hslot haddr) (launched_slot hslot haddr)
        (hR.launched ans addr w c)

theorem retryOrFail_does (hR : Steadfast env R) (hslot : w.slots fd = .client c) :
    Does R fd w (retryOrFail env ans w fd).1 := by
  have hloose := hR.letLoose c
  unfold retryOrFail
  simp only [hslot, released_fields]
  split
  · exact .after hR.toGentle hslot ((Frame.release fd w c).trans (.put fd _ _)) (setClient_slot ..)
      hloose (failed_does hR.toGentle (setClient_slot ..) (hR.refused ..))
  · exact .after hR.toGentle hslot ((Frame.release fd w c).trans (.put fd _ _)) (setClient_slot ..)
      (hR.trans hloose (hR.requeued _)) (openUpstream_does hR (setClient_slot ..))

/-- A truncated response ends its connection. -/
theorem severed_does (hR : Gentle env R) (hslot : w.slots fd = .client c)
    (hseen : c.responseHeadSeen = true) : Does R fd w (upstreamFailed env ans w fd).1 := by
  unfold upstreamFailed
  simp only [hslot]
  rw [if_pos hseen]
  have hlost : Frame fd w (lose ans (w.remember (.failed c)) c) :=
    (Frame.of_quiet (.remember w _)).trans (.lose fd _ c)
  exact .after hR hslot (hlost.trans (.put fd _ _)) (setClient_slot ..) (hR.severed c)
    (drive_does hR)

theorem upstreamFailed_does (hR : Steadfast env R) (hslot : w.slots fd = .client c) :
    Does R fd w (upstreamFailed env ans w fd).1 := by
  cases hseen : c.responseHeadSeen with
  | true => exact severed_does hR.toGentle hslot hseen
  | false =>
      unfold upstreamFailed
      simp only [hslot]
      rw [if_neg (by rw [hseen]; exact Bool.false_ne_true)]
      exact .after hR.toGentle hslot
        (((Frame.of_quiet (.remember w _)).trans (.lose fd _ c)).trans (.put fd _ _))
        (setClient_slot ..) (hR.lost c c.committed) (retryOrFail_does hR (setClient_slot ..))

theorem upstreamGarbage_does (hR : Steadfast env R) (hslot : w.slots fd = .client c) :
    Does R fd w (upstreamGarbage env ans w fd).1 := by
  cases hseen : c.responseHeadSeen with
  | true =>
      unfold upstreamGarbage
      simp only [hslot]
      rw [if_pos hseen]
      exact severed_does hR.toGentle hslot hseen
  | false =>
      unfold upstreamGarbage
      simp only [hslot]
      rw [if_neg (by rw [hseen]; exact Bool.false_ne_true)]
      exact .after hR.toGentle hslot ((Frame.lose fd w c).trans (.put fd _ _)) (setClient_slot ..)
        (hR.lost c true) (failed_does hR.toGentle (setClient_slot ..) (hR.refused ..))

theorem beginTunnel_does (hR : Steadfast env R) (hslot : w.slots fd = .client c) :
    Does R fd w (beginTunnel env ans w fd).1 := by
  unfold beginTunnel
  simp only [hslot]
  split
  · exact failed_does hR.toGentle hslot (hR.refused ..)
  · rename_i asked _
    have hquiet := ((Quiet.recordUpstreamLatency w c).trans (.answer _ c 101)).trans
      (.recordResponse _ c 101)
    exact .put hslot (.of_quiet hquiet) (hR.tunnelled w c asked)

theorem pumpTunnel_does (hR : Gentle env R) (hslot : w.slots fd = .client c) :
    Does R fd w (pumpTunnel ans w fd).1 := by
  unfold pumpTunnel
  simp only [hslot]
  exact .put hslot (.refl fd w) (hR.shuttled ans c)

/-- The body of a response is relayed to a connection that is still to be put back. -/
theorem relayBody_does (hR : Steadfast env R) {w₀ : World} (hslot : w₀.slots fd = .client c₀)
    (hframe : Frame fd w₀ w) (h : R c₀ c) : Does R fd w₀ (relayBody env ans w fd c).1 := by
  have hput : ∀ {d w'}, R c d → Does R fd (w.setClient fd d) w' → Does R fd w₀ w' :=
    fun hd hdoes => .after hR.toGentle hslot (hframe.trans (.put fd _ _)) (setClient_slot ..)
      (hR.trans h hd) hdoes
  unfold relayBody
  split
  · split
    · exact hput (hR.refl c) (upstreamGarbage_does hR (setClient_slot ..))
    · rename_i n done body _
      dsimp only
      split
      · exact hput (hR.relayed c n done body) (finish_does hR.toGentle (setClient_slot ..))
      · exact .put hslot hframe (hR.trans h (hR.relayed c n done body))
  · split
    · exact hput (hR.refl c) (finish_does hR.toGentle (setClient_slot ..))
    · exact .put hslot hframe h

theorem parseResponse_does (hR : Steadfast env R) (hslot : w.slots fd = .client c) :
    Does R fd w (parseResponse env ans w fd).1 := by
  unfold parseResponse
  simp only [hslot]
  split
  · exact .of_slot hslot (.refl fd w) hslot (hR.refl c)
  split
  · exact relayBody_does hR hslot (.refl fd w) (hR.refl c)
  · have hparsed := hR.upParsed c (parseResponseHead .standard c.upInbox c.upHead).2
    have hput : ∀ {w'}, Does R fd (w.setClient fd
        { c with upHead := (parseResponseHead .standard c.upInbox c.upHead).2 }) w' →
          Does R fd w w' :=
      fun hdoes => .after hR.toGentle hslot (.put fd w _) (setClient_slot ..) hparsed hdoes
    split
    · exact .put hslot (.refl fd w) hparsed
    · exact hput (upstreamGarbage_does hR (setClient_slot ..))
    · split
      · exact hput (beginTunnel_does hR (setClient_slot ..))
      · split
        · exact hput (upstreamGarbage_does hR (setClient_slot ..))
        · rename_i framing _
          have hquiet : Quiet w (relayHead env w
              { c with upHead := (parseResponseHead .standard c.upInbox c.upHead).2 }
              framing).1 :=
            (((Quiet.remember w _).trans (.recordUpstreamLatency _ _)).trans
              (.answer _ _ _)).trans (.recordResponse _ _ _)
          exact relayBody_does hR hslot (.of_quiet hquiet)
            (hR.trans hparsed (hR.relayHead w _ framing))

end Exchanges

section Completions

variable {env : Outside} {ans : Answers} {R : Conn → Conn → Prop} {w : World} {fd up : Fd}
  {c : Conn}

theorem onClientRead_descends (hR : Gentle env R) (outcome : Outcome) :
    Descends R w (onClientRead env ans w fd outcome).1 := by
  unfold onClientRead
  split
  · rename_i c hslot
    exact .put hR hslot (fun _ _ _ => id) (hR.readClient ans w c outcome)
  · exact .clear hR w fd

theorem onClientWrite_descends (hR : Gentle env R) (outcome : Outcome) :
    Descends R w (onClientWrite w fd outcome).1 := by
  unfold onClientWrite
  split
  · rename_i c hslot
    exact .put hR hslot (fun _ _ _ => id) (hR.wroteClient c outcome)
  · exact .clear hR w fd

/-- The end of an upstream is a failure of its exchange, or it is not. -/
theorem onUpstreamEof_descends (hR : Gentle env R) (hslot : w.slots fd = .client c)
    (hfailed : Descends R w (upstreamFailed env ans w fd).1) :
    Descends R w (onUpstreamEof env ans w fd).1 := by
  unfold onUpstreamEof
  simp only [hslot]
  split
  · exact .put hR hslot (fun _ _ _ => id) (hR.upEnded c)
  · split
    · exact (Does.after hR hslot (.put fd w _) (setClient_slot ..) (hR.closed c)
        (finish_does hR (setClient_slot ..))).descends hR
    · exact hfailed

theorem onUpstreamRead_descends (hR : Steadfast env R) (outcome : Outcome) (stamps : List Nat) :
    Descends R w (onUpstreamRead env ans w up outcome stamps).1 := by
  unfold onUpstreamRead
  split
  · exact Descends.close hR.toGentle { w with pool := _ } ans up
  · rename_i down _
    split
    · rename_i c hslot
      have hheard := hR.hear c outcome.bytes stamps
      have hput : ∀ {w'}, Descends R (w.setClient down (hear c outcome.bytes stamps)) w' →
          Descends R w w' :=
        (Descends.put hR.toGentle hslot (fun _ _ _ => id) hheard).trans hR.toGentle
      have hfailed : Descends R (w.setClient down (hear c outcome.bytes stamps))
          (upstreamFailed env ans (w.setClient down (hear c outcome.bytes stamps)) down).1 :=
        (upstreamFailed_does hR (setClient_slot ..)).descends hR.toGentle
      dsimp only
      split
      · exact hput (onUpstreamEof_descends hR.toGentle (setClient_slot ..) hfailed)
      · exact hput (.refl hR.toGentle _)
      · exact hput hfailed
    · exact .clear hR.toGentle w _
  · exact .refl hR.toGentle w

theorem onUpstreamWrite_descends (hR : Steadfast env R) (payload : Bytes) (outcome : Outcome) :
    Descends R w (onUpstreamWrite env ans w up payload outcome).1 := by
  unfold onUpstreamWrite
  split
  · rename_i down _
    split
    · rename_i c hslot
      split
      · exact .put hR.toGentle hslot (fun _ _ _ => id) (hR.delivered c payload)
      · exact (Descends.put hR.toGentle hslot (fun _ _ _ => id) (hR.undelivered c)).trans
          hR.toGentle ((upstreamFailed_does hR (setClient_slot ..)).descends hR.toGentle)
    · exact .clear hR.toGentle w _
  · exact .refl hR.toGentle w

theorem onConnected_descends (hR : Steadfast env R) (ok : Bool) :
    Descends R w (onConnected env ans w up ok).1 := by
  have hcleared : ∀ {v : World}, (∀ x d, v.slots x = .client d → w.slots x = .client d) →
      ∀ x d, ((v.setSlot up .empty).sysClose up).slots x = .client d → w.slots x = .client d := by
    intro v hv x d hd
    exact hv x d (empty_elsewhere hd)
  unfold onConnected
  dsimp only
  split
  · rename_i down _
    split
    · rename_i c hslot
      split
      · exact Descends.put (w := { w with borrowed := _ }) hR.toGentle hslot
          (fun _ _ _ => id) (hR.connected c)
      · refine (Descends.put hR.toGentle hslot (fun x d _ hd => ?_) (hR.missed c)).trans
          hR.toGentle ((retryOrFail_does hR (setClient_slot ..)).descends hR.toGentle)
        exact hcleared (fun _ _ => id) x d hd
    · refine .of_fewer hR.toGentle (hcleared fun x d hd => ?_)
      exact empty_elsewhere hd
  · exact .of_fewer hR.toGentle (hcleared fun _ _ => id)

theorem onTick_descends (hR : Gentle env R) : Descends R w (onTick ans w).1 := by
  unfold onTick
  dsimp only
  split
  · exact .of_fewer hR fun _ _ => id
  · exact Descends.closeAll hR { w with pool := _ } ans _

theorem sweepClient_descends (hR : Steadfast env R) (now : Nat) :
    Descends R w (sweepClient env ans w fd now).1 := by
  unfold sweepClient
  split
  · rename_i c hslot
    split
    · have hfailed : Descends R w (drive ans (fail env ans w fd 504 TIMEOUT true) fd).1 :=
        (failed_does hR.toGentle hslot (hR.refused ..)).descends hR.toGentle
      have hextended := hR.extended c now w.config.responseTimeout
      split
      · exact hfailed
      · exact hfailed
      · exact .close hR.toGentle w ans fd
      all_goals exact .put hR.toGentle hslot (fun _ _ _ => id) hextended
    · exact .refl hR.toGentle w
  · exact .refl hR.toGentle w

end Completions

section Administration

variable {env : Outside} {ans : Answers} {R : Conn → Conn → Prop} {w w₁ w' : World} {fd : Fd}

theorem Descends.admin (hR : Gentle env R) (w : World) (fd : Fd) (a : AdminConn) :
    Descends R w (w.setSlot fd (.admin a)) := .putOther hR fun _ h => by cases h

theorem driveAdmin_descends (hR : Gentle env R) : Descends R w (driveAdmin ans w fd) := by
  unfold driveAdmin
  split
  · split
    · split
      · exact Descends.admin hR (w.submit ..) fd _
      · exact .admin hR w fd _
    · split
      · exact Descends.admin hR (w.submit ..) fd _
      · exact .refl hR w
  · exact .clear hR w fd

theorem startAdmin_descends (hR : Gentle env R) : Descends R w (startAdmin ans w fd) := by
  unfold startAdmin
  split
  · exact .of_fewer hR fun _ _ => id
  · exact (Descends.admin hR ((w.opening fd).bumpGeneration fd) fd {}).trans hR
      (driveAdmin_descends hR)

theorem onAdminRead_descends (hR : Gentle env R) (outcome : Outcome) :
    Descends R w (onAdminRead env ans w fd outcome) := by
  unfold onAdminRead
  split
  · dsimp only
    split
    · exact (Descends.clear hR w fd).trans hR (.close hR _ ans fd)
    · exact (Descends.admin hR w fd _).trans hR (driveAdmin_descends hR)
  · exact .clear hR w fd

theorem onAdminWrite_descends (hR : Gentle env R) (outcome : Outcome) :
    Descends R w (onAdminWrite ans w fd outcome) := by
  unfold onAdminWrite
  split
  · split
    · exact .close hR w ans fd
    · exact (Descends.admin hR w fd _).trans hR (driveAdmin_descends hR)
  · exact .clear hR w fd

end Administration

section Beginnings

variable {env : Outside} {ans : Answers} {R : Conn → Conn → Prop} {w w₁ w' : World} {fd : Fd}

/-- Every connection there is comes of one there was, or has just been accepted. -/
def Arises (R : Conn → Conn → Prop) (w w' : World) : Prop :=
  ∀ x c', w'.slots x = .client c' → (∃ c, w.slots x = .client c ∧ R c c') ∨
    ((∀ c, w.slots x ≠ .client c) ∧ ∃ ans v tls, R (newClient ans v tls) c')

theorem Descends.arises (h : Descends R w w') : Arises R w w' :=
  fun x c' hslot' => .inl (h x c' hslot')

theorem arm_slots (k : Kind) : (arm ans w k fd).slots = w.slots := by
  unfold arm
  split <;> rfl

theorem startClient_arises (hR : Gentle env R) (tls : Bool) (hfree : ∀ c, w.slots fd ≠ .client c) :
    Arises R w (startClient ans w fd tls).1 := by
  unfold startClient
  split
  · exact Descends.arises (.of_fewer hR fun _ _ => id)
  · have hdriven : Does R fd (((w.opening fd).bumpGeneration fd).setClient fd
        (newClient ans w tls)) (drive ans _ fd).1 := drive_does hR
    intro x c' hslot'
    obtain ⟨c, hslot, hc⟩ := hdriven.descends hR x c' hslot'
    by_cases hx : x = fd
    · subst hx
      rw [setClient_slot, Slot.client.injEq] at hslot
      exact .inr ⟨hfree, ans, w, tls, hslot ▸ hc⟩
    · rw [setClient_slots, Function.update_of_ne hx] at hslot
      exact .inl ⟨c, hslot, hc⟩

theorem onAccept_arises (hR : Gentle env R) {outcome : Outcome} (k : Kind)
    (hfree : ∀ connection, outcome = .accepted connection → ∀ c, w.slots connection ≠ .client c) :
    Arises R w (onAccept ans w fd outcome k).1 := by
  have harmed : Arises R w (arm ans w k fd) :=
    Descends.arises (.of_fewer hR fun x d hd => by rwa [arm_slots] at hd)
  cases outcome with
  | accepted connection =>
      unfold onAccept
      dsimp only
      split
      · exact Descends.arises (.of_fewer hR fun _ _ => id)
      · have hsame : (arm ans w k fd).slots = w.slots := arm_slots k
        split
        · exact harmed
        · split
          · have hbegun : Descends R (arm ans w k fd) (startAdmin ans _ connection) :=
              startAdmin_descends hR
            unfold Descends at hbegun
            rw [hsame] at hbegun
            exact Descends.arises hbegun
          · have hbegun : Arises R (arm ans w k fd) (startClient ans _ connection _).1 :=
              startClient_arises hR (k == .acceptTls) (by rw [hsame]; exact hfree connection rfl)
            unfold Arises at hbegun
            rw [hsame] at hbegun
            exact hbegun
  | failed transient =>
      unfold onAccept
      cases transient with
      | true =>
          dsimp only
          split
          · exact Descends.arises (.refl hR w)
          · exact harmed
      | false => exact Descends.arises (.refl hR w)
  | _ => exact Descends.arises (.refl hR w)

theorem deal_arises (hR : Gentle env R) (tls : Bool) {ready : List Fd}
    (hfree : ∀ first rest, ready = first :: rest → ∀ c, w.slots first ≠ .client c) :
    Arises R w (deal ans w fd tls ready).1 := by
  unfold deal
  split
  · exact Descends.arises (.of_fewer hR fun x d hd => by rwa [armIntake, arm_slots] at hd)
  · rename_i first rest
    exact startClient_arises hR tls (hfree first rest rfl)

theorem onIntake_slots (outcome : Outcome) (tls : Bool) :
    (onIntake w fd outcome tls).1.slots = w.slots := by
  have haway : ∀ (fds : List Fd) (v : World),
      (fds.foldl (fun w fd => (w.opening fd).sysClose fd) v).slots = v.slots := by
    intro fds
    induction fds with
    | nil => exact fun _ => rfl
    | cons f rest ih => exact fun v => ih _
  unfold onIntake
  split
  · dsimp only
    split
    · split
      · exact haway _ _
      · exact haway _ _
    · split <;> rfl
  · rfl

theorem notes_descends (hR : Steadfast env R) : Descends R w (notes env ans w).1 := by
  unfold notes
  split
  · exact .of_fewer hR.toGentle fun x d hd => by rwa [armNotify, arm_slots] at hd
  · exact onTick_descends hR.toGentle
  · exact onConnected_descends hR _

theorem drainSlot_descends (hR : Gentle env R) : Descends R w (drainSlot ans w fd) := by
  unfold drainSlot
  split
  · rename_i c hslot
    unfold drainClient
    dsimp only
    split
    · exact Descends.put (w := w) hR hslot (fun _ _ _ => id) (hR.spared c)
    · exact .close hR w ans fd
  · unfold drainAdmin
    split
    · exact Descends.admin hR { w with drainInflight := _ } fd _
    · exact .close hR w ans fd
  · exact .refl hR w

theorem drainSlots_descends (hR : Gentle env R) (fds : List Fd) :
    Descends R w (fds.foldl (drainSlot ans) w) := by
  induction fds generalizing w with
  | nil => exact .refl hR w
  | cons f rest ih => exact (drainSlot_descends hR).trans hR ih

theorem beginDrain_descends (hR : Gentle env R) : Descends R w (beginDrain ans w) := by
  unfold beginDrain
  extract_lets w₁ w₂ w₃ w₄ idle w₅
  have hlistened : Descends R w w₂ := Descends.closeAll hR { w₁ with intakes := [] } ans _
  have hadmitted : Descends R w₂ w₄ := Descends.closeAll hR { w₃ with admin := none } ans _
  have hpooled : Descends R w₄ w₅ := Descends.closeAll hR { w₄ with pool := _ } ans _
  exact ((hlistened.trans hR hadmitted).trans hR hpooled).trans hR (drainSlots_descends hR _)

end Beginnings

section Steps

variable {env : Outside} {ans : Answers} {R : Conn → Conn → Prop} {w : World} {m m' : Machine}
  {a : Act}

theorem deliver_arises (hR : Steadfast env R) {op : Op} {outcome : Outcome} (stamps : List Nat)
    (hfree : ∀ connection, outcome = .accepted connection → ∀ c, w.slots connection ≠ .client c) :
    Arises R w (deliver env ans w op outcome stamps).1 := by
  have hsame : ∀ {w' : World}, w'.slots = w.slots → Arises R w w' := fun h =>
    Descends.arises (.of_fewer hR.toGentle fun x d hd => by rwa [h] at hd)
  unfold deliver
  dsimp only
  split
  · exact onAccept_arises hR.toGentle _ hfree
  · exact onAccept_arises hR.toGentle _ hfree
  · exact onAccept_arises hR.toGentle _ hfree
  · exact hsame (onIntake_slots ..)
  · exact hsame (onIntake_slots ..)
  · unfold onNotify
    split <;> exact hsame rfl
  · exact Descends.arises (onClientRead_descends hR.toGentle _)
  · exact Descends.arises (onClientWrite_descends hR.toGentle _)
  · exact Descends.arises (onUpstreamRead_descends hR _ _)
  · exact Descends.arises (onUpstreamWrite_descends hR _ _)
  · exact Descends.arises (onAdminRead_descends hR.toGentle _)
  · exact Descends.arises (onAdminWrite_descends hR.toGentle _)
  · exact hsame rfl
  · exact hsame rfl

/-- Whatever is not moving a connection on makes of the connections what such a relation keeps. -/
theorem step_arises (hR : Steadfast env R)
    (hfree : ∀ x, m.world.opened x = false → ∀ c, m.world.slots x ≠ .client c)
    (hother : ∀ ans, a = .turn ans → ∀ fd rest, m.tasks ≠ .advance fd :: rest)
    (hstep : step env m a = some m') : Arises R m.world m'.world := by
  have hsame : ∀ {w' : World}, w'.slots = m.world.slots → Arises R m.world w' := fun h =>
    Descends.arises (.of_fewer hR.toGentle fun x d hd => by rwa [h] at hd)
  cases a with
  | turn ans =>
      simp only [step] at hstep
      split at hstep
      · cases hstep
      · rename_i task rest hwork
        split at hstep
        · rename_i hready
          simp only [Bool.and_eq_true] at hready
          cases hstep
          cases task with
          | deal channel tls ready =>
              refine deal_arises hR.toGentle tls fun first rest hlist => ?_
              have hfits := hready.2
              rw [hlist] at hfits
              exact hfree first (by simpa [Task.fits] using hfits)
          | notes => exact Descends.arises (notes_descends hR)
          | sweep fds now =>
              cases fds with
              | nil => exact hsame rfl
              | cons fd rest => exact Descends.arises (sweepClient_descends hR now)
          | advance fd => exact absurd hwork (hother ans rfl fd rest)
          | drive fd => exact Descends.arises ((drive_does hR.toGentle).descends hR.toGentle)
          | retryOrFail fd =>
              cases hslot : m.world.slots fd with
              | client c =>
                  exact Descends.arises ((retryOrFail_does hR hslot).descends hR.toGentle)
              | _ =>
                  unfold runTask retryOrFail
                  simp only [hslot]
                  exact Descends.arises (.clear hR.toGentle _ fd)
        · cases hstep
  | complete op outcome ans =>
      simp only [step] at hstep
      split at hstep
      · rename_i hready
        simp only [Bool.and_eq_true] at hready
        cases hstep
        have haccepted : ∀ connection, outcome = .accepted connection →
            ∀ c, m.world.slots connection ≠ .client c := by
          rintro connection rfl
          have hfits := hready.1.2
          simp only [Outcome.fits, Bool.and_eq_true, Bool.not_eq_true'] at hfits
          exact hfree connection hfits.2
        unfold dispatch
        dsimp only
        split
        · unfold dropStale
          split <;> exact hsame rfl
        · exact deliver_arises (w := m.world.retire op outcome) hR _ haccepted
      · cases hstep
  | drain ans =>
      simp only [step] at hstep
      split at hstep
      · cases hstep
        exact Descends.arises (beginDrain_descends hR.toGentle)
      · cases hstep
  | stop | publish =>
      cases hstep
      exact hsame rfl
  | elapse =>
      cases hstep
      exact hsame rfl
  | send up bytes =>
      simp only [step] at hstep
      split at hstep
      · cases hstep
        exact hsame rfl
      · cases hstep

end Steps

end Ramjet.Engine.Worker.Effects
