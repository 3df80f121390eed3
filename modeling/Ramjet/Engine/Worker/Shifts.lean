/- digest: What one whole move makes of its connection, and what lasts of every connection seen. -/

import Ramjet.Engine.Worker.Coherence

set_option autoImplicit false
set_option relaxedAutoImplicit false

namespace Ramjet.Engine.Worker.Shifts

open Ramjet.Base.Octets
open Ramjet.Base.Net
open Ramjet.Base.Machine
open Ramjet.Engine.Codec.BodyFraming
open Ramjet.Engine.IdlePool
open Ramjet.Engine.Limits
open Ramjet.Engine.Route
open Ramjet.Engine.Worker.Accounting
open Ramjet.Engine.Worker.Connection
open Ramjet.Engine.Worker.Core
open Ramjet.Engine.Worker.Serving
open Ramjet.Engine.Worker.Requests
open Ramjet.Engine.Worker.Handlers
open Ramjet.Engine.Worker.Loop
open Ramjet.Engine.Worker.Moves
open Ramjet.Engine.Worker.Frames
open Ramjet.Engine.Worker.Turns
open Ramjet.Engine.Worker.Events
open Ramjet.Engine.Worker.Images
open Ramjet.Engine.Worker.Keeping
open Ramjet.Engine.Worker.Alterations
open Ramjet.Engine.Worker.Changes
open Ramjet.Engine.Worker.Coherence
open Ramjet.Router.Balancing
open Ramjet.Router.Stats

/-- A moment in which an exchange is over and its upstream free for the next. -/
def Moment.Ends : Moment → Prop
  | .finished _ | .pooled _ _ => True
  | _ => False

/-- No exchange came to its end. -/
def Mute (w w' : World) : Prop := ∀ m, Moment.Ends m → m ∈ w'.moments → m ∈ w.moments

section Silence

variable {env : Outside} {ans : Answers} {calm : Bool} {w w' : World} {fd : Fd} {c : Conn}
  {p q : Hand}

theorem Mute.of_same (h : w'.moments = w.moments) : Mute w w' := fun _ _ hm => h ▸ hm

theorem Mute.refl (w : World) : Mute w w := fun _ _ => id

theorem Mute.trans {w'' : World} (h : Mute w w') (h' : Mute w' w'') : Mute w w'' :=
  fun m hends hm => h m hends (h' m hends hm)

theorem Mute.remember (w : World) {m : Moment} (hm : ¬ Moment.Ends m) : Mute w (w.remember m) := by
  intro m' hends hmem
  rcases List.mem_append.mp hmem with hold | hnew
  · exact hold
  · rw [List.mem_singleton.mp hnew] at hends
    exact absurd hends hm

theorem writeRoute_moments (w : World) (c : Conn) (write : RouteTotals → RouteTotals) :
    (writeRoute w c write).moments = w.moments := by
  unfold writeRoute
  split <;> rfl

theorem recordResponse_moments (w : World) (c : Conn) (status : Nat) :
    (recordResponse w c status).1.moments = w.moments := by
  unfold recordResponse
  split
  · rfl
  · exact writeRoute_moments ..

theorem recordUpstreamLatency_moments (w : World) (c : Conn) :
    (recordUpstreamLatency w c).moments = w.moments := by
  unfold recordUpstreamLatency
  split
  · rfl
  · exact writeRoute_moments ..

theorem answer_moments (w : World) (c : Conn) (status : Nat) :
    (answer w c status).moments = w.moments := by
  unfold answer
  split <;> rfl

theorem sendMirror_moments (w : World) (c : Conn) : (sendMirror w c).1.moments = w.moments := by
  unfold sendMirror
  dsimp only
  repeat' split
  all_goals rfl

theorem planMirror_moments (w : World) (c : Conn) (snapshot : Snapshot)
    (spec : Option Ramjet.Router.Rule.MirrorSpec) (framing : Framing) :
    (planMirror ans w c snapshot spec framing).1.moments = w.moments := by
  unfold planMirror
  dsimp only
  repeat' split
  all_goals rfl

variable (ans) in
theorem dispatched_moments (w : World) (c : Conn) (snapshot : Snapshot) (matched : Matched)
    (framing : Framing) (first : Nat) (targets : List SocketAddr) (target : SocketAddr) :
    (dispatched ans w c snapshot matched framing first targets target).1.moments = w.moments := by
  unfold dispatched
  dsimp only
  split
  · exact (sendMirror_moments _ _).trans (planMirror_moments ..)
  · exact planMirror_moments ..

theorem pumped_moments {c' : Conn} {progressed : Bool}
    (h : pumpRequestBody w c = .ok (w', c', progressed)) : w'.moments = w.moments := by
  unfold pumpRequestBody at h
  split at h
  · split at h
    · cases h
    · dsimp only at h
      split at h
      · cases h
        exact sendMirror_moments w _
      · cases h
        rfl
  · cases h
    rfl

theorem progress_mute (h : Progress env ans calm p q) : Mute p.1 q.1 := by
  cases h with
  | refused => exact .remember _ id
  | pumped hphase hpumped => exact .of_same (pumped_moments hpumped)
  | tunnelled =>
      refine .of_same ?_
      simp only [tunnelled, recordResponse_moments, answer_moments, recordUpstreamLatency_moments]
  | @headRelayed w c framing =>
      have hnoted : Mute w (w.remember (.relayed c)) := .remember w id
      refine hnoted.trans (.of_same ?_)
      simp only [relayHead, recordResponse_moments, answer_moments, recordUpstreamLatency_moments]
  | _ => exact .refl _

theorem hands_mute (h : Hands env ans calm p q) : Mute p.1 q.1 := by
  induction h with
  | refl => exact .refl _
  | tail _ hstep ih => exact ih.trans (progress_mute hstep)

theorem releaseInflight_moments (w : World) (c : Conn) :
    (releaseInflight w c).1.moments = w.moments := by
  unfold releaseInflight
  dsimp only
  split
  · split <;> rfl
  · rfl

theorem holdInflight_moments (w : World) (c : Conn) :
    (holdInflight w c).1.moments = w.moments := by
  unfold holdInflight
  split
  · rfl
  · split <;> rfl

theorem close_moments (w : World) (ans : Answers) (f : Fd) :
    (w.close ans f).moments = w.moments := by
  unfold World.close World.countOff
  dsimp only
  split <;> split <;> rfl

theorem closeAll_moments (w : World) (ans : Answers) (fds : List Fd) :
    (World.closeAll ans w fds).moments = w.moments := by
  induction fds generalizing w with
  | nil => rfl
  | cons f rest ih => exact (ih (w.close ans f)).trans (close_moments w ans f)

theorem letGo_moments (w : World) (c : Conn) : (letGo ans w c).moments = w.moments := by
  unfold letGo
  split
  · rfl
  · split
    · rfl
    · exact close_moments ..

theorem lose_moments (w : World) (c : Conn) : (lose ans w c).moments = w.moments := by
  unfold lose
  split
  · rfl
  · exact close_moments ..

theorem refuse_moments (w : World) (c : Conn) (status : Nat) (out : Bytes) (close : Bool) :
    (refuse w c status out close).1.moments = w.moments := by
  simp only [refuse, recordResponse_moments, answer_moments]

theorem fail_moments (hslot : w.slots fd = .client c) (status : Nat) (body : Bytes) (close : Bool)
    (unsupported : Option Bytes) :
    (failUnsupported env ans w fd status body close unsupported).moments = w.moments := by
  unfold failUnsupported
  simp only [hslot]
  exact (refuse_moments ..).trans ((letGo_moments ..).trans (releaseInflight_moments w c))

theorem flushDown_moments (w : World) (fd : Fd) :
    (flushDown ans w fd).moments = w.moments := by
  unfold flushDown
  split
  · dsimp only
    split
    · split <;> rfl
    · rfl
  · rfl

theorem flushUp_moments (w : World) (fd : Fd) : (flushUp ans w fd).moments = w.moments := by
  unfold flushUp
  split
  · split
    · rfl
    · dsimp only
      split
      · split <;> rfl
      · rfl
  · rfl

theorem readUp_moments (w : World) (fd : Fd) : (readUp ans w fd).moments = w.moments := by
  unfold readUp
  split
  · split
    · rfl
    · split <;> rfl
  · rfl

theorem readDown_moments (w : World) (fd : Fd) : (readDown ans w fd).moments = w.moments := by
  unfold readDown
  split
  · split <;> rfl
  · rfl

theorem settle_moments (w : World) (fd : Fd) : (settle ans w fd).moments = w.moments := by
  unfold settle
  split
  · split
    · exact (close_moments ..).trans (letGo_moments ..)
    · rfl
  · rfl

theorem handOff_mute (w : World) (fd : Fd) : Mute w (Serving.handOff w fd).1 := by
  unfold Serving.handOff
  split
  · split
    · exact .of_same rfl
    · exact (Mute.remember w id).trans (.of_same rfl)
  · exact .of_same rfl

theorem openUpstream_mute {addr : SocketAddr} (hslot : w.slots fd = .client c)
    (haddr : c.targets[c.attempt]? = some addr) : Mute w (openUpstream env ans w fd).1 := by
  have hlease : ∀ (w : World) (up : Fd), Mute w (lease w up) := fun w up => .remember w id
  have hheld : Mute w (holdInflight w
      { c with dispatchedAt := some w.clock
               deadline := some (w.clock + w.config.responseTimeout) }).1 :=
    .of_same (holdInflight_moments ..)
  unfold openUpstream
  simp only [hslot, haddr]
  split
  · rename_i up _
    exact hheld.trans (hlease (holdInflight w { c with
      dispatchedAt := some w.clock
      deadline := some (w.clock + w.config.responseTimeout) }).1 up)
  · split
    · exact hheld
    · rename_i up connected _
      have hopened := hheld.trans (hlease ((holdInflight w { c with
        dispatchedAt := some w.clock
        deadline := some (w.clock + w.config.responseTimeout) }).1.opening up) up)
      split
      · exact hopened
      · split
        · exact hopened
        · exact hopened

end Silence

/-- An exchange that ends: its response is complete, and where its upstream goes to the pool the
boundary is clean. -/
inductive Ended (w : World) (fd : Fd) : Moment → Prop
  | finished {c : Conn} (hslot : w.slots fd = .client c) (hseen : c.responseHeadSeen = true)
      (hdone : c.responseBody.isDone = true) (hphase : c.phase ≠ .tunnel) : Ended w fd (.finished c)
  | pooled {c : Conn} {up : Fd} (hslot : w.slots fd = .client c)
      (hseen : c.responseHeadSeen = true) (hdone : c.responseBody.isDone = true)
      (hphase : c.phase ≠ .tunnel) (hup : c.upstream = some up)
      (hlasts : c.upstreamKeepAlive = true) (hempty : c.upInbox = [])
      (hwritten : c.upWriting = false) : Ended w fd (.pooled up (letLoose c))

section Endings

variable {env : Outside} {ans : Answers} {calm s : Bool} {w w' : World} {fd : Fd} {c : Conn}
  {m : Moment}

variable (ans) in
/-- What a finished exchange notes of its upstream. -/
theorem releaseUpstream_moments (w : World) (c : Conn) (up : Fd) :
    (releaseUpstream ans w c up).moments = w.moments ∨
      ((releaseUpstream ans w c up).moments = w.moments ++ [.pooled up c] ∧
        c.upstreamKeepAlive = true ∧ c.upInbox = [] ∧ c.upWriting = false) := by
  unfold releaseUpstream
  dsimp only
  split
  · rename_i addr hkept haddr
    simp only [Bool.and_eq_true, List.isEmpty_iff, Bool.not_eq_true'] at hkept
    split
    · refine .inr ⟨?_, hkept.1, hkept.2⟩
      split
      · rfl
      · split
        · rfl
        · exact close_moments ..
    · exact .inl (close_moments ..)
  · exact .inl (close_moments ..)

theorem finish_ends (hslot : w.slots fd = .client c) (hseen : c.responseHeadSeen = true)
    (hdone : c.responseBody.isDone = true) (hphase : c.phase ≠ .tunnel)
    (hm : m ∈ (finishResponse ans w fd).moments) : m ∈ w.moments ∨ Ended w fd m := by
  have hreleased : (releaseInflight (w.remember (.finished c)) c).1.moments =
      w.moments ++ [.finished c] := releaseInflight_moments ..
  have hfinished : m ∈ w.moments ++ [.finished c] → m ∈ w.moments ∨ Ended w fd m := by
    intro hmem
    rcases List.mem_append.mp hmem with hold | hnew
    · exact .inl hold
    · rw [List.mem_singleton.mp hnew]
      exact .inr (.finished hslot hseen hdone hphase)
  unfold finishResponse at hm
  simp only [hslot] at hm
  cases hup : c.upstream with
  | none =>
      simp only [hup] at hm
      exact hfinished (hreleased ▸ hm)
  | some up =>
      simp only [hup] at hm
      have hm' : m ∈ (releaseUpstream ans (releaseInflight (w.remember (.finished c)) c).1
          (releaseInflight (w.remember (.finished c)) c).2 up).moments := hm
      rw [released_fields] at hm'
      rcases releaseUpstream_moments ans
        (releaseInflight (w.remember (.finished c)) c).1 (letLoose c) up with hsame | hpooled
      · exact hfinished (hreleased ▸ hsame ▸ hm')
      · obtain ⟨hnoted, hlasts, hempty, hwritten⟩ := hpooled
        have hmem : m ∈ w.moments ++ [.finished c] ++ [.pooled up (letLoose c)] := by
          rw [← hreleased, ← hnoted]
          exact hm'
        rcases List.mem_append.mp hmem with hold | hnew
        · exact hfinished hold
        · rw [List.mem_singleton.mp hnew]
          exact .inr (.pooled hslot hseen hdone hphase hup hlasts hempty hwritten)

/-- Only the move that finishes a response ends an exchange. -/
theorem move_ends (hmove : Move env ans calm fd w w') (hends : Moment.Ends m)
    (hm : m ∈ w'.moments) : m ∈ w.moments ∨ Ended w fd m := by
  cases hmove with
  | put hslot hands => exact .inl (hands_mute hands m hends hm)
  | fail hslot _ status body close unsupported =>
      exact .inl (fail_moments hslot status body close unsupported ▸ hm)
  | @rejected c | @failed c => exact .inl ((Mute.remember w id) m hends hm)
  | finish hslot hseen hdone hphase => exact finish_ends hslot hseen hdone hphase hm
  | handOff => exact .inl (handOff_mute w fd m hends hm)
  | preface => exact .inl (handOff_mute (w.setClient fd _) fd m hends hm)
  | flushDown => exact .inl (flushDown_moments w fd ▸ hm)
  | flushUp => exact .inl (flushUp_moments w fd ▸ hm)
  | readUp => exact .inl (readUp_moments w fd ▸ hm)
  | readDown => exact .inl (readDown_moments w fd ▸ hm)
  | settle => exact .inl (settle_moments w fd ▸ hm)
  | @dispatched w₁ c c₁ matched framing first allowed target others hslot hands =>
      obtain ⟨_, _, _, hfields⟩ :=
        dispatched_fields ans w₁ c₁ w₁.routes matched framing first (target :: others) target
      have hsent := (hands_mute hands).trans (.of_same (dispatched_moments ans w₁ c₁
        w₁.routes matched framing first (target :: others) target))
      have haddr : (dispatched ans w₁ c₁ w₁.routes matched framing first (target :: others)
          target).2.targets[(dispatched ans w₁ c₁ w₁.routes matched framing first
          (target :: others) target).2.attempt]? = some target := by
        rw [hfields]
        rfl
      exact .inl (hsent m hends (openUpstream_mute (setClient_slot ..) haddr m hends hm))
  | released => exact .inl (releaseInflight_moments w _ ▸ hm)
  | requeued hslot hdue hheld hleft haddr =>
      exact .inl (openUpstream_mute (setClient_slot ..) haddr m hends hm)
  | lost => exact .inl (lose_moments w _ ▸ hm)
  | idled => exact .inl (close_moments w ans fd ▸ hm)
  | gone => exact .inl hm

theorem aside_moments (h : Aside w w') : w'.moments = w.moments := by
  cases h with
  | lapsed | unlistened | adminLeft | adminHungUp | adminClosed | flushed =>
      first | exact close_moments .. | exact closeAll_moments ..
  | _ => rfl

/-- What an exchange notes at its end, it notes of the connection it has just moved. -/
theorem event_ends (hevent : Event env calm s w w') (hends : Moment.Ends m) (hm : m ∈ w'.moments) :
    m ∈ w.moments ∨ ∃ fd, Ended w fd m := by
  cases hevent with
  | @moved w' ans fd hmove => exact (move_ends hmove hends hm).imp_right fun h => ⟨fd, h⟩
  | cut ans => exact .inl (close_moments w ans _ ▸ hm)
  | aside hbeside => exact .inl (aside_moments hbeside ▸ hm)
  | _ => exact .inl hm

end Endings

section Shifting

variable (env : Outside) (ans : Answers) (calm : Bool)

/-- What one move makes of its connection. A connection is given an upstream in the move that
dispatches its request or queues it again. -/
inductive Shift (fd : Fd) (w : World) : Conn → Conn → Prop
  | hands {w' : World} {c c' : Conn} (h : Hands env ans calm (w, c) (w', c')) : Shift fd w c c'
  | refused {c : Conn} (hfailing : Failing w c) (status : Nat) (body : Bytes) (close : Bool)
      (unsupported : Option Bytes) (hown : close = false → c.upBorrowed = false)
      (hgivenUp : status = 502 → GivenUp c)
      (hbegun : close = false → c.phase = .head → Begun c) :
      Shift fd w c (refusedWith env c status body close unsupported)
  | finished {c : Conn} (hseen : c.responseHeadSeen = true) (hdone : c.responseBody.isDone = true)
      (hphase : c.phase ≠ .tunnel) : Shift fd w c (letLoose c).ended
  | flushedDown {c : Conn} : Shift fd w c (flushedDown ans fd c)
  | flushedUp {c : Conn} : Shift fd w c (flushedUp ans c)
  | watchedUp {c : Conn} : Shift fd w c (watchedUp ans c)
  | watchedDown {c : Conn} (hgiven : c.handOff = false) : Shift fd w c (watchedDown ans fd c)
  | sent {w₁ w₂ : World} {c c₁ : Conn} {matched : Matched} {framing : Framing}
      {first allowed : Nat} {target : SocketAddr} {others : List SocketAddr}
      (hands : Hands env ans calm (w, c) (w₁, c₁)) (hphase : c₁.phase = .head) (hread : Read c₁)
      (hbody : c₁.requestBody = Body.new framing)
      (hallowed : allowed = attempts framing matched.backend.endpoints.length
        w.config.maxConnectAttempts)
      (htargets : targetsOf matched.backend first allowed = target :: others)
      (hframe : Frame fd w w₂) (hframed : ∀ e, c₁.book.current = some e → e.framing = framing)
      (hbegun : Begun c₁) :
      Shift fd w c (launched ans target w₂
        (dispatched ans w₁ c₁ w₁.routes matched framing first (target :: others) target).2)
  | released {c : Conn} (hdue : Due c) : Shift fd w c (letLoose c)
  | retried {w₂ : World} {c : Conn} {addr : SocketAddr} (hdue : Due c)
      (hheld : c.inflightHeld = false)
      (hleft : c.pooledRace = true ∨ (c.committed = false ∧ c.attempt + 1 < c.targets.length))
      (haddr : c.requeued.targets[c.requeued.attempt]? = some addr) (hframe : Frame fd w w₂) :
      Shift fd w c (launched ans addr w₂ c.requeued)
  | lost {c : Conn} (hown : c.upBorrowed = false) (hphase : c.phase ≠ .head) (garbled : Bool)
      (hcause : garbled = false → .failed c ∈ w.moments)
      (hgarbled : garbled = true → c.phase = .exchanging ∧ c.responseHeadSeen = false)
      (hanswered : garbled = true → Answered c) :
      Shift fd w c { c with upstream := none, committed := garbled || c.committed }

variable {env} {ans} {calm} {s : Bool} {w w' : World} {fd : Fd} {c c' : Conn}

theorem slot_image {f : World → Fd → World} {g : Conn → Conn}
    (hslot : ∀ c, w.slots fd = .client c → (f w fd).slots fd = .client (g c))
    (hnone : (∀ c, w.slots fd ≠ .client c) → f w fd = w)
    (hslot' : (f w fd).slots fd = .client c') : ∃ c, w.slots fd = .client c ∧ c' = g c := by
  by_cases hclient : ∃ c, w.slots fd = .client c
  · obtain ⟨c, hc⟩ := hclient
    rw [hslot c hc, Slot.client.injEq] at hslot'
    exact ⟨c, hc, hslot'.symm⟩
  · have hsame := hnone fun c hc => hclient ⟨c, hc⟩
    rw [hsame] at hslot'
    exact ⟨c', hslot', absurd ⟨c', hslot'⟩ hclient⟩

/-- After a move, the connection on its descriptor is the one from before it, shifted. -/
theorem move_shift (h : Kept s w) (hmove : Move env ans calm fd w w')
    (hslot' : w'.slots fd = .client c') :
    ∃ c, w.slots fd = .client c ∧ Shift env ans calm fd w c c' := by
  have hstill : Hands env ans calm (w, c') (w, c') := .refl
  have hsame : Shift env ans calm fd w c' c' := .hands hstill
  cases hmove with
  | put hslot hands =>
      rw [setClient_slot, Slot.client.injEq] at hslot'
      exact ⟨_, hslot, hslot' ▸ .hands hands⟩
  | fail hslot hfailing status body close unsupported hown hgivenUp hbegun =>
      rw [fail_slot hslot, Slot.client.injEq] at hslot'
      exact ⟨_, hslot,
        hslot' ▸ .refused hfailing status body close unsupported hown hgivenUp hbegun⟩
  | rejected | failed => exact ⟨c', hslot', hsame⟩
  | finish hslot hseen hdone hphase =>
      rw [finish_slot hslot, Slot.client.injEq] at hslot'
      exact ⟨_, hslot, hslot' ▸ .finished hseen hdone hphase⟩
  | handOff hslot hgiven hdispatch =>
      rw [(vacated_handOff hslot hgiven hdispatch).empty] at hslot'
      cases hslot'
  | preface hslot hphase hpreface hdispatch =>
      rw [(vacated_handOff (setClient_slot ..) rfl hdispatch).empty] at hslot'
      cases hslot'
  | flushDown =>
      obtain ⟨c, hc, rfl⟩ := slot_image (fun _ => flushDown_slot)
        (fun hnone => by
          unfold Serving.flushDown
          split
          · exact absurd ‹_› (hnone _)
          · rfl) hslot'
      exact ⟨c, hc, .flushedDown⟩
  | flushUp =>
      obtain ⟨c, hc, rfl⟩ := slot_image (fun _ => flushUp_slot)
        (fun hnone => by
          unfold Serving.flushUp
          split
          · exact absurd ‹_› (hnone _)
          · rfl) hslot'
      exact ⟨c, hc, .flushedUp⟩
  | readUp =>
      obtain ⟨c, hc, rfl⟩ := slot_image (fun _ => readUp_slot)
        (fun hnone => by
          unfold Serving.readUp
          split
          · exact absurd ‹_› (hnone _)
          · rfl) hslot'
      exact ⟨c, hc, .watchedUp⟩
  | readDown hgiven =>
      obtain ⟨c, hc, rfl⟩ := slot_image (fun _ => readDown_slot)
        (fun hnone => by
          unfold Serving.readDown
          split
          · exact absurd ‹_› (hnone _)
          · rfl) hslot'
      exact ⟨c, hc, .watchedDown (hgiven c hc)⟩
  | settle =>
      unfold settle at hslot'
      split at hslot'
      · split at hslot'
        · rw [close_slots, Function.update_self] at hslot'
          cases hslot'
        · exact ⟨c', hslot', hsame⟩
      · exact ⟨c', hslot', hsame⟩
  | @dispatched w₁ c c₁ matched framing first allowed target others hslot hands hphase hread hbody
      hallowed htargets _ hframed hbegun =>
      have hquiet := hands_quiet hands
      have hquiet' := Quiet.dispatched ans w₁ c₁ w₁.routes matched framing first (target :: others)
        target
      have hfresh := Fresh.of_shape (hands_steady hands (h.steady fd c hslot)).shape hphase
      obtain ⟨-, haddr⟩ := dispatched_aimed ans w₁ hfresh w₁.routes matched framing first
        target others
      have hreached : Frame fd w w₁ := .of_quiet hquiet
      have hframe := (hreached.trans (.of_quiet hquiet')).trans
        (.put fd _ (.client (dispatched ans w₁ c₁ w₁.routes matched framing first
          (target :: others) target).2))
      rw [launched_slot (setClient_slot ..) haddr, Slot.client.injEq] at hslot'
      refine ⟨c, hslot, hslot' ▸ .sent hands hphase hread hbody ?_ htargets hframe hframed hbegun⟩
      rw [hallowed, hreached.config]
  | released hslot hdue =>
      rw [setClient_slot, released_fields, Slot.client.injEq] at hslot'
      exact ⟨_, hslot, hslot' ▸ .released hdue⟩
  | @requeued c addr hslot hdue hheld hleft haddr =>
      rw [launched_slot (setClient_slot ..) haddr, Slot.client.injEq] at hslot'
      exact ⟨_, hslot, hslot' ▸ .retried hdue hheld hleft haddr (.put fd w _)⟩
  | lost hslot hown hphase garbled hcause hgarbled hanswered =>
      rw [setClient_slot, Slot.client.injEq] at hslot'
      exact ⟨_, hslot, hslot' ▸ .lost hown hphase garbled hcause hgarbled hanswered⟩
  | idled =>
      rw [close_slots, Function.update_self] at hslot'
      cases hslot'
  | gone =>
      rw [setSlot_slots, Function.update_self] at hslot'
      cases hslot'

end Shifting

section Lasting

/-- A connection that a core has, had when it left, or had when an exchange of it was over. -/
inductive Seen (w : World) (c : Conn) : Prop
  | slot {fd : Fd} (h : w.slots fd = .client c)
  | archive (h : c ∈ w.archive)
  | finished (h : .finished c ∈ w.moments)

/-- What is true of every new connection and stays true whatever becomes of it. -/
structure Lasting (env : Outside) (inv : Conn → Prop) : Prop where
  new : ∀ (ans : Answers) (w : World) (tls : Bool), inv (newClient ans w tls)
  shift : ∀ {ans : Answers} {fd : Fd} {w : World} {c c' : Conn}, Steady c →
    Shift env ans false fd w c c' → inv c → inv c'
  readDown : ∀ {w : World} {op : Op} {c : Conn} (ans : Answers) (outcome : Outcome), Steady c →
    Live w op .downRead → c.reading = true → c.handOff = false →
    Outcome.fits w op outcome = true → inv c →
    inv (readClient env ans (w.retire op outcome) { c with reading := false } outcome)
  wroteDown : ∀ {c : Conn} (outcome : Outcome), Steady c → c.writing = true → inv c →
    inv (wroteClient c outcome)
  readUp : ∀ {w : World} {op : Op} {c : Conn} (outcome : Outcome), Steady c → Live w op .upRead →
    c.upstream = some op.fd → c.upReading = true → Outcome.fits w op outcome = true → inv c →
    inv (hear c outcome.bytes (stampsOf w op outcome))
  wroteUp : ∀ {op : Op} {c : Conn} (outcome : Outcome), Steady c → c.upstream = some op.fd →
    c.upWriting = true → inv c →
    inv (if outcome = .wrote then delivered c op.payload else { c with upWriting := false })
  connected : ∀ {up : Fd} {c : Conn}, Steady c → c.upstream = some up → c.upBorrowed = true →
    inv c → inv (connected c)
  missed : ∀ {up : Fd} {c : Conn}, Steady c → c.upstream = some up → c.upBorrowed = true →
    inv c → inv { c with upBorrowed := false, upstream := none }
  spared : ∀ {c : Conn}, Steady c → c.phase ≠ .tunnel → inv c → inv (spared c)
  cutOff : ∀ {c : Conn}, Steady c → c.phase = .closing → inv c → inv c.cutOff
  handed : ∀ {c : Conn}, Steady c → c.phase = .head → inv c → inv { c with handOff := true }

variable {env : Outside} {inv : Conn → Prop} {s : Bool} {w w' w₁ : World} {fd x : Fd}
  {c c' d : Conn}

theorem put_slot (hsame : w₁.slots = w.slots) (hx : (w₁.setClient fd d).slots x = .client c') :
    (x = fd ∧ c' = d) ∨ w.slots x = .client c' := by
  by_cases hxf : x = fd
  · subst hxf
    rw [setClient_slot, Slot.client.injEq] at hx
    exact .inl ⟨rfl, hx.symm⟩
  · exact .inr (written_elsewhere hsame hxf hx)

theorem Lasting.slots (h : Lasting env inv) (hkept : Kept s w) (hevent : Event env false s w w')
    (hall : ∀ fd c, w.slots fd = .client c → inv c) (hslot' : w'.slots x = .client c') :
    inv c' := by
  have hput : ∀ {w₁ : World} {fd : Fd} {d : Conn}, w₁.slots = w.slots → inv d →
      (w₁.setClient fd d).slots x = .client c' → inv c' := by
    intro w₁ fd d hsame hd hx
    rcases put_slot hsame hx with ⟨-, rfl⟩ | hold
    · exact hd
    · exact hall x c' hold
  cases hevent with
  | @moved w' ans fd hmove =>
      by_cases hxf : x = fd
      · subst hxf
        obtain ⟨c, hslot, hshift⟩ := move_shift hkept hmove hslot'
        exact h.shift (hkept.steady x c hslot) hshift (hall x c hslot)
      · exact hall x c' ((move_frame hmove).others x c' hxf hslot')
  | readDown ans outcome hop hslot hreading hgiven hfits =>
      exact hput rfl (h.readDown ans outcome (hkept.steady _ _ hslot) hop hreading hgiven hfits
        (hall _ _ hslot)) hslot'
  | wroteDown outcome hop hslot hwriting =>
      exact hput rfl (h.wroteDown outcome (hkept.steady _ _ hslot) hwriting (hall _ _ hslot)) hslot'
  | readUp outcome hop hup hslot hattached hown hreading hfits =>
      exact hput rfl (h.readUp outcome (hkept.steady _ _ hslot) hop hattached hreading hfits
        (hall _ _ hslot)) hslot'
  | wroteUp outcome hop hup hslot hattached hown hwriting =>
      exact hput rfl (h.wroteUp outcome (hkept.steady _ _ hslot) hattached hwriting
        (hall _ _ hslot)) hslot'
  | connected hmem hup hslot hattached hlent =>
      exact hput rfl (h.connected (hkept.steady _ _ hslot) hattached hlent (hall _ _ hslot)) hslot'
  | @missed up down c hmem hup hslot hattached hlent =>
      rcases put_slot rfl hslot' with ⟨-, rfl⟩ | hcleared
      · exact h.missed (hkept.steady _ _ hslot) hattached hlent (hall _ _ hslot)
      · have hcleared : Function.update w.slots up .empty x = .client c' := hcleared
        by_cases hxu : x = up
        · subst hxu
          rw [Function.update_self] at hcleared
          cases hcleared
        · rw [Function.update_of_ne hxu] at hcleared
          exact hall x c' hcleared
  | @started fd ans tls hfree hserving =>
      exact hput rfl (h.new ans w tls) hslot'
  | spared hslot hdraining hphase hserving hfresh =>
      exact hput rfl (h.spared (hkept.steady _ _ hslot) hphase (hall _ _ hslot)) hslot'
  | @cut fd c ans hweak hslot =>
      rw [close_slots] at hslot'
      by_cases hxf : x = fd
      · subst hxf
        rw [Function.update_self] at hslot'
        cases hslot'
      · rw [Function.update_of_ne hxf] at hslot'
        exact hall x c' hslot'
  | published | elapsed => exact hall x c' hslot'
  | aside hbeside => exact hall x c' (((aside_apart hbeside).clients x c').mp hslot')

/-- An event keeps what lasts, of the connections there are, of those that left and of those that
finished an exchange. -/
theorem Lasting.event (h : Lasting env inv) (hkept : Kept s w) (hevent : Event env false s w w')
    (hall : ∀ c, Seen w c → inv c) : ∀ c, Seen w' c → inv c := by
  have hslots : ∀ fd c, w.slots fd = .client c → inv c := fun _ c hc => hall c (.slot hc)
  rintro c (hslot | hleft | hended)
  · exact h.slots hkept hevent hslots hslot
  · rcases event_archive hkept hevent with hsame | ⟨x, c₀, d, hslot, -, hleaves, hgrown⟩
    · exact hall c (.archive (hsame ▸ hleft))
    · rw [hgrown] at hleft
      rcases List.mem_append.mp hleft with hold | hnew
      · exact hall c (.archive hold)
      · rw [List.mem_singleton.mp hnew]
        have hsteady := hkept.steady x c₀ hslot
        have hc₀ := hslots x c₀ hslot
        cases hleaves with
        | departed hdeparts =>
            cases hdeparts with
            | settled hphase => exact h.cutOff hsteady hphase hc₀
            | handed | idled => exact hc₀
            | preface hphase => exact h.handed hsteady hphase hc₀
        | cut => exact hc₀
  · have hends : Moment.Ends (.finished c) := trivial
    rcases event_ends hevent hends hended with hold | ⟨fd, hnew⟩
    · exact hall c (.finished hold)
    · cases hnew with
      | finished hslot => exact hslots fd c hslot

variable {config : Config} {fixtures : Fixtures} {pool : Nat × Nat} {routes : Snapshot}
  {routeSlots : Nat → RouteSlot} {inflight : Nat → Nat}

/-- What lasts is true of every connection seen in any run. -/
theorem Lasting.always {good : Machine → Prop} (h : Lasting env inv)
    (hgood : ∀ m, (∀ c, Seen m.world c → inv c) → good m) {acts : List Act}
    (htime : Meets (step env) OnTime (begun config fixtures pool routes routeSlots inflight) acts) :
    Always (step env) good (begun config fixtures pool routes routeSlots inflight) acts := by
  have hnobody : ∀ c, Seen (initial config fixtures pool routes routeSlots inflight) c → inv c := by
    rintro c (hslot | hleft | hended)
    · cases hslot
    · cases hleft
    · cases hended
  exact always_of_events (fun s w w' hkept hevent hall => h.event hkept hevent hall) hgood hnobody
    htime

end Lasting

end Ramjet.Engine.Worker.Shifts
