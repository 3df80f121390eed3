/- digest: A pooled connection that fails a request makes way for a fresh one, once. -/

import Ramjet.Engine.Worker.Steering

set_option autoImplicit false
set_option relaxedAutoImplicit false

namespace Ramjet.Engine.Worker.PooledRetries

open Ramjet.Base.Octets
open Ramjet.Base.Net
open Ramjet.Base.Machine
open Ramjet.Engine.Codec.MessageHead
open Ramjet.Engine.Codec.BodyFraming
open Ramjet.Engine.Headers
open Ramjet.Engine.IdlePool
open Ramjet.Engine.Route
open Ramjet.Engine.Worker.Connection
open Ramjet.Engine.Worker.Core
open Ramjet.Engine.Worker.Requests
open Ramjet.Engine.Worker.Handlers
open Ramjet.Engine.Worker.Loop
open Ramjet.Engine.Worker.Moves
open Ramjet.Engine.Worker.Images
open Ramjet.Engine.Worker.Keeping
open Ramjet.Engine.Worker.Arrivals
open Ramjet.Engine.Worker.Alterations
open Ramjet.Engine.Worker.Coherence
open Ramjet.Engine.Worker.Inflight
open Ramjet.Engine.Worker.Shifts
open Ramjet.Engine.Worker.Relaying
open Ramjet.Engine.Worker.Retries
open Ramjet.Engine.Worker.Steering
open Ramjet.Router.Stats

/-- A connection on which one more thing is tried. -/
structure Launched (c c' : Conn) (t : Try) : Prop where
  endpoint : t.endpoint = c.endpoint
  current : c'.book.current = c.book.current.map fun e => { e with tried := e.tried ++ [t] }
  past : c'.book.past = c.book.past
  aim : aimOf c' = { aimOf c with fromPool := c'.fromPool }
  held : c'.fromPool = t.pooled ∨ (c'.fromPool = c.fromPool ∧ t.pooled = false)
  committed : c'.committed = c.committed
  seen : c'.responseHeadSeen = c.responseHeadSeen
  busy : c.phase ≠ .head → c'.phase ≠ .head

section Lives

variable {env : Outside} {ans : Answers} {calm : Bool} {w w' : World} {fd : Fd} {c c' : Conn}
  {e : Exchange} {before : List Try} {t next : Try}

theorem launched_tries (ans : Answers) (addr : SocketAddr) (w : World) (c : Conn) :
    ∃ t, Launched c (launched ans addr w c) t := by
  obtain ⟨held, hheld⟩ := holdInflight_fields w
    { c with dispatchedAt := some w.clock, deadline := some (w.clock + w.config.responseTimeout) }
  unfold launched
  rw [hheld]
  dsimp only
  split
  · exact ⟨_, rfl, rfl, rfl, rfl, .inl rfl, rfl, rfl, fun _ => nofun⟩
  · split
    · exact ⟨_, rfl, rfl, rfl, rfl, .inr ⟨rfl, rfl⟩, rfl, rfl, id⟩
    · split
      · exact ⟨_, rfl, rfl, rfl, rfl, .inl rfl, rfl, rfl, fun _ => nofun⟩
      · split
        · exact ⟨_, rfl, rfl, rfl, rfl, .inl rfl, rfl, rfl, fun _ => nofun⟩
        · exact ⟨_, rfl, rfl, rfl, rfl, .inl rfl, rfl, rfl, id⟩

/-- A connection given an upstream goes by what it went by. -/
structure Launched.Same (c c' : Conn) : Prop where
  endpoint : c'.endpoint = c.endpoint
  targets : c'.targets = c.targets
  count : c'.endpointCount = c.endpointCount
  replayable : c'.replayable = c.replayable
  used : c'.poolRetryUsed = c.poolRetryUsed

theorem Launched.same (h : Launched c c' t) : Launched.Same c c' := by
  have haim := h.aim
  unfold aimOf at haim
  rw [Aim.mk.injEq] at haim
  obtain ⟨htargets, hindex, hcount, hattempt, hreplayable, -, hused⟩ := haim
  refine ⟨?_, htargets, hcount, hreplayable, hused⟩
  unfold Conn.endpoint
  rw [hindex, hattempt, hcount]

/-- The first connection tried for a request. -/
theorem guided_first (hlaunched : Launched c c' t)
    (hroom : c.targets.length ≤ max c.endpointCount 1) (hreplayable : c.replayable = true)
    (hunused : c.poolRetryUsed = false) (hfrom : c.fromPool = false)
    (huncommitted : c.committed = false) (hgood : ¬ BadGateway e) (hnil : e.tried = []) :
    Guided c' { e with tried := e.tried ++ [t] } := by
  have hsame := hlaunched.same
  rw [hnil, List.nil_append]
  refine ⟨orderly_singleton t, fun h => ?_, fun before t' hsplit => ?_, fun hcommitted => ?_,
    fun hbad => absurd hbad hgood⟩
  · cases h
  · obtain ⟨rfl, rfl⟩ : [] = before ∧ t = t' := List.append_singleton_inj.mp hsplit
    refine ⟨hlaunched.endpoint.trans hsame.endpoint.symm, ?_, hsame.replayable.trans hreplayable,
      (hsame.used.trans hunused).symm, fun _ => ?_⟩
    · rw [hsame.targets, hsame.count]
      exact hroom
    · rcases hlaunched.held with hheld | ⟨hstill, hfresh⟩
      · exact hheld
      · rw [hstill, hfresh, hfrom]
  · rw [hlaunched.committed, huncommitted] at hcommitted
    cases hcommitted

/-- The next endpoint is another one where there is more than one. -/
theorem endpoint_next (c : Conn) (hroom : c.attempt + 1 < max c.endpointCount 1) :
    (c.endpointIndex + (c.attempt + 1)) % max c.endpointCount 1 ≠ c.endpoint := by
  intro hsame
  have hturn : c.endpointIndex + c.attempt + 1 ≡ c.endpointIndex + c.attempt + 0
      [MOD max c.endpointCount 1] := hsame
  have hone := Nat.ModEq.add_left_cancel' _ hturn
  unfold Nat.ModEq at hone
  rw [Nat.mod_eq_of_lt (by omega), Nat.zero_mod] at hone
  cases hone

/-- Behind a pooled connection that was lost in a race comes one to the same endpoint. -/
theorem waits_raced (h : Waits c before t) (hrace : c.pooledRace = true)
    (hlaunched : Launched c.requeued c' next) :
    Waits c' (before ++ [t]) next ∧
      (t.pooled = true → (next.endpoint = t.endpoint ↔ before.any Try.pooled = false)) := by
  have hsame := hlaunched.same
  have hendpoint : c.requeued.endpoint = c.endpoint := by
    unfold Conn.requeued
    rw [if_pos hrace]
    rfl
  have hstill : c.requeued.targets = c.targets ∧ c.requeued.endpointCount = c.endpointCount ∧
      c.requeued.replayable = c.replayable ∧ c.requeued.poolRetryUsed = true := by
    unfold Conn.requeued
    rw [if_pos hrace]
    exact ⟨rfl, rfl, rfl, rfl⟩
  obtain ⟨htargets, hcount, hreplayable, hused⟩ := hstill
  unfold Conn.pooledRace at hrace
  simp only [Bool.and_eq_true, Bool.not_eq_true'] at hrace
  obtain ⟨⟨⟨hfrom, hunused⟩, -⟩, -⟩ := hrace
  have hpooled : t.pooled = true := (h.held hunused).symm.trans hfrom
  refine ⟨⟨hlaunched.endpoint.trans hsame.endpoint.symm, ?_, ?_, ?_, fun hfresh => ?_⟩,
    fun _ => ⟨fun _ => h.used.trans hunused, fun _ => ?_⟩⟩
  · rw [hsame.targets, hsame.count, htargets, hcount]
    exact h.room
  · exact hsame.replayable.trans (hreplayable.trans h.replayable)
  · rw [hsame.used, hused, List.any_append, List.any_cons, hpooled, Bool.true_or, Bool.or_true]
  · rw [hsame.used, hused] at hfresh
    cases hfresh
  · exact hlaunched.endpoint.trans (hendpoint.trans h.endpoint.symm)

/-- Behind any other connection that was lost comes one to the next endpoint. -/
theorem waits_moved (h : Waits c before t) (hrace : c.pooledRace = false)
    (huncommitted : c.committed = false) (hleft : c.attempt + 1 < c.targets.length)
    (hlaunched : Launched c.requeued c' next) :
    Waits c' (before ++ [t]) next ∧
      (t.pooled = true → (next.endpoint = t.endpoint ↔ before.any Try.pooled = false)) := by
  have hsame := hlaunched.same
  have hstill : c.requeued = { c with
      attempt := c.attempt + 1
      upOutbox := c.requestHead, upInbox := []
      upReading := false, upWriting := false, upReady := false
      responseHeadSeen := false, upHead := c.upHead.reset, phase := .exchanging } := by
    unfold Conn.requeued
    rw [if_neg (by rw [hrace]; exact Bool.false_ne_true)]
  rw [hstill] at hlaunched hsame
  have hfresh : c.poolRetryUsed = false → t.pooled = false := by
    intro hunused
    unfold Conn.pooledRace at hrace
    rw [h.held hunused, hunused, huncommitted, h.replayable] at hrace
    simpa using hrace
  refine ⟨⟨hlaunched.endpoint.trans hsame.endpoint.symm, ?_, ?_, ?_, fun hunused => ?_⟩,
    fun hpooled => ⟨fun hback => ?_, fun hnone => ?_⟩⟩
  · rw [hsame.targets, hsame.count]
    exact h.room
  · exact hsame.replayable.trans h.replayable
  · rw [hsame.used, List.any_append, h.used, List.any_cons, List.any_nil, Bool.or_false]
    cases hused : c.poolRetryUsed with
    | true => rfl
    | false => exact hfresh hused
  · rcases hlaunched.held with hheld | ⟨hback, hnone⟩
    · exact hheld
    · have hunused : c.poolRetryUsed = false := hsame.used.symm.trans hunused
      rw [hback, hnone]
      exact (h.held hunused).trans (hfresh hunused)
  · refine absurd ?_ (endpoint_next c (lt_of_lt_of_le hleft h.room))
    rw [← h.endpoint, ← hback]
    exact hlaunched.endpoint.symm
  · have hunused : c.poolRetryUsed = false := h.used.symm.trans hnone
    rw [hfresh hunused] at hpooled
    cases hpooled

/-- One more connection tried for a request: to the same endpoint where only a pooled one was
lost, else to the next. -/
theorem guided_again (h : Guided c e) (hdue : Due c)
    (hleft : c.pooledRace = true ∨ (c.committed = false ∧ c.attempt + 1 < c.targets.length))
    (hlaunched : Launched c.requeued c' next) :
    Guided c' { e with tried := e.tried ++ [next] } := by
  have hsome : e.tried ≠ [] := fun hnil => by
    have haimed := hdue.aimed
    rw [h.idle hnil] at haimed
    cases haimed
  have hkept : c.requeued.committed = c.committed := by
    unfold Conn.requeued
    split <;> rfl
  have hheeded : Heeded e → Heeded { e with tried := e.tried ++ [next] } :=
    fun ⟨t, ht, hheard⟩ => ⟨t, List.mem_append_left _ ht, hheard⟩
  rcases List.eq_nil_or_concat e.tried with hnil | ⟨before, t, hsplit⟩
  · exact absurd hnil hsome
  rw [List.concat_eq_append] at hsplit
  have hwaits := h.waits before t hsplit
  have hnext : Waits c' (before ++ [t]) next ∧
      (t.pooled = true → (next.endpoint = t.endpoint ↔ before.any Try.pooled = false)) := by
    cases hrace : c.pooledRace with
    | true => exact waits_raced hwaits hrace hlaunched
    | false =>
        obtain ⟨huncommitted, hmore⟩ := hleft.resolve_left (by rw [hrace]; exact Bool.false_ne_true)
        exact waits_moved hwaits hrace huncommitted hmore hlaunched
  refine ⟨?_, fun hnil => ?_, fun front t' htried => ?_, fun hcommitted _ => ?_, fun hbad => ?_⟩
  · show Orderly (e.tried ++ [next])
    rw [hsplit]
    exact Orderly.concat (hsplit ▸ h.orderly) hnext.2
  · exact absurd hnil (by simp)
  · obtain ⟨rfl, rfl⟩ : e.tried = front ∧ next = t' := List.append_singleton_inj.mp htried
    rw [hsplit]
    exact hnext.1
  · rw [hlaunched.committed, hkept] at hcommitted
    exact hheeded (h.heeded hcommitted hdue.seen)
  · rcases h.spent hbad with hnil | hspent | hheard
    · exact absurd hnil hsome
    · rcases hleft with hrace | ⟨huncommitted, hmore⟩
      · rw [hspent.race] at hrace
        cases hrace
      · rcases hspent.left with hcommitted | hover
        · rw [huncommitted] at hcommitted
          cases hcommitted
        · omega
    · exact .inr (.inr (hheeded hheard))

/-- An upstream that has answered something is heeded. -/
theorem heeded_of_answered (ht : Told env c) (he : c.book.current = some e)
    (hanswered : Answered c) : Heeded e := by
  obtain ⟨hseen, h0, hanswer⟩ := hanswered
  have hheard := oneShot_of_answer hanswer
  rw [← (ht.unseen hseen he).2] at hheard
  unfold heard at hheard
  cases hlast : e.tried.getLast? with
  | none =>
      rw [hlast] at hheard
      exact absurd oneShot_nil_response hheard
  | some t =>
      rw [hlast] at hheard
      exact ⟨t, List.mem_of_getLast? hlast, hheard⟩

/-- A request that is answered by its core stays guided. -/
theorem guided_invented (h : Guided c e) (ht : Told env c) (he : c.book.current = some e)
    {status : Nat} (hgivenUp : status = 502 → GivenUp c) (out : Bytes) :
    Guided c { e with
      statuses := e.statuses ++ [status]
      relay := e.relay.map fun r => { r with since := r.since ++ out, intruded := true } } := by
  refine ⟨h.orderly, h.idle, h.waits, h.heeded, fun ⟨hmem, hnone⟩ => ?_⟩
  have hquiet : e.relay = none := Option.map_eq_none_iff.mp hnone
  rcases List.mem_append.mp hmem with hold | hnew
  · exact h.spent ⟨hold, hquiet⟩
  · cases hgivenUp (List.mem_singleton.mp hnew).symm with
    | early hphase => exact .inl ((ht.idle hphase).2 e he).1
    | spent hrace hleft => exact .inr (.inl ⟨hrace, hleft⟩)
    | answered hanswered =>
        have hheeded := heeded_of_answered ht he hanswered
        exact .inr (.inr hheeded)

theorem refusedWith_steered (hg : Steered c) (ht : Told env c) (status : Nat) (body : Bytes)
    (close : Bool) (unsupported : Option Bytes) (hgivenUp : status = 502 → GivenUp c) :
    Steered (refusedWith env c status body close unsupported) := by
  unfold refusedWith answeredSelf
  generalize invented env c status body close unsupported = out
  cases closes c close with
  | true =>
      simp only [Bool.not_true, Bool.false_and, Bool.false_eq_true, if_false, if_true]
      refine ⟨hg.past, fun e' he' hbody => ?_, fun hhead => by cases hhead⟩
      obtain ⟨e, he, rfl⟩ := Option.map_eq_some_iff.mp he'
      have hguided := guided_invented (hg.current e he hbody) ht he hgivenUp out
      exact hguided.alike (.same rfl rfl rfl) (.refl _)
  | false =>
      simp only [Bool.not_false, Bool.true_and, Bool.false_eq_true, if_false]
      have hdropped : ∀ d : Conn, d.book.past = c.book.past → d.book.current = c.book.current →
          Steered (({ d with counted := true }.invent status out).reset) := by
        intro d hpast hcurrent
        refine ⟨fun e' hmem hbody => ?_, (fun _ he => by cases he),
          fun _ => ⟨rfl, rfl, rfl, rfl, fun _ he => by cases he⟩⟩
        have hmem : e' ∈ d.book.past ++ (d.book.invent status out).current.toList := hmem
        rw [hpast] at hmem
        rcases List.mem_append.mp hmem with hold | hnew
        · exact hg.past e' hold hbody
        · have hnew := Option.mem_toList.mp hnew
          obtain ⟨e, he, rfl⟩ := Option.map_eq_some_iff.mp hnew
          rw [hcurrent] at he
          have hguided := guided_invented (hg.current e he hbody) ht he hgivenUp out
          refine hguided.lawful fun hbad => ?_
          exact (ht.before e he (Option.map_eq_none_iff.mp hbad.2)).1
      split
      · exact hdropped _ rfl rfl
      · exact hdropped _ rfl rfl

theorem ended_steered (hg : Steered c) (ht : Told env c) : Steered (letLoose c).ended := by
  have hover : ∀ e ∈ (letLoose c).ended.book.past, e.framing = .empty → Lawful e := by
    intro e hmem hbody
    have hmem : e ∈ c.book.past ++ c.book.current.toList := by
      unfold Conn.ended at hmem
      dsimp only at hmem
      split at hmem <;> exact hmem
    rcases List.mem_append.mp hmem with hold | hnew
    · exact hg.past e hold hbody
    · have he := Option.mem_toList.mp hnew
      exact (hg.current e he hbody).lawful fun hbad => (ht.before e he hbad.2).1
  refine ⟨hover, fun e he => ?_, fun _ => ?_⟩
  · unfold Conn.ended at he
    dsimp only at he
    split at he <;> cases he
  · unfold Conn.ended
    dsimp only
    split <;> exact ⟨rfl, rfl, rfl, rfl, fun _ he => by cases he⟩

theorem flushedDown_unsteered (ans : Answers) (fd : Fd) (c : Conn) :
    Unsteered c (flushedDown ans fd c) := by
  obtain ⟨tls, outbox, given, hsealed, -⟩ := sealed_fields ans.rustls c
  obtain ⟨tls', outbox', hunloaded, -⟩ := unloaded_fields
    { c with tls := tls, outbox := outbox, book := { c.book with given := given } }
  unfold flushedDown
  rw [hsealed]
  dsimp only
  rw [hunloaded]
  split
  · split
    · exact .same rfl rfl rfl rfl rfl id
    · exact .same rfl rfl rfl rfl rfl nofun
  · exact .same rfl rfl rfl rfl rfl id

theorem flushedUp_unsteered (ans : Answers) (c : Conn) : Unsteered c (flushedUp ans c) := by
  unfold flushedUp
  split
  · exact .refl c
  · split
    · split
      · exact ⟨rfl, alike_map (c := c) rfl fun e => alike_last e (fun _ => rfl) fun _ => id,
          .same rfl rfl rfl, fun h => ⟨h, rfl⟩⟩
      · exact .same rfl rfl rfl rfl rfl nofun
    · exact .refl c

theorem watchedUp_unsteered (ans : Answers) (c : Conn) : Unsteered c (watchedUp ans c) := by
  unfold watchedUp
  split
  · exact .refl c
  · split
    · exact .same rfl rfl rfl rfl rfl id
    · exact .refl c

theorem watchedDown_unsteered (ans : Answers) (fd : Fd) (c : Conn) :
    Unsteered c (watchedDown ans fd c) := by
  unfold watchedDown
  split
  · exact .same rfl rfl rfl rfl rfl id
  · exact .refl c

theorem targetsOf_length {matched : Matched} {framing : Framing} (first : Nat)
    {allowed most : Nat} (hallowed : allowed = attempts framing matched.backend.endpoints.length most) :
    (targetsOf matched.backend first allowed).length ≤
      max matched.backend.endpoints.length 1 := by
  have hle : (targetsOf matched.backend first allowed).length ≤ allowed := by
    refine (List.length_filterMap_le _ _).trans ?_
    rw [List.length_range]
  refine hle.trans ?_
  rw [hallowed]
  unfold attempts
  split <;> omega

/-- What one move makes of a connection keeps its requests in order. -/
theorem shift_steered (h : Shift env ans calm fd w c c') (hs : Steady c) (ht : Told env c)
    (hg : Steered c) : Steered c' := by
  cases h with
  | hands h => exact hands_steered h hs ht hg
  | refused _ status body close unsupported _ hgivenUp _ =>
      exact refusedWith_steered hg ht status body close unsupported hgivenUp
  | finished => exact ended_steered hg ht
  | flushedDown => exact hg.unsteered (flushedDown_unsteered ans fd c)
  | flushedUp => exact hg.unsteered (flushedUp_unsteered ans c)
  | watchedUp => exact hg.unsteered (watchedUp_unsteered ans c)
  | watchedDown => exact hg.unsteered (watchedDown_unsteered ans fd c)
  | @sent w₁ w₂ c c₁ matched framing first allowed target others hands hphase _ _ hallowed htargets
      _ hframed =>
      have ht₁ := hands_told hands hs ht
      have hg₁ := hands_steered hands hs ht hg
      have hunaimed := hg₁.head hphase
      have hroom := targetsOf_length first hallowed
      rw [htargets] at hroom
      obtain ⟨hcurrent, hpast⟩ := dispatched_exchanges ans w₁ c₁ w₁.routes matched framing first
        (target :: others) target
      obtain ⟨_, _, _, hfields⟩ := dispatched_fields ans w₁ c₁ w₁.routes matched framing first
        (target :: others) target
      rw [hfields] at hcurrent hpast ⊢
      obtain ⟨t, hlaunched⟩ := launched_tries ans target w₂ _
      refine ⟨?_, fun e' he' hbody => ?_, fun hhead => absurd hhead (hlaunched.busy nofun)⟩
      · rw [hlaunched.past, hpast]
        exact hg₁.past
      · rw [hlaunched.current, hcurrent] at he'
        obtain ⟨e, he, rfl⟩ := Option.map_eq_some_iff.mp he'
        have hempty : framing = .empty := (hframed e he).symm.trans hbody
        refine guided_first hlaunched hroom ?_ hunaimed.unused hunaimed.fromPool
          hunaimed.uncommitted (hunaimed.good e he) ((ht₁.idle hphase).2 e he).1
        rw [hempty]
        rfl
  | released =>
      exact hg.unsteered (.same rfl rfl rfl rfl rfl id)
  | @retried w₂ c addr hdue _ hleft =>
      obtain ⟨next, hlaunched⟩ := launched_tries ans addr w₂ c.requeued
      have hbook : c.requeued.book = c.book := by
        unfold Conn.requeued
        split <;> rfl
      have hbusy : c.requeued.phase ≠ .head := by
        rw [(requeued_aimed hdue).phase]
        nofun
      refine ⟨?_, fun e' he' hbody => ?_, fun hphase => absurd hphase (hlaunched.busy hbusy)⟩
      · rw [hlaunched.past, hbook]
        exact hg.past
      · rw [hlaunched.current, hbook] at he'
        obtain ⟨e, he, rfl⟩ := Option.map_eq_some_iff.mp he'
        exact guided_again (hg.current e he hbody) hdue hleft hlaunched
  | lost hown hphase garbled hcause hgarbled hanswered =>
      refine ⟨hg.past, fun e he hbody => ?_, fun hhead => absurd hhead hphase⟩
      have hguided := hg.current e he hbody
      refine ⟨hguided.orderly, hguided.idle, fun before t hsplit => ?_, fun hcommitted hseen => ?_,
        fun hbad => ?_⟩
      · exact (hguided.waits before t hsplit).alike rfl rfl rfl rfl
      · cases garbled with
        | true => exact heeded_of_answered ht he (hanswered rfl)
        | false => exact hguided.heeded hcommitted hseen
      · rcases hguided.spent hbad with hnil | hspent | hheeded
        · exact .inl hnil
        · refine .inr (.inl (hspent.still rfl fun hcommitted => ?_))
          rw [hcommitted, Bool.or_true]
        · exact .inr (.inr hheeded)

theorem newClient_steered (ans : Answers) (w : World) (tls : Bool) :
    Steered (newClient ans w tls) := by
  unfold newClient
  dsimp only
  split <;> exact ⟨fun _ he => absurd he List.not_mem_nil, (fun _ he => by cases he),
    fun _ => ⟨rfl, rfl, rfl, rfl, fun _ he => by cases he⟩⟩

theorem readClient_unsteered (env : Outside) (ans : Answers) (w : World) (c : Conn)
    (outcome : Outcome) : Unsteered c (readClient env ans w c outcome) := by
  obtain ⟨hcurrent, hpast⟩ := readClient_exchanges env ans w c outcome
  have hphase := (readClient_taken env ans w c outcome).phase
  obtain ⟨_, _, _, _, _, _, _, _, _, _, hfields⟩ := readClient_fields env ans w c outcome
  rw [hfields] at hcurrent hpast hphase ⊢
  refine ⟨hpast, alike_same hcurrent, .same rfl rfl rfl, fun hhead => ?_⟩
  rcases hphase with hsame | hclosing
  · exact ⟨hsame ▸ hhead, rfl⟩
  · exact absurd (hclosing.symm.trans hhead) nofun

theorem wroteClient_unsteered (c : Conn) (outcome : Outcome) :
    Unsteered c (wroteClient c outcome) := by
  unfold wroteClient
  split
  · exact .same rfl rfl rfl rfl rfl id
  · exact .same rfl rfl rfl rfl rfl nofun

/-- What has been heard of a request stays heard. -/
theorem hear_unsteered (c : Conn) (bytes : Bytes) (stamps : List Nat) :
    Unsteered c (hear c bytes stamps) := by
  refine ⟨rfl, alike_map (Option.map_map ..) fun e => ?_, .same rfl rfl rfl,
    fun h => ⟨h, rfl⟩⟩
  have hreceived : Alike e { e with
      relay := e.relay.map fun r => { r with received := r.received ++ bytes } } :=
    ⟨rfl, rfl, id, fun h => ⟨h.1, Option.map_eq_none_iff.mp h.2⟩⟩
  refine hreceived.trans (alike_last _ (fun _ => rfl) fun t hunheard => ?_)
  by_contra hheard
  exact heard_grown hheard hunheard

/-- Whatever becomes of a connection, its requests were tried in order. -/
theorem steered_lasts (env : Outside) : Lasting env fun c => Told env c ∧ Steered c where
  new ans w tls := ⟨(told_lasts env).new ans w tls, newClient_steered ans w tls⟩
  shift hs h := fun ⟨ht, hg⟩ => ⟨shift_told h hs ht, shift_steered h hs ht hg⟩
  readDown ans outcome hs hop hreading hgiven hfits := by
    rintro ⟨ht, hg⟩
    refine ⟨(told_lasts env).readDown ans outcome hs hop hreading hgiven hfits ht, ?_⟩
    rename_i w op c
    have hread : Unsteered c { c with reading := false } :=
      .same rfl rfl rfl rfl rfl id
    exact (hg.unsteered hread).unsteered (readClient_unsteered ..)
  wroteDown outcome hs hwriting := fun ⟨ht, hg⟩ =>
    ⟨(told_lasts env).wroteDown outcome hs hwriting ht,
      hg.unsteered (wroteClient_unsteered _ outcome)⟩
  readUp outcome hs hop hattached hreading hfits := fun ⟨ht, hg⟩ =>
    ⟨(told_lasts env).readUp outcome hs hop hattached hreading hfits ht,
      hg.unsteered (hear_unsteered ..)⟩
  wroteUp outcome hs hattached hwriting := by
    rintro ⟨ht, hg⟩
    refine ⟨(told_lasts env).wroteUp outcome hs hattached hwriting ht, ?_⟩
    split <;>
      exact hg.unsteered (.same rfl rfl rfl rfl rfl id)
  connected hs hattached hlent := by
    rintro ⟨ht, hg⟩
    rename_i up c
    refine ⟨(told_lasts env).connected hs hattached hlent ht, hg.unsteered ⟨rfl, ?_, ?_, nofun⟩⟩
    · exact alike_map (c := c) rfl fun e => alike_last e (fun _ => rfl) fun _ => id
    · exact .same rfl rfl rfl
  missed hs hattached hlent := fun ⟨ht, hg⟩ =>
    ⟨(told_lasts env).missed hs hattached hlent ht,
      hg.unsteered (.same rfl rfl rfl rfl rfl id)⟩
  spared hs hphase := by
    rintro ⟨ht, hg⟩
    refine ⟨(told_lasts env).spared hs hphase ht,
      hg.unsteered ⟨rfl, alike_same rfl, .same rfl rfl rfl, fun hhead => ?_⟩⟩
    unfold spared at hhead
    dsimp only at hhead
    split at hhead
    · cases hhead
    · exact ⟨hhead, rfl⟩
  cutOff hs hphase := fun ⟨ht, hg⟩ =>
    ⟨(told_lasts env).cutOff hs hphase ht,
      hg.unsteered (.same rfl rfl rfl rfl rfl id)⟩
  handed hs hphase := fun ⟨ht, hg⟩ =>
    ⟨(told_lasts env).handed hs hphase ht,
      hg.unsteered (.same rfl rfl rfl rfl rfl id)⟩

end Lives

section Runs

/-- A request is tried on a fresh connection before it leaves an endpoint whose pooled connection
failed it, exactly where it has a body or pooled connections fail it once. -/
theorem retried_of_steered {env : Outside} {c : Conn} {e : Exchange} (ht : Told env c)
    (hg : Steered c) (he : e ∈ c.book.exchanges) :
    Retried e ↔ (e.framing = .empty → FailedOnce e) := by
  by_cases hbody : e.framing = .empty
  · refine retried_iff ?_
    rcases List.mem_append.mp he with hold | hnew
    · exact hg.past e hold hbody
    · have he := Option.mem_toList.mp hnew
      exact (hg.current e he hbody).lawful fun hbad => (ht.before e he hbad.2).1
  · exact ⟨fun _ h => absurd h hbody, fun _ h => absurd h hbody⟩

theorem retried_iff_once (env : Outside) (config : Config) (fixtures : Fixtures) (pool : Nat × Nat)
    (routes : Snapshot) (routeSlots : Nat → RouteSlot) (inflight : Nat → Nat) (acts : List Act)
    (htime : Meets (step env) OnTime
      (begun config fixtures pool routes routeSlots inflight) acts) :
    Always (step env)
      (fun m => ∀ c, Seen m.world c → ∀ e ∈ c.book.exchanges,
        Retried e ↔ (e.framing = .empty → FailedOnce e))
      (begun config fixtures pool routes routeSlots inflight) acts :=
  (steered_lasts env).always
    (fun _ hall c hseen _ he => retried_of_steered (hall c hseen).1 (hall c hseen).2 he) htime

attribute [local instance] fdRoom

/-- A core that keeps two idle connections to an endpoint. -/
def poolingCore : Machine :=
  begun leastConfig leastFixtures (2, 2) leastSnapshot (fun _ => {}) (fun _ => 0)

def leastRequest : Bytes := ascii "GET / HTTP/1.1\r\nHost: a\r\n\r\n"

/-- That request as its upstream is sent it. -/
def leastForwarded : Bytes :=
  writeUpstreamRequest (parseRequestHead .standard leastRequest {}).2 leastRequest
    ⟨leastAnswers.peer, .http⟩ leastEndpoint .empty false none leastAnswers.requestId

/-- A client connects and has its request sent on a connection of its own. -/
def asks (down up : Fd) : List Act :=
  [.complete (leastOp .accept 3 0 0) (.accepted down) leastAnswers,
    .complete (leastOp .downRead down 1 1) (.read leastRequest) leastAnswers,
    .turn { leastAnswers with connect := some (up, true) }, .turn leastAnswers,
    .turn leastAnswers, .turn leastAnswers,
    .complete { leastOp .upWrite up 0 1 with payload := leastForwarded } .wrote leastAnswers,
    .turn leastAnswers, .turn leastAnswers]

/-- The request is answered, and its connection pooled. -/
def pools (up : Fd) : List Act :=
  let response := ascii "HTTP/1.1 200 OK\r\nContent-Length: 0\r\n\r\n"
  [.send up response, .complete (leastOp .upRead up 0 1) (.read response) leastAnswers,
    .turn leastAnswers, .turn leastAnswers, .turn leastAnswers]

/-- Two connections are pooled, and found closed one after the other by one request. -/
def restarted : List Act :=
  asks 5 6 ++ asks 7 8 ++ pools 6 ++ pools 8 ++
    [.complete (leastOp .downRead 5 1 1) (.read leastRequest) leastAnswers,
      .turn leastAnswers, .turn leastAnswers, .turn leastAnswers, .turn leastAnswers,
      .complete (leastOp .upRead 8 0 1) (.read []) leastAnswers,
      .turn leastAnswers, .turn leastAnswers,
      .complete (leastOp .upRead 6 0 1) (.read []) leastAnswers]

theorem restarted_onTime : Meets (step leastOutside) OnTime poolingCore restarted := by
  have htime : checks (step leastOutside) comesInTime poolingCore restarted = true := by
    decide +kernel
  exact meets_of_checks (fun _ _ => onTime_of_comes) htime

/-- An upstream restarts under a request. -/
theorem retried_iff_once_restarted :
    Always (step leastOutside)
      (fun m => ∀ c, Seen m.world c → ∀ e ∈ c.book.exchanges,
        Retried e ↔ (e.framing = .empty → FailedOnce e))
      poolingCore restarted :=
  retried_iff_once leastOutside leastConfig leastFixtures (2, 2) leastSnapshot (fun _ => {})
    (fun _ => 0) restarted restarted_onTime

/-- Whether a request was tried on two pooled connections to one endpoint, and answered 502. -/
def doubled (e : Exchange) : Bool :=
  decide (e.framing = .empty) && e.tried.map choice == [(0, true), (0, true)] &&
    e.statuses == [502] && e.relay.isNone

theorem not_retried_of_doubled {e : Exchange} (h : doubled e = true) : ¬ Retried e := by
  unfold doubled at h
  simp only [Bool.and_eq_true, decide_eq_true_eq, beq_iff_eq, Option.isNone_iff_eq_none] at h
  obtain ⟨⟨⟨hbody, htried⟩, hstatus⟩, hrelay⟩ := h
  obtain ⟨t, rest, hsplit, hfirst, hrest⟩ := List.map_eq_cons_iff.mp htried
  obtain ⟨t', rfl, hsecond⟩ := List.map_eq_singleton_iff.mp hrest
  have hbad : BadGateway e := ⟨by rw [hstatus]; exact List.mem_singleton_self _, hrelay⟩
  have hfailed : FailedOn e [] t ([t'] ++ []) :=
    ⟨hsplit, congrArg Prod.snd hfirst, .inl (List.cons_ne_nil _ _)⟩
  intro hretried
  obtain ⟨fresh, hmem, -, hfresh⟩ := hretried hbody [] t [t'] [] hfailed hbad
  have hpooled : t'.pooled = true := congrArg Prod.snd hsecond
  rw [List.mem_singleton.mp hmem, hpooled] at hfresh
  cases hfresh

/-- Whether a request of the client on a descriptor was. -/
def doubles (fd : Fd) (m : Machine) : Bool :=
  (m.world.slots fd).leaves.any fun c => c.book.exchanges.any doubled

/-- Two stale connections to a restarted upstream cost a request its answer. -/
theorem not_retried_of_restarted :
    Meets (step leastOutside) OnTime poolingCore restarted ∧
      ∃ m c e, run (step leastOutside) poolingCore restarted = some m ∧ Seen m.world c ∧
        e ∈ c.book.exchanges ∧ ¬ Retried e := by
  have hdoubled : (run (step leastOutside) poolingCore restarted).any (doubles 5) = true := by
    decide +kernel
  obtain ⟨m, hrun, hm⟩ := (Option.any_eq_true _ _).mp hdoubled
  obtain ⟨c, hc, he⟩ := List.any_eq_true.mp hm
  obtain ⟨e, hmem, hpools⟩ := List.any_eq_true.mp he
  refine ⟨restarted_onTime, m, c, e, hrun, ?_, hmem, not_retried_of_doubled hpools⟩
  cases hslot : m.world.slots 5 with
  | client d =>
      rw [hslot] at hc
      rw [List.mem_singleton.mp hc]
      exact .slot hslot
  | _ =>
      rw [hslot] at hc
      cases hc

end Runs

end Ramjet.Engine.Worker.PooledRetries
