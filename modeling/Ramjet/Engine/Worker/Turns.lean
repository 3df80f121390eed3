/- digest: The functions of a core that serve one connection, as moves of its exchange. -/

import Ramjet.Engine.Worker.Images

set_option autoImplicit false
set_option relaxedAutoImplicit false

namespace Ramjet.Engine.Worker.Turns

open Ramjet.Base.Octets
open Ramjet.Base.Net
open Ramjet.Engine.Codec.MessageHead
open Ramjet.Engine.Codec.BodyFraming
open Ramjet.Engine.Headers
open Ramjet.Engine.IdlePool
open Ramjet.Engine.Limits
open Ramjet.Engine.Route
open Ramjet.Engine.Tls
open Ramjet.Engine.Worker.Accounting
open Ramjet.Engine.Worker.Connection
open Ramjet.Engine.Worker.Core
open Ramjet.Engine.Worker.Serving
open Ramjet.Engine.Worker.Requests
open Ramjet.Engine.Worker.Handlers
open Ramjet.Engine.Worker.Descriptors
open Ramjet.Engine.Worker.Ownership
open Ramjet.Engine.Worker.Moves
open Ramjet.Engine.Worker.Images
open Ramjet.Router.Balancing

variable (env : Outside) (ans : Answers) (calm : Bool)

/-- A retry is due for the connection on a descriptor. -/
structure Retrying (w : World) (fd : Fd) : Prop where
  due : ∃ c, w.slots fd = .client c ∧ Due c

/-- What a function leaves to do: all of it is about the connection it moved, and a retry comes
first where one is due. -/
def Left (w : World) (fd : Fd) : List Task → Prop
  | [] => True
  | task :: rest =>
      (task = .advance fd ∨ task = .drive fd ∨ (task = .retryOrFail fd ∧ Retrying w fd)) ∧
        ∀ t ∈ rest, t = .advance fd ∨ t = .drive fd

/-- A function moved the exchange on a descriptor, and nothing else. -/
structure Ran (fd : Fd) (w : World) (ran : World × List Task) : Prop where
  steps : Steps env ans calm fd w ran.1
  left : Left ran.1 fd ran.2

section Functions

variable {env} {ans} {calm} {w : World} {fd : Fd} {c : Conn}

theorem Ran.after {w₀ : World} {ran : World × List Task} (hsteps : Steps env ans calm fd w₀ w)
    (h : Ran env ans calm fd w ran) : Ran env ans calm fd w₀ ran :=
  ⟨hsteps.trans h.steps, h.left⟩

theorem Left.concat {tasks : List Task} (h : Left w fd tasks) {task : Task}
    (htask : task = .advance fd ∨ task = .drive fd) : Left w fd (tasks ++ [task]) := by
  cases tasks with
  | nil => exact ⟨htask.imp_right .inl, nofun⟩
  | cons first rest =>
      refine ⟨h.1, fun t ht => ?_⟩
      rcases List.mem_append.mp ht with ht | ht
      · exact h.2 t ht
      · rw [List.mem_singleton.mp ht]
        exact htask

theorem drive_ran (hserved : Served w fd) : Ran env ans calm fd w (drive ans w fd) := by
  unfold drive
  split
  · rename_i c hslot
    split
    · rename_i hgiven
      cases hdispatch : w.config.dispatch with
      | true =>
          refine ⟨.single (.handOff hslot hgiven hdispatch), ?_⟩
          simp [Serving.handOff, hslot, hdispatch, Left]
      | false =>
          have hclosing : Serving.handOff w fd =
              (w.setClient fd { c with phase := .closing }, [.drive fd]) := by
            simp [Serving.handOff, hslot, hdispatch]
          rw [hclosing]
          exact ⟨.put hslot (.single (.undispatched hgiven hdispatch)), .inr (.inl rfl), nofun⟩
    · rename_i hgiven
      have hdown : Steps env ans calm fd w (flushDown ans w fd) := .single .flushDown
      have hwatched : (readUp ans (flushUp ans (flushDown ans w fd) fd) fd).slots fd =
          .client (watchedUp ans (flushedUp ans (flushedDown ans fd c))) :=
        readUp_slot (flushUp_slot (flushDown_slot hslot))
      have hstays : ∀ c', (readUp ans (flushUp ans (flushDown ans w fd) fd) fd).slots fd =
          .client c' → c'.handOff = false := by
        intro c' hc'
        rw [hwatched, Slot.client.injEq] at hc'
        rw [← hc', watchedUp_handOff, flushedUp_handOff, flushedDown_handOff]
        simpa using hgiven
      refine ⟨(((hdown.tail .flushUp).tail .readUp).tail (.readDown hstays)).tail
        (.settle fun c' hc' => ⟨c, ?_⟩), trivial⟩
      rw [readDown_slot hwatched, Slot.client.injEq] at hc'
      exact hc'.symm
  · rename_i hslot
    exact ⟨.single (.gone (hserved.resolve_left fun ⟨c, hc⟩ => hslot c hc)), trivial⟩

theorem exhausted_ran (hslot : w.slots fd = .client c) (h : Due c) (hgivenUp : GivenUp c) :
    Ran env ans calm fd w (exhausted env ans w fd) :=
  .after
    (.single (.fail hslot (.late h.phase h.seen (.inr (.inr h.aimed))) 502 CONNECT_FAILED false none
      (fun _ => h.own) (fun _ => hgivenUp) fun _ hhead => absurd hhead h.phase))
    (drive_ran (served_fail env ans hslot ..))

theorem openUpstream_left (hslot : w.slots fd = .client c) (h : Aimed c) {addr : SocketAddr}
    (haddr : c.targets[c.attempt]? = some addr) :
    Left (openUpstream env ans w fd).1 fd (openUpstream env ans w fd).2 := by
  have hhead : c.phase ≠ .head := by
    rw [h.phase]
    nofun
  have haimed := (List.getElem?_eq_some_iff.mp haddr).1
  unfold openUpstream
  simp only [hslot, haddr]
  obtain ⟨held, hheld⟩ := holdInflight_fields w
    { c with dispatchedAt := some w.clock, deadline := some (w.clock + w.config.responseTimeout) }
  rw [hheld]
  split
  · exact ⟨.inl rfl, nofun⟩
  · split
    · exact ⟨.inr (.inr ⟨rfl, ⟨_, setClient_slot .., hhead, h.seen, h.upstream, h.own, haimed⟩⟩),
        nofun⟩
    · split
      · exact ⟨.inl rfl, nofun⟩
      · split
        · exact trivial
        · exact ⟨.inr (.inr ⟨rfl, ⟨_, setClient_slot .., hhead, h.seen, rfl, h.own, haimed⟩⟩),
            nofun⟩

/-- A connection that may be tried again has an endpoint to try. -/
theorem requeued_target (h : Due c)
    (hleft : c.pooledRace = true ∨ (c.committed = false ∧ c.attempt + 1 < c.targets.length)) :
    ∃ addr, c.requeued.targets[c.requeued.attempt]? = some addr := by
  unfold Conn.requeued
  cases hrace : c.pooledRace with
  | true => exact ⟨_, List.getElem?_eq_getElem h.aimed⟩
  | false =>
      have hnext := (hleft.resolve_left (by simp [hrace])).2
      exact ⟨_, List.getElem?_eq_getElem hnext⟩

theorem retryOrFail_ran (hslot : w.slots fd = .client c) (h : Due c) (huntaken : Untaken ans w) :
    Ran env ans calm fd w (retryOrFail env ans w fd) := by
  have hreleased : Steps env ans calm fd w
      ((releaseInflight w c).1.setClient fd (releaseInflight w c).2) :=
    .single (.released hslot h)
  have hopened : (releaseInflight w c).1.opened = w.opened := releaseInflight_opened w c
  unfold retryOrFail
  simp only [hslot]
  rw [released_fields] at hreleased ⊢
  have hdue : Due { c with inflightHeld := false } := ⟨h.phase, h.seen, h.upstream, h.own, h.aimed⟩
  split
  · rename_i hspent
    simp only [Bool.and_eq_true, Bool.not_eq_true', Bool.or_eq_true, decide_eq_true_eq] at hspent
    exact .after hreleased (exhausted_ran (setClient_slot ..) hdue (.spent hspent.1 hspent.2))
  · rename_i hleft
    have hleft' : Conn.pooledRace { c with inflightHeld := false } = true ∨
        (c.committed = false ∧ c.attempt + 1 < c.targets.length) := by
      simp only [Bool.and_eq_true, Bool.not_eq_true', Bool.or_eq_true, decide_eq_true_eq, not_and_or,
        not_or, Bool.not_eq_false, Bool.not_eq_true, Nat.not_le] at hleft
      exact hleft
    obtain ⟨addr, haddr⟩ := requeued_target hdue hleft'
    have huntaken' : Untaken ans ((releaseInflight w c).1.setClient fd
        { c with inflightHeld := false }) := by
      intro up connected hup
      exact (congrFun hopened up).trans (huntaken up connected hup)
    have hrequeued := hreleased.tail
      (.requeued (setClient_slot ..) hdue rfl hleft' haddr huntaken')
    rw [setClient_setClient] at hrequeued
    exact ⟨hrequeued, openUpstream_left (setClient_slot ..) (requeued_aimed hdue) haddr⟩

theorem retryDue_ran (h : Retrying w fd) (huntaken : Untaken ans w) :
    Ran env ans calm fd w (retryOrFail env ans w fd) := by
  obtain ⟨c, hslot, hdue⟩ := h.due
  exact retryOrFail_ran hslot hdue huntaken

/-- A closed upstream leaves every free number free. -/
theorem untaken_lose (huntaken : Untaken ans w) (c : Conn) : Untaken ans (lose ans w c) := by
  intro up connected hup
  have hfree := huntaken up connected hup
  unfold lose
  split
  · exact hfree
  · rename_i lost _
    by_cases hlost : up = lost
    · subst hlost
      exact close_opened_self w ans up
    · rw [close_opened w ans hlost]
      exact hfree

theorem upstreamFailed_ran (hslot : w.slots fd = .client c) (hphase : c.phase ≠ .head)
    (hborrowed : c.upBorrowed = false)
    (hdue : c.responseHeadSeen = false → c.attempt < c.targets.length ∧ Untaken ans w) :
    Ran env ans calm fd w (upstreamFailed env ans w fd) := by
  have hnoted : Steps env ans calm fd w (w.remember (.failed c)) := .single (.failed hslot hphase)
  have hslot' : (w.remember (.failed c)).slots fd = .client c := hslot
  have hmoment : .failed c ∈ (w.remember (.failed c)).moments :=
    List.mem_append_right _ (List.mem_singleton.mpr rfl)
  have hlost : Steps env ans calm fd w
      ((lose ans (w.remember (.failed c)) c).setClient fd { c with upstream := none }) :=
    hnoted.tail (.lost hslot' hborrowed hphase false (fun _ => hmoment) nofun nofun)
  unfold upstreamFailed
  simp only [hslot]
  split
  · rename_i hseen
    have hends := hlost.tail (.put (setClient_slot ..) (.single (.truncated hseen rfl)))
    rw [setClient_setClient] at hends
    exact .after hends (drive_ran (served_setClient ..))
  · rename_i hseen
    have hseen' : c.responseHeadSeen = false := by simpa using hseen
    obtain ⟨haimed, huntaken⟩ := hdue hseen'
    have hagain : Due { c with upstream := none } := ⟨hphase, hseen', rfl, hborrowed, haimed⟩
    exact .after hlost (retryOrFail_ran (setClient_slot ..) hagain
      (untaken_lose (w := w.remember (.failed c)) huntaken c))

theorem upstreamGarbage_ran (hslot : w.slots fd = .client c)
    (hphase : c.phase = .exchanging ∨ c.responseHeadSeen = true) (hhead : c.phase ≠ .head)
    (hborrowed : c.upBorrowed = false) (hanswered : c.responseHeadSeen = false → Answered c) :
    Ran env ans calm fd w (upstreamGarbage env ans w fd) := by
  unfold upstreamGarbage
  simp only [hslot]
  split
  · rename_i hseen
    refine upstreamFailed_ran hslot hhead hborrowed fun hunseen => ?_
    rw [hunseen] at hseen
    cases hseen
  · rename_i hseen
    have hseen' : c.responseHeadSeen = false := by simpa using hseen
    have hexchanging : c.phase = .exchanging := hphase.resolve_right hseen
    have hlost : Steps env ans calm fd w
        ((lose ans w c).setClient fd { c with upstream := none, committed := true }) :=
      .single (.lost hslot hborrowed hhead true nofun (fun _ => ⟨hexchanging, hseen'⟩)
        fun _ => hanswered hseen')
    have hfailing : Failing ((lose ans w c).setClient fd
        { c with upstream := none, committed := true })
        { c with upstream := none, committed := true } := .late hhead hseen' (.inl hexchanging)
    have hspent : GivenUp { c with upstream := none, committed := true } :=
      .spent (by simp [Conn.pooledRace]) (.inl rfl)
    exact .after (hlost.tail
      (.fail (setClient_slot ..) hfailing 502 UPSTREAM_FAILED true none nofun (fun _ => hspent)
        nofun))
      (drive_ran (served_fail env ans (setClient_slot ..) ..))

theorem beginTunnel_ran (hslot : w.slots fd = .client c) (hphase : c.phase = .exchanging)
    (hseen : c.responseHeadSeen = false)
    (hcalm : calm = true → c.upgrade.isSome = true → c.drainCounted = false)
    (hstatus : isSwitchingProtocols c.upHead = true)
    (hread : ∃ h0, parseResponseHead .standard c.upInbox h0 = (.ok true, c.upHead)) :
    Ran env ans calm fd w (beginTunnel env ans w fd) := by
  unfold beginTunnel
  simp only [hslot]
  split
  · have hfailing : Failing w c := .late (by rw [hphase]; nofun) hseen (.inl hphase)
    have hanswered : GivenUp c := .answered ⟨hseen, by
      obtain ⟨h0, hread⟩ := hread
      exact ⟨h0, by rw [hread]; nofun⟩⟩
    exact .after (.single (.fail hslot hfailing 502 UPGRADE_FAILED true none nofun
      (fun _ => hanswered) nofun))
      (drive_ran (served_fail env ans hslot ..))
  · rename_i asked hasked
    have hfree : calm = true → c.drainCounted = false :=
      fun hc => hcalm hc (by rw [hasked]; rfl)
    exact ⟨.put hslot (.single (.tunnelled hphase hseen hasked hfree hstatus hread)), trivial⟩

/-- The body of a response relayed, from a connection in hand. -/
theorem relayBody_ran {w₀ : World} {c₀ : Conn} (hslot : w₀.slots fd = .client c₀)
    (hands : Hands env ans calm (w₀, c₀) (w, c)) (hphase : c.phase = .relaying)
    (hseen : c.responseHeadSeen = true) (hborrowed : c.upBorrowed = false) :
    Ran env ans calm fd w₀ ((relayBody env ans w fd c).1, (relayBody env ans w fd c).2.1) := by
  have hhead : c.phase ≠ .head := by rw [hphase]; nofun
  have htunnel : c.phase ≠ .tunnel := by rw [hphase]; nofun
  have hput : Steps env ans calm fd w₀ (w.setClient fd c) := .put hslot hands
  unfold relayBody
  split
  · rename_i hopen
    have hopen' : c.responseBody.isDone = false := by
      simp only [Bool.and_eq_true, Bool.not_eq_true'] at hopen
      exact hopen.1
    split
    · have hnever : c.responseHeadSeen = false → Answered c := fun hunseen => by
        rw [hunseen] at hseen
        cases hseen
      exact .after hput
        (upstreamGarbage_ran (setClient_slot ..) (.inr hseen) hhead hborrowed hnever)
    · rename_i n done body htake
      have hmoved := hands.tail (.bodyRelayed hphase hopen' htake)
      have hplaced : Steps env ans calm fd w₀ (w.setClient fd (relayed c n done body)) :=
        .put hslot hmoved
      dsimp only
      split
      · rename_i hdone
        exact ⟨hplaced.tail (.finish (setClient_slot ..) hseen hdone htunnel), trivial⟩
      · exact ⟨hplaced, trivial⟩
  · split
    · rename_i hdone
      exact ⟨hput.tail (.finish (setClient_slot ..) hseen hdone htunnel), trivial⟩
    · exact ⟨hput, trivial⟩

/-- What a connection is to be for its exchange to move on: past its head, with its own upstream. -/
structure Moving (c : Conn) : Prop where
  phase : c.phase = .exchanging ∨ c.phase = .relaying
  early : c.phase = .exchanging → c.responseHeadSeen = false
  late : c.phase = .relaying → c.responseHeadSeen = true
  own : c.upBorrowed = false

theorem Moving.head (h : Moving c) : c.phase ≠ .head := by
  rcases h.phase with hphase | hphase <;> rw [hphase] <;> nofun

/-- An exchange that its upstream has answered by switching protocols, as its client asked. -/
def Upgraded (c : Conn) : Prop :=
  c.upgrade.isSome = true ∧ (parseResponseHead .standard c.upInbox c.upHead).1 = .ok true ∧
    isSwitchingProtocols (parseResponseHead .standard c.upInbox c.upHead).2 = true

/-- In a calm core, no exchange that a drain counts has been upgraded. -/
def Calm (calm : Bool) (c : Conn) : Prop :=
  calm = true → c.phase = .exchanging → c.drainCounted = true → ¬ Upgraded c

theorem parseResponse_ran (hslot : w.slots fd = .client c) (h : Moving c) (hcalm : Calm calm c) :
    Ran env ans calm fd w ((parseResponse env ans w fd).1, (parseResponse env ans w fd).2.1) := by
  unfold parseResponse
  simp only [hslot]
  split
  · exact ⟨.refl, trivial⟩
  split
  · rename_i hseen
    have hphase : c.phase = .relaying := h.phase.resolve_left fun hearly => by
      rw [h.early hearly] at hseen
      cases hseen
    exact relayBody_ran hslot .refl hphase hseen h.own
  · rename_i hseen
    have hseen' : c.responseHeadSeen = false := by simpa using hseen
    have hphase : c.phase = .exchanging := h.phase.resolve_right fun hlate => hseen (h.late hlate)
    have hparsed : Hands env ans calm (w, c)
        (w, { c with upHead := (parseResponseHead .standard c.upInbox c.upHead).2 }) :=
      .single (.upParsed hphase hseen')
    have hput := Steps.put hslot hparsed
    have hgarbage : (parseResponseHead .standard c.upInbox c.upHead).1 ≠ .ok false →
        Ran env ans calm fd w (upstreamGarbage env ans (w.setClient fd
          { c with upHead := (parseResponseHead .standard c.upInbox c.upHead).2 }) fd) :=
      fun hparse => .after hput (upstreamGarbage_ran (setClient_slot ..) (.inl hphase) h.head h.own
        fun _ => ⟨hseen', c.upHead, hparse⟩)
    split
    · exact ⟨hput, trivial⟩
    · rename_i herror
      exact hgarbage (by rw [herror]; nofun)
    · rename_i hread
      split
      · rename_i hswitching
        have hfree : calm = true → c.upgrade.isSome = true → c.drainCounted = false := by
          intro hc hasked
          cases hcounted : c.drainCounted with
          | true => exact absurd ⟨hasked, hread, hswitching⟩ (hcalm hc hphase hcounted)
          | false => rfl
        exact .after hput (beginTunnel_ran (setClient_slot ..) hphase hseen' hfree hswitching
          ⟨c.upHead, Prod.ext hread rfl⟩)
      · rename_i hstatus
        split
        · exact hgarbage (by rw [hread]; nofun)
        · rename_i framing hframing
          have hmoved := hparsed.tail (.headRelayed hphase hseen' (by simpa using hstatus)
            ⟨c.upHead, Prod.ext hread rfl⟩ hframing)
          refine relayBody_ran hslot hmoved rfl rfl ?_
          obtain ⟨out, hout⟩ := relayHead_fields env w
            { c with upHead := (parseResponseHead .standard c.upInbox c.upHead).2 } framing
          rw [hout]
          exact h.own

/-- What is wrong with a request is never its upstream's fault. -/
theorem status_ne (e : CodecError) : e.status ≠ 502 := by
  cases e <;> simp [CodecError.status]

theorem pumpBodies_ran (hslot : w.slots fd = .client c) (h : Moving c) (hcalm : Calm calm c) :
    Ran env ans calm fd w ((pumpBodies env ans w fd).1, (pumpBodies env ans w fd).2.1) := by
  unfold pumpBodies
  simp only [hslot]
  split
  · rename_i e herror
    have hnoted : Steps env ans calm fd w (w.remember (.rejected c)) :=
      .single (.rejected hslot h.phase)
    have hslot' : (w.remember (.rejected c)).slots fd = .client c := hslot
    have hfailing : Failing (w.remember (.rejected c)) c :=
      .rejected h.phase (List.mem_append_right _ (List.mem_singleton.mpr rfl))
    exact ⟨hnoted.tail (.fail hslot' hfailing _ _ true none nofun
      (fun h502 => absurd h502 (status_ne _)) nofun), trivial⟩
  · rename_i pumped c' progressed hpumped
    have hput : Steps env ans calm fd w (pumped.setClient fd c') :=
      .put hslot (.single (.pumped h.phase hpumped))
    have h' : Moving c' ∧ Calm calm c' := by
      obtain ⟨_, _, _, _, _, rfl⟩ := pumped_fields hpumped
      exact ⟨⟨h.phase, h.early, h.late, h.own⟩, hcalm⟩
    obtain ⟨h', hcalm'⟩ := h'
    split
    · have hnoted : Steps env ans calm fd w ((pumped.remember (.rejected c')).setClient fd c') :=
        hput.tail (.rejected (setClient_slot ..) h'.phase)
      have hfailing : Failing ((pumped.remember (.rejected c')).setClient fd c') c' :=
        .rejected h'.phase (List.mem_append_right _ (List.mem_singleton.mpr rfl))
      exact ⟨hnoted.tail (.fail (setClient_slot ..) hfailing _ _ true none nofun
        (fun h502 => absurd h502 (by decide)) nofun), trivial⟩
    · exact .after hput (parseResponse_ran (setClient_slot ..) h' hcalm')

theorem pumpTunnel_steps (hslot : w.slots fd = .client c) (hphase : c.phase = .tunnel) :
    Steps env ans calm fd w (pumpTunnel ans w fd).1 := by
  unfold pumpTunnel
  simp only [hslot]
  exact .put hslot (.single (.shuttled hphase))

/-- The head of an idle client: nothing upstream of it. -/
structure Fresh (c : Conn) : Prop where
  phase : c.phase = .head
  upstream : c.upstream = none
  seen : c.responseHeadSeen = false
  own : c.upBorrowed = false

/-- A request refused before anything was dispatched for it. -/
theorem early_ran {w₀ : World} (hput : Steps env ans calm fd w₀ (w.setClient fd c))
    (h : Fresh c) (hinbox : c.inbox ≠ []) (status : Nat) (body : Bytes) (close : Bool)
    (unsupported : Option Bytes) (hbegun : close = false → Begun c) :
    Ran env ans calm fd w₀
      (failUnsupported env ans (w.setClient fd c) fd status body close unsupported, []) :=
  ⟨hput.tail (.fail (setClient_slot ..) (.early h.phase hinbox) status body close unsupported
    (fun _ => h.own) (fun _ => .early h.phase) fun hclose _ => hbegun hclose), trivial⟩

theorem dispatched_aimed (ans : Answers) (w : World) (h : Fresh c) (snapshot : Snapshot)
    (matched : Matched) (framing : Framing) (first : Nat) (target : SocketAddr)
    (others : List SocketAddr) :
    Aimed (dispatched ans w c snapshot matched framing first (target :: others) target).2 ∧
      (dispatched ans w c snapshot matched framing first (target :: others)
        target).2.targets[(dispatched ans w c snapshot matched framing first (target :: others)
        target).2.attempt]? = some target := by
  obtain ⟨_, _, _, hfields⟩ :=
    dispatched_fields ans w c snapshot matched framing first (target :: others) target
  rw [hfields]
  exact ⟨⟨rfl, h.seen, h.upstream, h.own⟩, rfl⟩

theorem routeRequest_ran (hslot : w.slots fd = .client c) (h : Fresh c) (hread : Read c)
    (huntaken : Untaken ans w) : Ran env ans calm fd w (routeRequest env ans w fd) := by
  have hphase := h.phase
  have hbegun : Hands env ans calm (w, c)
      (w, { c with book := c.book.begin (c.inbox.take c.head.len) }) :=
    .single (.begun hphase hread)
  unfold routeRequest
  simp only [hslot]
  split
  · exact early_ran (.put hslot hbegun) ⟨hphase, h.upstream, h.seen, h.own⟩ (read_inbox hread)
      _ _ _ _ nofun
  · rename_i framing hframing
    have hdescribed := hbegun.tail (.described hphase hread hframing)
    have hfresh : Fresh (Conn.described
        { c with book := c.book.begin (c.inbox.take c.head.len) } framing) :=
      ⟨hphase, h.upstream, h.seen, h.own⟩
    split
    · exact early_ran (.put hslot hdescribed) hfresh (read_inbox hread) _ _ _ _ nofun
    · split
      · exact early_ran (.put hslot hdescribed) hfresh (read_inbox hread) _ _ _ _
          fun _ => ⟨hread, _, rfl, rfl, rfl, hframing, rfl⟩
      · rename_i matched hmatched
        have hrouted : Hands env ans calm (w, c) (w, Conn.routed (Conn.described
            { c with book := c.book.begin (c.inbox.take c.head.len) } framing) w.routes matched) :=
          hdescribed.tail (.routed hphase hread)
        have hrefused := Steps.put hslot (hrouted.tail (.refused hphase hread))
        have hfresh' : Fresh (Conn.routed (Conn.described
            { c with book := c.book.begin (c.inbox.take c.head.len) } framing) w.routes matched) :=
          ⟨hphase, h.upstream, h.seen, h.own⟩
        have hbegun' : Begun (Conn.routed (Conn.described
            { c with book := c.book.begin (c.inbox.take c.head.len) } framing) w.routes matched) :=
          ⟨hread, _, rfl, rfl, rfl, hframing, rfl⟩
        split
        · exact early_ran hrefused hfresh' (read_inbox hread) _ _ _ _ fun _ => hbegun'
        split
        · exact early_ran hrefused hfresh' (read_inbox hread) _ _ _ _ fun _ => hbegun'
        split
        · exact early_ran hrefused hfresh' (read_inbox hread) _ _ _ _ fun _ => hbegun'
        · rename_i first endpoint hselected
          split
          · exact early_ran hrefused hfresh' (read_inbox hread) _ _ _ _ fun _ => hbegun'
          · rename_i target others htargets
            obtain ⟨haimed, haddr⟩ := dispatched_aimed ans w hfresh' w.routes matched framing first
              target others
            have hframed : ∀ e, (Conn.routed (Conn.described
                { c with book := c.book.begin (c.inbox.take c.head.len) } framing) w.routes
                  matched).book.current = some e → e.framing = framing := by
              intro e he
              cases he
              rfl
            exact ⟨.single
                (.dispatched hslot hrouted hphase hread rfl rfl htargets huntaken hframed hbegun'),
              openUpstream_left (setClient_slot ..) haimed haddr⟩

theorem parseRequest_ran (hslot : w.slots fd = .client c) (h : Fresh c)
    (huntaken : Untaken ans w) : Ran env ans calm fd w (parseRequest env ans w fd) := by
  have hphase := h.phase
  unfold parseRequest
  simp only [hslot]
  split
  · rename_i hpreface
    split
    · rename_i hdispatch
      refine ⟨.single (.preface hslot hphase hpreface hdispatch), ?_⟩
      have hdispatch' : (w.setClient fd { c with handOff := true }).config.dispatch = true :=
        hdispatch
      simp [Serving.handOff, hdispatch', Left]
    · have hinbox : c.inbox ≠ [] := by
        intro hempty
        rw [hempty] at hpreface
        cases hpreface
      exact ⟨.single (.fail hslot (.early hphase hinbox) _ _ _ _ (fun _ => h.own)
        (fun _ => .early hphase) nofun), trivial⟩
  · rename_i hplain
    have hparsed : Hands env ans calm (w, c)
        (w, { c with head := (parseRequestHead .standard c.inbox c.head).2 }) :=
      .single (.parsed hphase (by simpa using hplain))
    have hfresh : Fresh { c with head := (parseRequestHead .standard c.inbox c.head).2 } :=
      ⟨hphase, h.upstream, h.seen, h.own⟩
    split
    · split
      · rename_i heof
        exact ⟨.put hslot (hparsed.tail (.halfSent hphase heof)), trivial⟩
      · exact ⟨.put hslot hparsed, trivial⟩
    · rename_i herror
      have hinbox : c.inbox ≠ [] := by
        intro hempty
        rw [hempty, parse_nothing] at herror
        cases herror
      exact early_ran (.put hslot hparsed) hfresh hinbox _ _ _ _ nofun
    · rename_i hread
      exact .after (.put hslot hparsed) (routeRequest_ran (setClient_slot ..) hfresh
        ⟨c.head, Prod.ext hread rfl⟩ huntaken)

/-- What the phases of a connection say of its upstream, as its owner has it. -/
theorem Moving.of_shape (h : Shape (tiesOf c))
    (hphase : c.phase = .exchanging ∨ c.phase = .relaying) : Moving c := by
  refine ⟨hphase, fun hearly => h.early (.inr hearly), fun hlate => h.late (.inl hlate), ?_⟩
  by_contra hborrowed
  rw [Bool.not_eq_false] at hborrowed
  rcases (h.borrowed hborrowed).2.2.2.2 with hconnecting | hclosing <;>
    rcases hphase with hphase | hphase <;> simp_all [tiesOf]

theorem Fresh.of_shape (h : Shape (tiesOf c)) (hphase : c.phase = .head) : Fresh c :=
  ⟨hphase, (h.head hphase).1, (h.head hphase).2.2.2.2, (h.head hphase).2.1⟩

theorem advance_ran (hshape : ∀ c, w.slots fd = .client c → Shape (tiesOf c))
    (hcalm : ∀ c, w.slots fd = .client c → Calm calm c) (huntaken : Untaken ans w) :
    Ran env ans calm fd w (advance env ans w fd) := by
  unfold advance
  split
  · rename_i c hslot
    split
    · rename_i hphase
      have hparsed : Ran env ans calm fd w (parseRequest env ans w fd) :=
        parseRequest_ran hslot (.of_shape (hshape c hslot) hphase) huntaken
      exact ⟨hparsed.steps, hparsed.left.concat (.inr rfl)⟩
    · rename_i hphase
      have hpumped : Ran env ans calm fd w
          ((pumpBodies env ans w fd).1, (pumpBodies env ans w fd).2.1) :=
        pumpBodies_ran hslot (.of_shape (hshape c hslot) (.inl hphase)) (hcalm c hslot)
      refine ⟨hpumped.steps, hpumped.left.concat ?_⟩
      split
      · exact .inl rfl
      · exact .inr rfl
    · rename_i hphase
      have hpumped : Ran env ans calm fd w
          ((pumpBodies env ans w fd).1, (pumpBodies env ans w fd).2.1) :=
        pumpBodies_ran hslot (.of_shape (hshape c hslot) (.inr hphase)) (hcalm c hslot)
      refine ⟨hpumped.steps, hpumped.left.concat ?_⟩
      split
      · exact .inl rfl
      · exact .inr rfl
    · rename_i hphase
      refine ⟨pumpTunnel_steps hslot hphase, ?_, nofun⟩
      dsimp only
      split
      · exact .inl rfl
      · exact .inr (.inl rfl)
    · exact ⟨.refl, .inr (.inl rfl), nofun⟩
    · exact ⟨.refl, .inr (.inl rfl), nofun⟩
  · exact ⟨.refl, trivial⟩

end Functions

end Ramjet.Engine.Worker.Turns
