/- digest: What the exchange of one client connection can do to its core, move by move. -/

import Mathlib.Logic.Relation
import Ramjet.Engine.Worker.Ownership

set_option autoImplicit false
set_option relaxedAutoImplicit false

namespace Ramjet.Engine.Worker.Moves

open Ramjet.Base.Octets
open Ramjet.Base.Net
open Ramjet.Engine.Codec.MessageHead
open Ramjet.Engine.Codec.BodyFraming
open Ramjet.Engine.Headers
open Ramjet.Engine.IdlePool
open Ramjet.Engine.Limits
open Ramjet.Engine.Route
open Ramjet.Engine.Tls
open Ramjet.Engine.Worker.Accounting
open Ramjet.Engine.Worker.Connection
open Ramjet.Engine.Worker.Core
open Ramjet.Engine.Worker.Serving
open Ramjet.Engine.Worker.Requests
open Ramjet.Engine.Worker.Handlers
open Ramjet.Engine.Worker.Loop
open Ramjet.Engine.Worker.Descriptors
open Ramjet.Engine.Worker.Ownership
open Ramjet.Router.Balancing

variable (env : Outside) (ans : Answers) (calm : Bool)

/-- A connection taken out of its slot, with the core around it. -/
abbrev Hand := World × Conn

/-- The head of a connection is the one its inbox starts with. -/
def Read (c : Conn) : Prop := ∃ h0, parseRequestHead .standard c.inbox h0 = (.ok true, c.head)

/-- A connection whose parsed request is begun and none of it taken. -/
structure Begun (c : Conn) : Prop where
  read : Read c
  current : ∃ e, c.book.current = some e ∧ e.head = c.inbox.take c.head.len ∧ e.body = [] ∧
    requestFraming c.head c.inbox = .ok e.framing ∧ c.requestBody = Body.new e.framing

/-- How far the session of a connection is, where it has one. -/
def stage (c : Conn) : Option State := c.tls.map (·.state)

/-- Past its hello and not to be handed over: the connection stays with this core. -/
def Greeted (c : Conn) : Prop :=
  c.handOff = false ∧ stage c ≠ some .hello ∧ stage c ≠ some .ready

/-- A connection whose upstream is gone before a response began, with an endpoint it tried. -/
structure Due (c : Conn) : Prop where
  phase : c.phase ≠ .head
  seen : c.responseHeadSeen = false
  upstream : c.upstream = none
  own : c.upBorrowed = false
  aimed : c.attempt < c.targets.length

/-- A connection about to be given an upstream. -/
structure Aimed (c : Conn) : Prop where
  phase : c.phase = .exchanging
  seen : c.responseHeadSeen = false
  upstream : c.upstream = none
  own : c.upBorrowed = false

section Images

/-- A connection whose next write was taken out of it, or refused. -/
def flushedDown (fd : Fd) (c : Conn) : Conn :=
  let c := c.sealed ans.rustls
  if !c.writing && c.hasPendingOut then
    if ans.submits .downWrite fd then
      { c.unloaded with
        writing := true
        book := { c.book with
          given := c.book.given ++ c.given, submitted := c.book.submitted ++ c.wire } }
    else { c.unloaded with phase := .closing, book := c.book.tear }
  else c

/-- History of a connection whose next write to its upstream was taken out of it. -/
def sentUp (c : Conn) : Book :=
  let lease := { c.book.lease with sent := c.book.lease.sent ++ c.upOutbox }
  { c.book with lease := lease }.onTry fun t => { t with sent := t.sent ++ c.upOutbox }

def flushedUp (c : Conn) : Conn :=
  match c.upstream with
  | none => c
  | some up =>
      if c.upReady && !c.upWriting && !c.upOutbox.isEmpty then
        if ans.submits .upWrite up then
          { c with upOutbox := [], upWriting := true, book := sentUp c }
        else { c with upOutbox := [], phase := .closing, book := c.book.sever }
      else c

def watchedUp (c : Conn) : Conn :=
  match c.upstream with
  | none => c
  | some up =>
      if !c.upReading && c.wantsUpstreamBytes && ans.submits .upRead up then
        { c with upReading := true }
      else c

def watchedDown (fd : Fd) (c : Conn) : Conn :=
  if !c.reading && c.wantsClientBytes && ans.submits .downRead fd then { c with reading := true }
  else c

/-- A connection its core answered itself. -/
def answeredSelf (c : Conn) (status : Nat) (out : Bytes) (close : Bool) : Conn :=
  let c := if !close && !c.headConsumed then c.dropHead else c
  let c := { c with counted := true }.invent status out
  if close then { c with phase := .closing } else c.reset

/-- Whether an invented response ends its connection. -/
def closes (c : Conn) (close : Bool) : Bool :=
  close || !c.clientKeepAlive || !c.requestBody.isDone

/-- The bytes of an invented response. -/
def invented (c : Conn) (status : Nat) (body : Bytes) (close : Bool)
    (unsupported : Option Bytes) : Bytes :=
  if c.methodWasHead then
    writeStaticHeadOnlyUnsupported env.enc status body.length (closes c close) unsupported
  else writeStaticUnsupported env.enc status body (closes c close) unsupported

/-- A connection that gave back what its request held. -/
def letLoose (c : Conn) : Conn := { c with inflightHeld := false }

def refusedWith (c : Conn) (status : Nat) (body : Bytes) (close : Bool)
    (unsupported : Option Bytes) : Conn :=
  answeredSelf (letLoose c).cutOff status (invented env c status body close unsupported)
    (closes c close)

end Images

/-- A number the kernel makes for a new socket is one nobody has. -/
def Untaken (w : World) : Prop := ∀ up connected, ans.connect = some (up, connected) →
  w.opened up = false

/-- What an exchange does to its connection and to the counters, and to no descriptor. In a calm
core no exchange that a drain counts is upgraded. -/
inductive Progress : Hand → Hand → Prop
  | parsed {w : World} {c : Conn} (hphase : c.phase = .head)
      (hplain : isH2Preface c.inbox = false) :
      Progress (w, c) (w, { c with head := (parseRequestHead .standard c.inbox c.head).2 })
  | halfSent {w : World} {c : Conn} (hphase : c.phase = .head) (heof : c.clientEof = true) :
      Progress (w, c) (w, { c with phase := .closing })
  | begun {w : World} {c : Conn} (hphase : c.phase = .head) (hread : Read c) :
      Progress (w, c) (w, { c with book := c.book.begin (c.inbox.take c.head.len) })
  | described {w : World} {c : Conn} {framing : Framing} (hphase : c.phase = .head)
      (hread : Read c) (hframing : requestFraming c.head c.inbox = .ok framing) :
      Progress (w, c) (w, Conn.described c framing)
  | routed {w : World} {c : Conn} {matched : Matched} (hphase : c.phase = .head) (hread : Read c) :
      Progress (w, c) (w, Conn.routed c w.routes matched)
  | refused {w : World} {c : Conn} (hphase : c.phase = .head) (hread : Read c) :
      Progress (w, c) (w.remember (.refused c), c)
  | pumped {w w' : World} {c c' : Conn} {progressed : Bool}
      (hphase : c.phase = .exchanging ∨ c.phase = .relaying)
      (hpumped : pumpRequestBody w c = .ok (w', c', progressed)) : Progress (w, c) (w', c')
  | upParsed {w : World} {c : Conn} (hphase : c.phase = .exchanging)
      (hseen : c.responseHeadSeen = false) :
      Progress (w, c)
        (w, { c with upHead := (parseResponseHead .standard c.upInbox c.upHead).2 })
  | tunnelled {w : World} {c : Conn} {asked : Bytes} (hphase : c.phase = .exchanging)
      (hseen : c.responseHeadSeen = false) (hasked : c.upgrade = some asked)
      (hcalm : calm = true → c.drainCounted = false)
      (hstatus : isSwitchingProtocols c.upHead = true)
      (hread : ∃ h0, parseResponseHead .standard c.upInbox h0 = (.ok true, c.upHead)) :
      Progress (w, c) (tunnelled env w c asked)
  | headRelayed {w : World} {c : Conn} {framing : Framing} (hphase : c.phase = .exchanging)
      (hseen : c.responseHeadSeen = false) (hstatus : isSwitchingProtocols c.upHead = false)
      (hread : ∃ h0, parseResponseHead .standard c.upInbox h0 = (.ok true, c.upHead))
      (hframing : responseFraming c.upHead c.upInbox c.methodWasHead = .ok framing) :
      Progress (w, c) (relayHead env w c framing)
  | bodyRelayed {w : World} {c : Conn} {n : Nat} {done : Bool} {body : Body}
      (hphase : c.phase = .relaying) (hopen : c.responseBody.isDone = false)
      (htake : c.responseBody.take c.upInbox = .ok (n, done, body)) :
      Progress (w, c) (w, relayed c n done body)
  | truncated {w : World} {c : Conn} (hseen : c.responseHeadSeen = true) (hup : c.upstream = none) :
      Progress (w, c) (w, { c with phase := .closing, book := c.book.sever })
  | shuttled {w : World} {c : Conn} (hphase : c.phase = .tunnel) :
      Progress (w, c) (w, shuttled ans c)
  | upEnded {w : World} {c : Conn} (hphase : c.phase = .tunnel) (hquiet : c.upReading = false) :
      Progress (w, c) (w, { c with upstreamEof := true, upReading := false })
  | closed {w : World} {c : Conn} (hphase : c.phase ≠ .tunnel) (hseen : c.responseHeadSeen = true)
      (hbody : c.responseBody = .untilClose) : Progress (w, c) (w, closed c)
  | undispatched {w : World} {c : Conn} (hgiven : c.handOff = true)
      (hdispatch : w.config.dispatch = false) : Progress (w, c) (w, { c with phase := .closing })
  | extended {w : World} {c : Conn} (hdue : c.deadline.isSome = true) (now : Nat)
      (hphase : c.phase = .relaying ∨ c.phase = .closing ∨ c.phase = .tunnel) :
      Progress (w, c)
        (w, { c with
          deadline := some (now + w.config.responseTimeout)
          book := c.book.wind now w.config.responseTimeout })

abbrev Hands := Relation.ReflTransGen (Progress env ans calm)

/-- An upstream has said something before any response began: a whole head, or what is none. -/
def Answered (c : Conn) : Prop :=
  c.responseHeadSeen = false ∧ ∃ h0, (parseResponseHead .standard c.upInbox h0).1 ≠ .ok false

/-- When a request is answered 502: before it was dispatched, with no endpoint left to try, or for
what its upstream said. -/
inductive GivenUp (c : Conn) : Prop
  | early (hphase : c.phase = .head)
  | spent (hrace : c.pooledRace = false)
      (hleft : c.committed = true ∨ c.targets.length ≤ c.attempt + 1)
  | answered (hanswered : Answered c)

/-- When the core invents a response: before anything was dispatched, where every endpoint has
failed, or in an exchange that cannot go on. -/
inductive Failing (w : World) (c : Conn) : Prop
  | early (hphase : c.phase = .head) (hinbox : c.inbox ≠ [])
  | late (hphase : c.phase ≠ .head) (hseen : c.responseHeadSeen = false)
      (hserved : c.phase = .exchanging ∨ c.phase = .connecting ∨ c.attempt < c.targets.length)
  | rejected (hphase : c.phase = .exchanging ∨ c.phase = .relaying)
      (hmoment : .rejected c ∈ w.moments)

/-- One move of the exchange on a client's descriptor. -/
inductive Move (fd : Fd) : World → World → Prop
  | put {w w' : World} {c c' : Conn} (hslot : w.slots fd = .client c)
      (hands : Hands env ans calm (w, c) (w', c')) : Move fd w (w'.setClient fd c')
  | fail {w : World} {c : Conn} (hslot : w.slots fd = .client c) (hfailing : Failing w c)
      (status : Nat) (body : Bytes) (close : Bool) (unsupported : Option Bytes)
      (hown : close = false → c.upBorrowed = false) (hgivenUp : status = 502 → GivenUp c)
      (hbegun : close = false → c.phase = .head → Begun c) :
      Move fd w (failUnsupported env ans w fd status body close unsupported)
  | rejected {w : World} {c : Conn} (hslot : w.slots fd = .client c)
      (hphase : c.phase = .exchanging ∨ c.phase = .relaying) :
      Move fd w (w.remember (.rejected c))
  | failed {w : World} {c : Conn} (hslot : w.slots fd = .client c) (hphase : c.phase ≠ .head) :
      Move fd w (w.remember (.failed c))
  | finish {w : World} {c : Conn} (hslot : w.slots fd = .client c)
      (hseen : c.responseHeadSeen = true) (hdone : c.responseBody.isDone = true)
      (hphase : c.phase ≠ .tunnel) : Move fd w (finishResponse ans w fd)
  | handOff {w : World} {c : Conn} (hslot : w.slots fd = .client c) (hgiven : c.handOff = true)
      (hdispatch : w.config.dispatch = true) : Move fd w (Serving.handOff w fd).1
  | preface {w : World} {c : Conn} (hslot : w.slots fd = .client c) (hphase : c.phase = .head)
      (hpreface : isH2Preface c.inbox = true) (hdispatch : w.config.dispatch = true) :
      Move fd w (Serving.handOff (w.setClient fd { c with handOff := true }) fd).1
  | flushDown {w : World} : Move fd w (flushDown ans w fd)
  | flushUp {w : World} : Move fd w (flushUp ans w fd)
  | readUp {w : World} : Move fd w (readUp ans w fd)
  | readDown {w : World} (hgiven : ∀ c, w.slots fd = .client c → c.handOff = false) :
      Move fd w (readDown ans w fd)
  | settle {w : World}
      (hdriven : ∀ c, w.slots fd = .client c → ∃ c₀,
        c = watchedDown ans fd (watchedUp ans (flushedUp ans (flushedDown ans fd c₀)))) :
      Move fd w (settle ans w fd)
  | dispatched {w w' : World} {c c' : Conn} {matched : Matched} {framing : Framing}
      {first allowed : Nat} {target : SocketAddr} {others : List SocketAddr}
      (hslot : w.slots fd = .client c) (hands : Hands env ans calm (w, c) (w', c'))
      (hphase : c'.phase = .head) (hread : Read c') (hbody : c'.requestBody = Body.new framing)
      (hallowed : allowed = attempts framing matched.backend.endpoints.length
        w'.config.maxConnectAttempts)
      (htargets : targetsOf matched.backend first allowed = target :: others)
      (huntaken : Untaken ans w')
      (hframed : ∀ e, c'.book.current = some e → e.framing = framing) (hbegun : Begun c') :
      Move fd w
        (openUpstream env ans
          ((dispatched ans w' c' w'.routes matched framing first (target :: others)
            target).1.setClient fd
            (dispatched ans w' c' w'.routes matched framing first (target :: others) target).2)
          fd).1
  | released {w : World} {c : Conn} (hslot : w.slots fd = .client c) (hdue : Due c) :
      Move fd w ((releaseInflight w c).1.setClient fd (releaseInflight w c).2)
  | requeued {w : World} {c : Conn} {addr : SocketAddr} (hslot : w.slots fd = .client c)
      (hdue : Due c) (hheld : c.inflightHeld = false)
      (hleft : c.pooledRace = true ∨ (c.committed = false ∧ c.attempt + 1 < c.targets.length))
      (haddr : c.requeued.targets[c.requeued.attempt]? = some addr) (huntaken : Untaken ans w) :
      Move fd w (openUpstream env ans (w.setClient fd c.requeued) fd).1
  | lost {w : World} {c : Conn} (hslot : w.slots fd = .client c)
      (hown : c.upBorrowed = false) (hphase : c.phase ≠ .head) (garbled : Bool)
      (hcause : garbled = false → .failed c ∈ w.moments)
      (hgarbled : garbled = true → c.phase = .exchanging ∧ c.responseHeadSeen = false)
      (hanswered : garbled = true → Answered c) :
      Move fd w ((lose ans w c).setClient fd
        { c with upstream := none, committed := garbled || c.committed })
  | idled {w : World} {c : Conn} (hslot : w.slots fd = .client c) (hphase : c.phase = .head) :
      Move fd w (w.close ans fd)
  | gone {w : World} (hslot : w.slots fd = .empty) : Move fd w (w.setSlot fd .empty)

abbrev Steps (fd : Fd) := Relation.ReflTransGen (Move env ans calm fd)

/-- The descriptor of a client connection, or of one that has just left. -/
def Served (w : World) (fd : Fd) : Prop := (∃ c, w.slots fd = .client c) ∨ w.slots fd = .empty

section Slots

@[simp] theorem setClient_slot (w : World) (fd : Fd) (c : Conn) :
    (w.setClient fd c).slots fd = .client c := Function.update_self ..

@[simp] theorem setClient_setClient (w : World) (fd : Fd) (c c' : Conn) :
    (w.setClient fd c).setClient fd c' = w.setClient fd c' := by
  simp [World.setClient, World.setSlot]

theorem served_setClient (w : World) (fd : Fd) (c : Conn) : Served (w.setClient fd c) fd :=
  .inl ⟨c, setClient_slot w fd c⟩

theorem served_fail {w : World} {fd : Fd} {c : Conn} (hslot : w.slots fd = .client c)
    (status : Nat) (body : Bytes) (close : Bool) (unsupported : Option Bytes) :
    Served (failUnsupported env ans w fd status body close unsupported) fd := by
  unfold failUnsupported
  simp only [hslot]
  exact served_setClient ..

variable {env} {ans} {calm} in
theorem Steps.put {w w' : World} {fd : Fd} {c c' : Conn} (hslot : w.slots fd = .client c)
    (hands : Hands env ans calm (w, c) (w', c')) : Steps env ans calm fd w (w'.setClient fd c') :=
  .single (.put hslot hands)

end Slots

section Counters

variable {w w' : World}

/-- Nothing but counters, the mirror lane and history changed. -/
def Quiet (w w' : World) : Prop :=
  ∃ routeSlots mirrored skipped failed ledger moments, w' = { w with
    routeSlots := routeSlots, mirrored := mirrored, mirrorSkipped := skipped
    mirrorFailed := failed, ledger := ledger, moments := moments } ∧ w.moments <+: moments

theorem Quiet.refl (w : World) : Quiet w w := ⟨_, _, _, _, _, _, rfl, List.prefix_rfl⟩

theorem Quiet.trans {w'' : World} (h : Quiet w w') (h' : Quiet w' w'') : Quiet w w'' := by
  obtain ⟨_, _, _, _, _, _, rfl, hnoted⟩ := h
  obtain ⟨_, _, _, _, _, _, rfl, hnoted'⟩ := h'
  exact ⟨_, _, _, _, _, _, rfl, hnoted.trans hnoted'⟩

theorem Quiet.clock (h : Quiet w w') : w'.clock = w.clock := by
  obtain ⟨_, _, _, _, _, _, rfl, -⟩ := h
  rfl

theorem Quiet.config (h : Quiet w w') : w'.config = w.config := by
  obtain ⟨_, _, _, _, _, _, rfl, -⟩ := h
  rfl

theorem Quiet.opened (h : Quiet w w') : w'.opened = w.opened := by
  obtain ⟨_, _, _, _, _, _, rfl, -⟩ := h
  rfl

theorem Quiet.slots (h : Quiet w w') : w'.slots = w.slots := by
  obtain ⟨_, _, _, _, _, _, rfl, -⟩ := h
  rfl

theorem Quiet.moments (h : Quiet w w') : w.moments <+: w'.moments := by
  obtain ⟨_, _, _, _, _, _, rfl, hnoted⟩ := h
  exact hnoted

theorem Quiet.remember (w : World) (m : Moment) : Quiet w (w.remember m) :=
  ⟨_, _, _, _, _, _, rfl, List.prefix_append _ _⟩

theorem Quiet.writeRoute (w : World) (c : Conn)
    (write : Ramjet.Router.Stats.RouteTotals → Ramjet.Router.Stats.RouteTotals) :
    Quiet w (writeRoute w c write) := by
  unfold Accounting.writeRoute
  split
  · exact .refl w
  · exact ⟨_, _, _, _, _, _, rfl, List.prefix_rfl⟩

theorem Quiet.recordResponse (w : World) (c : Conn) (status : Nat) :
    Quiet w (recordResponse w c status).1 := by
  unfold Accounting.recordResponse
  split
  · exact .refl w
  · exact .writeRoute w _ _

theorem Quiet.recordUpstreamLatency (w : World) (c : Conn) :
    Quiet w (recordUpstreamLatency w c) := by
  unfold Accounting.recordUpstreamLatency
  split
  · exact .refl w
  · exact .writeRoute w c _

theorem Quiet.answer (w : World) (c : Conn) (status : Nat) : Quiet w (answer w c status) := by
  unfold Accounting.answer
  split
  · exact ⟨_, _, _, _, _, _, rfl, List.prefix_rfl⟩
  · exact .refl w

theorem Quiet.planMirror (w : World) (c : Conn) (snapshot : Snapshot)
    (spec : Option Ramjet.Router.Rule.MirrorSpec) (framing : Framing) :
    Quiet w (planMirror ans w c snapshot spec framing).1 := by
  unfold Accounting.planMirror
  dsimp only
  repeat' split
  all_goals first | exact .refl w | exact ⟨_, _, _, _, _, _, rfl, List.prefix_rfl⟩

theorem Quiet.sendMirror (w : World) (c : Conn) : Quiet w (sendMirror w c).1 := by
  unfold Accounting.sendMirror
  dsimp only
  repeat' split
  all_goals first | exact .refl w | exact ⟨_, _, _, _, _, _, rfl, List.prefix_rfl⟩

theorem Quiet.dispatched (w : World) (c : Conn) (snapshot : Snapshot) (matched : Matched)
    (framing : Framing) (first : Nat) (targets : List SocketAddr) (target : SocketAddr) :
    Quiet w (dispatched ans w c snapshot matched framing first targets target).1 := by
  unfold Requests.dispatched
  dsimp only
  split
  · exact (Quiet.planMirror ans w _ _ _ _).trans (.sendMirror _ _)
  · exact .planMirror ans w _ _ _ _

theorem Quiet.pumpRequestBody {c c' : Conn} {progressed : Bool}
    (h : pumpRequestBody w c = .ok (w', c', progressed)) : Quiet w w' := by
  unfold Requests.pumpRequestBody at h
  split at h
  · split at h
    · cases h
    · dsimp only at h
      split at h
      · cases h
        exact .sendMirror w _
      · cases h
        exact .refl w
  · cases h
    exact .refl w

end Counters

section Fields

variable {w : World} {c : Conn}

theorem holdInflight_fields (w : World) (c : Conn) :
    ∃ held, (holdInflight w c).2 = { c with inflightHeld := held } := by
  unfold holdInflight
  split
  · exact ⟨c.inflightHeld, rfl⟩
  · split
    · exact ⟨c.inflightHeld, rfl⟩
    · exact ⟨true, rfl⟩

theorem released_fields (w : World) (c : Conn) :
    (releaseInflight w c).2 = { c with inflightHeld := false } := by
  unfold releaseInflight
  cases hheld : c.inflightHeld with
  | true =>
      simp only [if_true]
      split <;> rfl
  | false =>
      rw [if_neg Bool.false_ne_true, ← hheld]

theorem releaseInflight_opened (w : World) (c : Conn) :
    (releaseInflight w c).1.opened = w.opened := by
  unfold releaseInflight
  dsimp only
  split
  · split <;> rfl
  · rfl

theorem close_opened_self (w : World) (ans : Answers) (f : Fd) :
    (w.close ans f).opened f = false := by
  have hself : ((w.countOff f).vacate f).opened f = false := Function.update_self ..
  unfold World.close
  dsimp only
  split
  · exact hself
  · exact hself

theorem close_opened (w : World) (ans : Answers) {f x : Fd} (hx : x ≠ f) :
    (w.close ans f).opened x = w.opened x := by
  have hother : ((w.countOff f).vacate f).opened x = w.opened x := by
    unfold World.countOff
    split <;> exact Function.update_of_ne hx ..
  unfold World.close
  dsimp only
  split
  · exact hother
  · exact hother

theorem sendMirror_fields (w : World) (c : Conn) :
    ∃ mirror, (sendMirror w c).2 = { c with mirror := mirror } := by
  unfold sendMirror
  split
  · exact ⟨c.mirror, rfl⟩
  · dsimp only
    split
    · exact ⟨none, rfl⟩
    · split <;> exact ⟨none, rfl⟩

theorem mirrorBody_fields (config : Config) (c : Conn) (bytes : Bytes) :
    ∃ mirror, mirrorBody config c bytes = { c with mirror := mirror } := by
  unfold mirrorBody
  split
  · exact ⟨c.mirror, rfl⟩
  · split
    · exact ⟨c.mirror, rfl⟩
    · split <;> exact ⟨_, rfl⟩

/-- What moving request-body bytes leaves as it was. -/
theorem pumped_fields {w' : World} {c' : Conn} {progressed : Bool}
    (h : pumpRequestBody w c = .ok (w', c', progressed)) :
    ∃ mirror upOutbox inbox requestBody book, c' = { c with
      mirror := mirror, upOutbox := upOutbox, inbox := inbox, requestBody := requestBody
      book := book } := by
  unfold pumpRequestBody at h
  split at h
  · split at h
    · cases h
    · rename_i n done body htake
      dsimp only at h
      obtain ⟨copied, hcopied⟩ := mirrorBody_fields w.config
        { c with upOutbox := c.upOutbox ++ c.inbox.take n } (c.inbox.take n)
      rw [hcopied] at h
      cases done with
      | false =>
          simp only [Bool.false_eq_true, if_false] at h
          cases h
          exact ⟨_, _, _, _, _, rfl⟩
      | true =>
          simp only [if_true] at h
          obtain ⟨sent, hsent⟩ := sendMirror_fields w
            { c with
              upOutbox := c.upOutbox ++ c.inbox.take n, mirror := copied
              inbox := c.inbox.drop n, requestBody := .done
              book := c.book.takeBody (c.inbox.take n) }
          cases h
          exact ⟨sent, _, _, _, _, hsent⟩
  · cases h
    exact ⟨_, _, _, _, _, rfl⟩

theorem recordResponse_fields (w : World) (c : Conn) (status : Nat) :
    (recordResponse w c status).2 = { c with counted := true } := by
  unfold recordResponse
  split
  · rename_i hcounted
    rw [← hcounted]
  · rfl

theorem relayHead_fields (env : Outside) (w : World) (c : Conn) (framing : Framing) :
    ∃ out, (relayHead env w c framing).2 = { c with
      counted := true, dispatchedAt := none
      upstreamKeepAlive :=
        keepAlive c.upHead c.upInbox c.upHead.version && framing.allowsReuse
      clientKeepAlive := c.clientKeepAlive && framing != .untilClose
      outbox := c.outbox ++ out, upInbox := c.upInbox.drop c.upHead.len
      responseBody := Body.new framing, responseHeadSeen := true, phase := .relaying
      committed := true, deadline := some (w.clock + w.config.responseTimeout)
      book := c.book.relay (c.upHead.status.getD 502) out (c.upInbox.drop c.upHead.len) } := by
  refine ⟨writeDownstreamResponse env.enc.reason c.upHead c.upInbox framing
    (!(c.clientKeepAlive && framing != .untilClose)) none, ?_⟩
  have hquiet := (Quiet.remember w (.relayed c)).trans (Quiet.recordUpstreamLatency _ c)
  simp only [relayHead, recordResponse_fields, hquiet.clock, hquiet.config]

theorem tunnelled_fields (env : Outside) (w : World) (c : Conn) (asked : Bytes) :
    ∃ out, (tunnelled env w c asked).2 = { c with
      counted := true, outbox := c.outbox ++ out ++ c.upInbox.drop c.upHead.len, upInbox := []
      upOutbox := c.upOutbox ++ c.inbox, inbox := []
      responseHeadSeen := true, committed := true, phase := .tunnel
      deadline := none, upstreamKeepAlive := false, dispatchedAt := none
      book := ({ c.book with taken := c.book.taken ++ c.inbox }.relay 101 out
        (c.upInbox.drop c.upHead.len)).queue (c.upInbox.drop c.upHead.len) } := by
  refine ⟨writeDownstreamResponse env.enc.reason c.upHead c.upInbox .empty false
    (some ((upgradeProtocol c.upHead c.upInbox).getD asked)), ?_⟩
  simp only [tunnelled, recordResponse_fields]

theorem closeNotify_state (r : Rustls) (session : Session) :
    (session.sendCloseNotify r).state = session.state := by
  unfold Session.sendCloseNotify
  split <;> rfl

/-- What handing over the bytes of a tunnel leaves as it was. -/
theorem shuttled_fields (ans : Answers) (c : Conn) :
    ∃ tls phase hasty, shuttled ans c = { c with
      upOutbox := c.upOutbox ++ c.inbox, inbox := [], outbox := c.outbox ++ c.upInbox
      upInbox := [], tls := tls, phase := phase
      book := { Book.queue { c.book with taken := c.book.taken ++ c.inbox } c.upInbox with
        hasty := hasty } } ∧
      (phase = c.phase ∨ phase = .closing) ∧ tls.map (·.state) = stage c := by
  unfold shuttled
  dsimp only
  split
  · split
    · rename_i session hsession
      refine ⟨_, _, _, rfl, .inr rfl, ?_⟩
      unfold stage
      rw [show c.tls = some session from hsession, Option.map_some, Option.map_some,
        closeNotify_state]
    · split
      · exact ⟨c.tls, _, _, rfl, .inr rfl, rfl⟩
      · exact ⟨c.tls, c.phase, _, rfl, .inl rfl, rfl⟩
  · exact ⟨c.tls, c.phase, _, rfl, .inl rfl, rfl⟩

theorem planMirror_fields (ans : Answers) (w : World) (c : Conn) (snapshot : Snapshot)
    (spec : Option Ramjet.Router.Rule.MirrorSpec) (framing : Framing) :
    ∃ mirror, (planMirror ans w c snapshot spec framing).2 = { c with mirror := mirror } := by
  unfold planMirror
  dsimp only
  repeat' split
  all_goals exact ⟨_, rfl⟩

/-- A request with somewhere to go, field by field. -/
theorem dispatched_fields (ans : Answers) (w : World) (c : Conn) (snapshot : Snapshot)
    (matched : Matched) (framing : Framing) (first : Nat) (targets : List SocketAddr)
    (target : SocketAddr) :
    ∃ mirror requestHead book,
      (dispatched ans w c snapshot matched framing first targets target).2 = { c with
        mirror := mirror, targets := targets, statsIndex := matched.backend.statsIndex
        endpointIndex := first, endpointCount := matched.backend.endpoints.length
        replayable := framing == .empty, attempt := 0, requestHead := requestHead
        upOutbox := requestHead, snapshot := some snapshot, phase := .exchanging
        inbox := c.inbox.drop c.head.len, headConsumed := true, book := book } := by
  obtain ⟨planned, hplanned⟩ := planMirror_fields ans w
    (Conn.aimed ans c matched framing first targets target) snapshot matched.mirror framing
  unfold dispatched
  dsimp only
  rw [hplanned]
  split
  · obtain ⟨sent, hsent⟩ := sendMirror_fields
      (planMirror ans w (Conn.aimed ans c matched framing first targets target) snapshot
        matched.mirror framing).1
      { Conn.aimed ans c matched framing first targets target with mirror := planned }
    rw [hsent]
    exact ⟨sent, _, _, rfl⟩
  · exact ⟨planned, _, _, by rw [hplanned]; rfl⟩

theorem requeued_aimed (h : Due c) : Aimed c.requeued := by
  unfold Conn.requeued
  split <;> exact ⟨rfl, rfl, h.upstream, h.own⟩

end Fields

section Progressing

variable {env : Outside} {ans : Answers} {calm : Bool} {p q : Hand}

theorem progress_quiet (h : Progress env ans calm p q) : Quiet p.1 q.1 := by
  cases h with
  | refused => exact .remember _ _
  | pumped hphase hpumped => exact .pumpRequestBody hpumped
  | tunnelled =>
      exact ((Quiet.recordUpstreamLatency _ _).trans (.answer _ _ _)).trans
        (.recordResponse _ _ _)
  | headRelayed =>
      exact (((Quiet.remember _ _).trans (.recordUpstreamLatency _ _)).trans (.answer _ _ _)).trans
        (.recordResponse _ _ _)
  | _ => exact .refl _

theorem hands_quiet (h : Hands env ans calm p q) : Quiet p.1 q.1 := by
  induction h with
  | refl => exact .refl _
  | tail _ hstep ih => exact ih.trans (progress_quiet hstep)

end Progressing

end Ramjet.Engine.Worker.Moves
