/- digest: What moving a connection on makes of the copy of its request and of the mirror lane. -/

import Ramjet.Engine.FramingAgreement
import Ramjet.Engine.Worker.Continuity
import Ramjet.Engine.Worker.Lanes

set_option autoImplicit false
set_option relaxedAutoImplicit false

namespace Ramjet.Engine.Worker.Mirroring

open Ramjet.Base.Octets
open Ramjet.Base.Net
open Ramjet.Engine.Codec.MessageHead
open Ramjet.Engine.Codec.BodyFraming
open Ramjet.Engine.Headers
open Ramjet.Engine.FramingAgreement
open Ramjet.Engine.IdlePool
open Ramjet.Engine.Limits
open Ramjet.Engine.Route
open Ramjet.Engine.Worker.Accounting
open Ramjet.Engine.Worker.Connection
open Ramjet.Engine.Worker.Core
open Ramjet.Engine.Worker.Serving
open Ramjet.Engine.Worker.Requests
open Ramjet.Engine.Worker.Moves
open Ramjet.Engine.Worker.Frames
open Ramjet.Engine.Worker.Images
open Ramjet.Engine.Worker.Alterations
open Ramjet.Engine.Worker.Relaying
open Ramjet.Engine.Worker.Lanes
open Ramjet.Engine.Worker.Effects
open Ramjet.Engine.Worker.Continuity
open Ramjet.Router.Balancing
open Ramjet.Router.Rule

section Sampling

variable (env : Outside) (ans : Answers) (w : World)

/-- A request whose head is read: that head, how its body is framed and what it matches. -/
structure Asked where
  head : Head
  framing : Framing
  matched : Matched

/-- What the request at the front of an inbox asks for, where its connection is about to route
it. -/
def asked (c : Conn) : Option Asked :=
  if c.phase = .head ∧ isH2Preface c.inbox = false then
    match parseRequestHead .standard c.inbox c.head with
    | (.ok true, head) =>
        match requestFraming head c.inbox, head.start with
        | .ok framing, .request _ target _ =>
            (matchRequest env.rx w.routes.table ((routingHost head c.inbox).getD [])
              ((routingPath target c.inbox).getD (ascii "/")) head c.inbox ans.mirrorWord
              ans.canaryWord).map fun matched => ⟨head, framing, matched⟩
        | _, _ => none
    | _ => none
  else none

/-- Whether a request that matched goes on to an upstream: its backend speaks HTTP/1, it is no
gRPC call, and there is an endpoint to try. -/
def dispatches (c : Conn) (a : Asked) : Bool :=
  a.matched.backend.protocol != .h2c && !isGrpc a.head c.inbox &&
    (selectEndpoint a.matched.backend (reading ans w w.routes a.matched.backend ans.cursor)
      ans.pick).any fun chosen =>
        !(targetsOf a.matched.backend chosen.1 (attempts a.framing
          a.matched.backend.endpoints.length w.config.maxConnectAttempts)).isEmpty

/-- Whether a body is framed by something in it, or by the end of its connection. -/
def unmeasured (framing : Framing) : Bool := framing == .chunked || framing == .untilClose

/-- Whether there is nowhere to send the copies of a mirror, or no way to make one. -/
def unsendable (spec : MirrorSpec) : Bool :=
  (w.routes.table.backends[spec.backend]?).any fun backend =>
    backend.endpoints.isEmpty ||
      (selectEndpoint backend (reading ans w w.routes backend ans.mirrorCursor)
        ans.mirrorPick).isNone || !ans.mirrorable

/-- What there is to be done for a sampled request: whether its copy is planned at all, and
whether that is settled at once, by a skip or a failure. -/
structure Plan where
  planned : Bool
  settled : Bool
  deriving DecidableEq

/-- The plan for a request, where it is sampled by its rule's mirror and there is a lane. -/
def sampling (c : Conn) : Option Plan :=
  (asked env ans w c).bind fun a =>
    a.matched.mirror.bind fun spec =>
      if w.config.mirror then
        some
          { planned := dispatches ans w c a &&
              (unmeasured a.framing || (w.routes.table.backends[spec.backend]?).isSome)
            settled := unmeasured a.framing || unsendable ans w spec }
      else none

end Sampling

section Lanes

/-- A copy with more of the body, or without any of it once it is too large. -/
def fed (most : Nat) (copy : MirrorCopy) (bytes : Bytes) : MirrorCopy :=
  if copy.tooLarge then copy
  else if most < copy.body.length + bytes.length then { copy with body := [], tooLarge := true }
  else { copy with body := copy.body ++ bytes }

/-- What planning the copy of a request makes of the lane, and the copy that is begun. -/
inductive Planned (l : Lane) (framing : Framing) : Option Plan → Lane → Option MirrorCopy → Prop
  | passed {s : Option Plan} (h : ∀ p ∈ s, p.planned = false) : Planned l framing s l none
  | settled {p : Plan} {l' : Lane} (hplanned : p.planned = true) (hsettled : p.settled = true)
      (hcount : l' = l.skip ∨ l' = l.fail) : Planned l framing (some p) l' none
  | sent {p : Plan} {copy : MirrorCopy} (hplanned : p.planned = true) (hopen : p.settled = false)
      (hempty : framing = .empty) (hbody : copy.body = []) :
      Planned l framing (some p) (l.send copy) none
  | kept {p : Plan} {copy : MirrorCopy} (hplanned : p.planned = true) (hopen : p.settled = false)
      (hlane : l.config.mirror = true) (hmeasured : unmeasured framing = false)
      (hbody : copy.body = []) (hsmall : copy.tooLarge = false) :
      Planned l framing (some p) l (some copy)

variable {ans : Answers} {w : World} {c : Conn}

theorem mirrorBody_fed (config : Config) (c : Conn) (bytes : Bytes) :
    mirrorBody config c bytes =
      { c with mirror := c.mirror.map fun copy => fed config.mirrorMaxBody copy bytes } := by
  unfold mirrorBody fed
  cases hmirror : c.mirror with
  | none =>
      show c = _
      rw [Option.map_none, ← hmirror]
  | some copy =>
      dsimp only [Option.map_some]
      split
      · rw [← hmirror]
      · split <;> rfl

theorem sendMirror_hand (w : World) (c : Conn) :
    lane (sendMirror w c).1 = c.mirror.elim (lane w) (lane w).hand ∧
      (sendMirror w c).2 = { c with mirror := none } := by
  unfold sendMirror
  cases hmirror : c.mirror with
  | none =>
      refine ⟨rfl, ?_⟩
      show c = _
      rw [← hmirror]
  | some copy =>
      have hconfig : (lane w).config.mirror = w.config.mirror := rfl
      dsimp only [Option.elim]
      unfold Lane.hand
      rw [hconfig]
      split
      · exact ⟨rfl, rfl⟩
      · split <;> exact ⟨rfl, rfl⟩

variable {env : Outside} {c₀ : Conn} {a : Asked}

theorem sampling_of_asked (hasked : asked env ans w c₀ = some a) :
    sampling env ans w c₀ = a.matched.mirror.bind fun spec =>
      if w.config.mirror then
        some
          { planned := dispatches ans w c₀ a &&
              (unmeasured a.framing || (w.routes.table.backends[spec.backend]?).isSome)
            settled := unmeasured a.framing || unsendable ans w spec }
      else none := by
  unfold sampling
  rw [hasked, Option.bind_some]

/-- A request that is dispatched has its copy planned. -/
theorem planMirror_planned (hasked : asked env ans w c₀ = some a)
    (hgoes : dispatches ans w c₀ a = true) (d : Conn) :
    Planned (lane w) a.framing (sampling env ans w c₀)
      (lane (planMirror ans w d w.routes a.matched.mirror a.framing).1)
      (planMirror ans w d w.routes a.matched.mirror a.framing).2.mirror := by
  rw [sampling_of_asked hasked]
  unfold planMirror
  dsimp only
  cases hspec : a.matched.mirror with
  | none => exact .passed nofun
  | some spec =>
      rw [Option.bind_some]
      cases hlane : w.config.mirror with
      | false => exact .passed nofun
      | true =>
          simp only [Bool.not_true, Bool.false_eq_true, if_false, if_true, hgoes, Bool.true_and]
          split
          · rename_i hchunked
            have hunmeasured : unmeasured a.framing = true := hchunked
            refine .settled ?_ ?_ (.inl rfl)
            · simp only [hunmeasured, Bool.true_or]
            · simp only [hunmeasured, Bool.true_or]
          · rename_i hlong
            have hmeasured : unmeasured a.framing = false := Bool.not_eq_true _ |>.mp hlong
            simp only [hmeasured, Bool.false_or]
            cases hbackend : w.routes.table.backends[spec.backend]? with
            | none => exact .passed fun p hp => by cases hp; rfl
            | some backend =>
                have hsend : unsendable ans w spec = (backend.endpoints.isEmpty ||
                    (selectEndpoint backend (reading ans w w.routes backend ans.mirrorCursor)
                      ans.mirrorPick).isNone || !ans.mirrorable) := by
                  unfold unsendable
                  rw [hbackend, Option.any_some]
                dsimp only
                split
                · rename_i hempty
                  refine .settled rfl ?_ (.inr rfl)
                  rw [hsend, hempty]
                  rfl
                · rename_i hsome
                  split
                  · rename_i hpick
                    refine .settled rfl ?_ (.inr rfl)
                    rw [hsend, hpick, Option.isNone_none, Bool.or_true]
                    rfl
                  · rename_i index endpoint hpick
                    split
                    · rename_i hmakes
                      refine .kept rfl ?_ hlane hmeasured rfl rfl
                      rw [hsend, hpick, hmakes, Bool.not_eq_true _ |>.mp hsome]
                      rfl
                    · rename_i hfails
                      refine .settled rfl ?_ (.inr rfl)
                      rw [hsend, Bool.not_eq_true _ |>.mp hfails, Bool.not_false, Bool.or_true]

/-- Of a request that goes on: what became of its plan, and how its body begins. -/
theorem dispatched_planned (w : World) (hasked : asked env ans w c₀ = some a)
    (hgoes : dispatches ans w c₀ a = true) (d : Conn) (hbody : d.requestBody = Body.new a.framing)
    (first : Nat) (targets : List SocketAddr) (target : SocketAddr) :
    Planned (lane w) a.framing (sampling env ans w c₀)
        (lane (dispatched ans w d w.routes a.matched a.framing first targets target).1)
        (dispatched ans w d w.routes a.matched a.framing first targets target).2.mirror ∧
      ((dispatched ans w d w.routes a.matched a.framing first targets target).2.mirror ≠ none →
        ∃ n, a.framing = .length n) := by
  have hplanned := planMirror_planned hasked hgoes
    (Conn.aimed ans d a.matched a.framing first targets target)
  obtain ⟨mirror, hfields⟩ := planMirror_fields ans w
    (Conn.aimed ans d a.matched a.framing first targets target) w.routes a.matched.mirror a.framing
  have hnew : (planMirror ans w (Conn.aimed ans d a.matched a.framing first targets target)
      w.routes a.matched.mirror a.framing).2.requestBody = Body.new a.framing := by
    rw [hfields]
    exact hbody
  unfold dispatched
  dsimp only
  rw [hnew]
  cases hdone : (Body.new a.framing).isDone with
  | false =>
      refine ⟨hplanned, fun hsome => ?_⟩
      have hsome : (planMirror ans w (Conn.aimed ans d a.matched a.framing first targets target)
          w.routes a.matched.mirror a.framing).2.mirror ≠ none := hsome
      generalize (planMirror ans w _ w.routes a.matched.mirror a.framing).2.mirror = made
        at hplanned hsome
      generalize lane (planMirror ans w _ w.routes a.matched.mirror a.framing).1 = l at hplanned
      generalize sampling env ans w c₀ = plan at hplanned
      cases hplanned with
      | kept _ _ _ hmeasured =>
          cases hframing : a.framing with
          | length n => exact ⟨n, rfl⟩
          | empty =>
              rw [hframing] at hdone
              cases hdone
          | chunked | untilClose =>
              rw [hframing] at hmeasured
              cases hmeasured
      | _ => exact absurd rfl hsome
  | true =>
      have hempty : a.framing = .empty := by
        cases hframing : a.framing with
        | empty => rfl
        | _ =>
            rw [hframing] at hdone
            cases hdone
      obtain ⟨hlane, hsent⟩ := sendMirror_hand
        (planMirror ans w (Conn.aimed ans d a.matched a.framing first targets target) w.routes
          a.matched.mirror a.framing).1
        (planMirror ans w (Conn.aimed ans d a.matched a.framing first targets target) w.routes
          a.matched.mirror a.framing).2
      simp only [if_true]
      rw [hsent]
      refine ⟨?_, fun h => absurd rfl h⟩
      show Planned _ _ _ (lane (sendMirror _ _).1) none
      rw [hlane]
      generalize hmade : (planMirror ans w _ w.routes a.matched.mirror a.framing).2.mirror = made
        at hplanned ⊢
      generalize lane (planMirror ans w _ w.routes a.matched.mirror a.framing).1 = l at hplanned ⊢
      generalize sampling env ans w c₀ = plan at hplanned ⊢
      cases hplanned with
      | passed h => exact .passed h
      | settled hyes hsettled hcount => exact .settled hyes hsettled hcount
      | sent hyes hopen hempty hcopy => exact .sent hyes hopen hempty hcopy
      | @kept p copy hyes hopen hlane _ hcopy hsmall =>
          have hhand : (lane w).hand copy = (lane w).send copy := by
            unfold Lane.hand
            rw [hlane, hsmall]
            rfl
          show Planned _ _ _ ((lane w).hand copy) none
          rw [hhand]
          exact .sent hyes hopen hempty hcopy

end Lanes

section Deeds

variable (env : Outside) (ans : Answers) (w : World) (c : Conn)

/-- What a turn makes of a connection and of the lane, before the rest of its requests' effects:
nothing to do with a copy, the beginning of a request, or some bytes of a body. -/
inductive Deed : Lane → Conn → Prop
  | nothing (hnone : sampling env ans w c = none) : Deed (lane w) c
  | begun {c₁ : Conn} {e : Exchange} {l : Lane} (hphase : c.phase = .head) (hidle : Idle c₁)
      (hpast : c.book.past.length ≤ c₁.book.past.length)
      (hat : c₁.book.exchanges[c.book.past.length]? = some e) (hbody : e.body = [])
      (hplanned : Planned (lane w) e.framing (sampling env ans w c) l c₁.mirror)
      (hcopy : c₁.mirror ≠ none → ∃ n, e.framing = .length n ∧ 0 < n ∧
        c₁.requestBody = .length n ∧ c₁.book.past.length = c.book.past.length) : Deed l c₁
  | taken {c₁ : Conn} {l : Lane} {n : Nat} {done : Bool} {body : Body}
      (hphase : c.phase ≠ .head) (hidle : Idle c₁) (hopen : c.requestBody.isDone = false)
      (htake : c.requestBody.take c.inbox = .ok (n, done, body))
      (hbook : c₁.book = c.book.takeBody (c.inbox.take n))
      (hbody : c₁.requestBody = if done then .done else body)
      (hmirror : c₁.mirror = if done then none
        else c.mirror.map fun copy => fed w.config.mirrorMaxBody copy (c.inbox.take n))
      (hlane : l = if done then
          (c.mirror.map fun copy => fed w.config.mirrorMaxBody copy (c.inbox.take n)).elim
            (lane w) (lane w).hand
        else lane w) : Deed l c₁

/-- The connection on a descriptor, or the last to have left. -/
def after (w : World) (fd : Fd) : Option Conn :=
  match w.slots fd with
  | .client c => some c
  | _ => w.archive.getLast?

/-- A connection moved on: the deed of the turn, and what it was followed by. -/
structure Moved (fd : Fd) (w' : World) : Prop where
  others : ∀ x d, x ≠ fd → w'.slots x = .client d → w.slots x = .client d
  deed : ∃ c₁ c', Deed env ans w c (lane w') c₁ ∧ after w' fd = some c' ∧ Onward c₁ c'

variable {env ans w c} {w₁ w' : World} {fd : Fd} {c₁ : Conn}

theorem after_of_becomes (hslot : w₁.slots fd = .client c₁) (h : Becomes Onward fd w₁ w') :
    ∃ c', after w' fd = some c' ∧ Onward c₁ c' := by
  unfold after
  cases h with
  | @stays c d hsame hslot' hcd =>
      rw [hslot, Slot.client.injEq] at hsame
      rw [hslot']
      exact ⟨d, rfl, hsame ▸ hcd⟩
  | @leaves c d hsame hempty hlast hcd =>
      rw [hslot, Slot.client.injEq] at hsame
      rw [hempty]
      exact ⟨d, hlast, hsame ▸ hcd⟩
  | nobody hnone => exact absurd hslot (hnone c₁)

/-- A deed, and what follows it. -/
theorem Moved.of_does (hframe : ∀ x d, x ≠ fd → w₁.slots x = .client d → w.slots x = .client d)
    (hslot₁ : w₁.slots fd = .client c₁) (hdoes : Does Onward fd w₁ w')
    (hlane : lane w' = lane w₁) (hdeed : Deed env ans w c (lane w₁) c₁) :
    Moved env ans w c fd w' := by
  obtain ⟨c', hafter, honward⟩ := after_of_becomes hslot₁ hdoes.own
  exact ⟨fun x d hx hd => hframe x d hx (hdoes.others x d hx hd), c₁, c',
    hlane ▸ hdeed, hafter, honward⟩

theorem Moved.of_nothing (hslot : w.slots fd = .client c) (hnone : sampling env ans w c = none)
    (hdoes : Does Onward fd w w') (hlane : lane w' = lane w) : Moved env ans w c fd w' :=
  .of_does (fun _ _ _ => id) hslot hdoes hlane (.nothing hnone)

/-- An invented response leaves its connection without a request, or ends it. -/
theorem refused_idle (env : Outside) (c : Conn) (status : Nat) (body : Bytes) (close : Bool)
    (unsupported : Option Bytes) : Idle (refusedWith env c status body close unsupported) := by
  intro hhead
  unfold refusedWith answeredSelf at hhead ⊢
  cases hcloses : closes c close with
  | true =>
      rw [hcloses] at hhead
      cases hhead
  | false => exact ⟨rfl, rfl⟩

/-- A connection whose next request has just begun, before anything is decided of it. -/
structure Fresh (c : Conn) (framing : Framing) (d : Conn) : Prop where
  past : d.book.past = c.book.past
  current : ∃ e, d.book.current = some e ∧ e.framing = framing ∧ e.body = []
  mirror : d.mirror = none

theorem fresh_begin (hnone : c.mirror = none) (head : Head) (bytes : Bytes) :
    Fresh c .empty { c with head := head, book := c.book.begin bytes } :=
  ⟨rfl, ⟨{ head := bytes }, rfl, rfl, rfl⟩, hnone⟩

theorem Fresh.described {d : Conn} {early : Framing} (h : Fresh c early d) (framing : Framing) :
    Fresh c framing (Conn.described d framing) := by
  obtain ⟨e, he, -, hbody⟩ := h.current
  refine ⟨h.past, ⟨{ e with framing := framing }, ?_, rfl, hbody⟩, h.mirror⟩
  show d.book.current.map _ = _
  rw [he]
  rfl

theorem Fresh.routed {d : Conn} {framing : Framing} (h : Fresh c framing d) (snapshot : Snapshot)
    (matched : Matched) : Fresh c framing (Conn.routed d snapshot matched) := by
  obtain ⟨e, he, hframing, hbody⟩ := h.current
  refine ⟨h.past, ⟨{ e with rule := ?_ }, ?_, hframing, hbody⟩, h.mirror⟩
  case refine_2 =>
    show d.book.current.map _ = _
    rw [he]
    rfl

/-- Everything but the connection on its descriptor is as it was. -/
theorem others_put {v : World} (hslots : ∀ x, x ≠ fd → v.slots x = w.slots x) (d : Conn) :
    ∀ x d', x ≠ fd → (v.setClient fd d).slots x = .client d' → w.slots x = .client d' := by
  intro x d' hx hd
  have hother : (v.setClient fd d).slots x = v.slots x := Function.update_of_ne hx ..
  rw [hother, hslots x hx] at hd
  exact hd

/-- A request that is begun and refused: nothing is planned for it. -/
theorem Moved.of_refused {d : Conn} {framing : Framing} (hphase : c.phase = .head)
    (hfresh : Fresh c framing d) (hslots : ∀ x, x ≠ fd → w₁.slots x = w.slots x)
    (hlane : lane w₁ = lane w) (hplan : ∀ p ∈ sampling env ans w c, p.planned = false)
    (status : Nat) (body : Bytes) (close : Bool) (unsupported : Option Bytes) :
    Moved env ans w c fd
      (failUnsupported env ans (w₁.setClient fd d) fd status body close unsupported) := by
  have hslot : (w₁.setClient fd d).slots fd = .client d := setClient_slot ..
  have hslot' : (failUnsupported env ans (w₁.setClient fd d) fd status body close
      unsupported).slots fd = _ := fail_slot hslot status body close unsupported
  have honward := refused_onward env d status body close unsupported
  obtain ⟨e, he, -, hbody⟩ := hfresh.current
  obtain ⟨e', he', -, hsame⟩ := honward.keeps _ e ((exchanges_current d.book).trans he)
  have hmirror : (refusedWith env d status body close unsupported).mirror = none := by
    rcases honward.copy with ⟨hkept, -⟩ | ⟨hdropped, -⟩
    · exact hkept.trans hfresh.mirror
    · exact hdropped
  have hpast := honward.past
  rw [hfresh.past] at he' hpast
  refine .of_does (fun x d' hx hd => ?_) hslot' (.of_slot hslot' (.refl fd _) hslot' (.refl _)) rfl
    (.begun hphase (refused_idle env d _ _ _ _) hpast he' (hsame.trans hbody) ?_
      fun hsome => absurd hmirror hsome)
  · exact others_put hslots d x d' hx ((Frame.fail hslot ..).others x d' hx hd)
  · rw [lane_failUnsupported, lane_setClient, hlane, hmirror]
    exact .passed hplan

theorem asked_eq (env : Outside) (ans : Answers) (w : World) {head : Head}
    (hphase : c.phase = .head) (hplain : isH2Preface c.inbox = false)
    (hparsed : parseRequestHead .standard c.inbox c.head = (.ok true, head)) :
    asked env ans w c =
      match requestFraming head c.inbox, head.start with
      | .ok framing, .request _ target _ =>
          (matchRequest env.rx w.routes.table ((routingHost head c.inbox).getD [])
            ((routingPath target c.inbox).getD (ascii "/")) head c.inbox ans.mirrorWord
            ans.canaryWord).map fun matched => ⟨head, framing, matched⟩
      | _, _ => none := by
  unfold asked
  rw [if_pos ⟨hphase, hplain⟩, hparsed]

theorem unplanned_of_stays {a : Asked} (hasked : asked env ans w c = some a)
    (hstays : dispatches ans w c a = false) : ∀ p ∈ sampling env ans w c, p.planned = false := by
  rw [sampling_of_asked hasked]
  intro p hp
  obtain ⟨spec, -, hspec⟩ := Option.bind_eq_some_iff.mp hp
  split at hspec
  · cases hspec
    rw [hstays]
    rfl
  · cases hspec

theorem unplanned_of_none (hasked : asked env ans w c = none) : sampling env ans w c = none := by
  unfold sampling
  rw [hasked]
  rfl

/-- A request that goes on to an upstream, its copy planned. -/
theorem Moved.of_dispatched {a : Asked} {d : Conn} (hphase : c.phase = .head)
    (hasked : asked env ans w c = some a) (hgoes : dispatches ans w c a = true)
    (hlong : ∀ n, a.framing = .length n → 0 < n) (hfresh : Fresh c a.framing d)
    (hnew : d.requestBody = Body.new a.framing) (c₁ : Conn) (first : Nat)
    (targets : List SocketAddr) (target : SocketAddr) :
    Moved env ans w c fd
      (openUpstream env ans
        ((dispatched ans (w.setClient fd c₁) d w.routes a.matched a.framing first targets
            target).1.setClient fd
          (dispatched ans (w.setClient fd c₁) d w.routes a.matched a.framing first targets
            target).2) fd).1 := by
  have hmade := dispatched_planned (w.setClient fd c₁) hasked hgoes d hnew first targets target
  change Planned (lane w) a.framing (sampling env ans w c)
      (lane (dispatched ans (w.setClient fd c₁) d w.routes a.matched a.framing first targets
        target).1)
      (dispatched ans (w.setClient fd c₁) d w.routes a.matched a.framing first targets
        target).2.mirror ∧
    ((dispatched ans (w.setClient fd c₁) d w.routes a.matched a.framing first targets
      target).2.mirror ≠ none → ∃ n, a.framing = .length n) at hmade
  have hquiet : Quiet (w.setClient fd c₁) _ := .dispatched ans (w.setClient fd c₁) d w.routes
    a.matched a.framing first targets target
  obtain ⟨hcurrent, hpast⟩ := dispatched_exchanges ans (w.setClient fd c₁) d w.routes a.matched
    a.framing first targets target
  obtain ⟨_, _, _, hfields⟩ := dispatched_fields ans (w.setClient fd c₁) d w.routes a.matched
    a.framing first targets target
  have hphase₁ := congrArg Conn.phase hfields
  have hbody₁ := congrArg Conn.requestBody hfields
  dsimp only at hphase₁ hbody₁
  obtain ⟨e, he, hframing, hbody⟩ := hfresh.current
  have hslots : ∀ x, x ≠ fd → (dispatched ans (w.setClient fd c₁) d w.routes a.matched a.framing
      first targets target).1.slots x = w.slots x := by
    intro x hx
    rw [hquiet.slots]
    exact Function.update_of_ne hx ..
  generalize dispatched ans (w.setClient fd c₁) d w.routes a.matched a.framing first targets
    target = sent at *
  obtain ⟨hplanned, hlength⟩ := hmade
  have hpast' : sent.2.book.past = c.book.past := hpast.trans hfresh.past
  refine .of_does (others_put hslots sent.2) (setClient_slot ..)
    (openUpstream_does (onward_steadfast env) (setClient_slot ..)) (lane_openUpstream ..)
    (.begun (e := e) hphase (fun hhead => ?_) (hpast' ▸ le_rfl) ?_ hbody ?_ fun hsome => ?_)
  · rw [hphase₁] at hhead
    cases hhead
  · rw [← hpast', exchanges_current, hcurrent, he]
  · rw [hframing]
    exact hplanned
  · obtain ⟨n, hn⟩ := hlength hsome
    exact ⟨n, hframing.trans hn, hlong n hn, by rw [hbody₁, hnew, hn]; rfl,
      congrArg List.length hpast'⟩

/-- Routing a request leaves it refused, or planned and given to an upstream. -/
theorem routeRequest_moved {head : Head} (hidle : Idle c)
    (hphase : c.phase = .head) (hplain : isH2Preface c.inbox = false)
    (hparsed : parseRequestHead .standard c.inbox c.head = (.ok true, head)) :
    Moved env ans w c fd
      (routeRequest env ans (w.setClient fd { c with head := head }) fd).1 := by
  have hasked := asked_eq env ans w hphase hplain hparsed
  have hbegun := fresh_begin (hidle hphase).1 head (c.inbox.take head.len)
  have hslots : ∀ (c₁ : Conn) x, x ≠ fd → (w.setClient fd c₁).slots x = w.slots x :=
    fun c₁ x hx => Function.update_of_ne hx ..
  have hnoted : ∀ (c₁ : Conn) (m : Moment) x, x ≠ fd →
      ((w.setClient fd c₁).remember m).slots x = w.slots x := fun c₁ _ => hslots c₁
  unfold routeRequest Serving.fail
  simp only [setClient_slot]
  split
  · rename_i error herror
    have hnothing : asked env ans w c = none := by
      rw [hasked, show requestFraming head c.inbox = .error error from herror]
    refine .of_refused hphase hbegun (hslots _) rfl ?_ _ _ _ _
    rw [unplanned_of_none hnothing]
    nofun
  · rename_i framing hok
    have hframing : requestFraming head c.inbox = .ok framing := hok
    have hlong : ∀ n, framing = .length n → 0 < n := by
      rintro n rfl
      rcases requestFraming_cases hframing with ⟨h, -⟩ | ⟨h, -⟩ | ⟨m, h, hm, -⟩
      · cases h
      · cases h
      · cases h
        exact Nat.pos_of_ne_zero hm
    have hdescribed := hbegun.described framing
    rw [hframing] at hasked
    split
    · rename_i hstart
      have hnothing : asked env ans w c = none := by
        rw [hasked, show head.start = _ from hstart]
      refine .of_refused hphase hdescribed (hslots _) rfl ?_ _ _ _ _
      rw [unplanned_of_none hnothing]
      nofun
    · rename_i target _ hstart
      rw [show head.start = _ from hstart] at hasked
      split
      · rename_i hmatch
        have hnothing : asked env ans w c = none := by
          rw [hasked]
          exact Option.map_eq_none_iff.mpr hmatch
        refine .of_refused hphase hdescribed (hslots _) rfl ?_ _ _ _ _
        rw [unplanned_of_none hnothing]
        nofun
      · rename_i matched hmatch
        have hfound : asked env ans w c = some ⟨head, framing, matched⟩ := by
          rw [hasked]
          exact Option.map_eq_some_iff.mpr ⟨matched, hmatch, rfl⟩
        have hrouted := hdescribed.routed w.routes matched
        split
        · rename_i hprotocol
          refine .of_refused hphase hrouted (hnoted _ _) rfl
            (unplanned_of_stays hfound ?_) _ _ _ _
          unfold dispatches
          rw [hprotocol]
          rfl
        · rename_i hprotocol
          split
          · rename_i hgrpc
            have hgrpc' : isGrpc head c.inbox = true := hgrpc
            refine .of_refused hphase hrouted (hnoted _ _) rfl
              (unplanned_of_stays hfound ?_) _ _ _ _
            unfold dispatches
            rw [hgrpc', Bool.not_true, Bool.and_false, Bool.false_and]
          · rename_i hplainly
            have hplainly' : isGrpc head c.inbox = false := Bool.not_eq_true _ |>.mp hplainly
            split
            · rename_i hpick
              have hpick' : selectEndpoint matched.backend
                  (reading ans w w.routes matched.backend ans.cursor) ans.pick = none := hpick
              refine .of_refused hphase hrouted (hnoted _ _) rfl
                (unplanned_of_stays hfound ?_) _ _ _ _
              unfold dispatches
              rw [hpick', Option.any_none, Bool.and_false]
            · rename_i first slot hpick
              have hpick' : selectEndpoint matched.backend
                  (reading ans w w.routes matched.backend ans.cursor) ans.pick =
                    some (first, slot) := hpick
              split
              · rename_i htargets
                have htargets' : targetsOf matched.backend first (attempts framing
                    matched.backend.endpoints.length w.config.maxConnectAttempts) = [] := htargets
                refine .of_refused hphase hrouted (hnoted _ _) rfl
                  (unplanned_of_stays hfound ?_) _ _ _ _
                unfold dispatches
                rw [hpick', Option.any_some, htargets', List.isEmpty_nil, Bool.not_true,
                  Bool.and_false]
              · rename_i target others htargets
                have htargets' : targetsOf matched.backend first (attempts framing
                    matched.backend.endpoints.length w.config.maxConnectAttempts) =
                      target :: others := htargets
                refine .of_dispatched hphase hfound ?_ hlong hrouted rfl _ first (target :: others)
                  target
                unfold dispatches
                rw [hpick', Option.any_some, htargets', hplainly']
                simpa using hprotocol

/-- Reading a head ends a connection, leaves it waiting for more of it, or routes the request. -/
theorem parseRequest_moved (hslot : w.slots fd = .client c) (hidle : Idle c)
    (hphase : c.phase = .head) : Moved env ans w c fd (parseRequest env ans w fd).1 := by
  have hsteady := onward_steadfast env
  have hunread : isH2Preface c.inbox = true ∨
      (parseRequestHead .standard c.inbox c.head).1 ≠ .ok true → sampling env ans w c = none := by
    intro hcannot
    refine unplanned_of_none ?_
    unfold asked
    split
    · rename_i hplain
      split
      · rename_i hparsed
        rcases hcannot with hpreface | hunparsed
        · rw [hplain.2] at hpreface
          cases hpreface
        · rw [hparsed] at hunparsed
          exact absurd rfl hunparsed
      · rfl
    · rfl
  have hread : Onward c { c with head := (parseRequestHead .standard c.inbox c.head).2 } :=
    .of_same rfl rfl rfl rfl id
  unfold parseRequest Serving.fail
  simp only [hslot]
  split
  · rename_i hpreface
    split
    · have hgiven : Onward c { c with handOff := true } := .of_same rfl rfl rfl rfl id
      exact .of_nothing hslot (hunread (.inl hpreface))
        (.after hsteady.toGentle hslot (.put fd w _) (setClient_slot ..) hgiven
          (handOff_does hsteady.toGentle)) (lane_handOff ..)
    · exact .of_nothing hslot (hunread (.inl hpreface)) (fail_does hslot (refused_onward ..))
        (lane_failUnsupported ..)
  · rename_i hpreface
    split
    · rename_i hmore
      refine .of_nothing hslot (hunread (.inr (by rw [hmore]; nofun))) (.put hslot (.refl fd w) ?_)
        rfl
      split
      · exact .of_same rfl rfl rfl rfl nofun
      · exact hread
    · rename_i herror
      exact .of_nothing hslot (hunread (.inr (by rw [herror]; nofun)))
        (.after hsteady.toGentle hslot (.put fd w _) (setClient_slot ..) hread
          (fail_does (setClient_slot ..) (refused_onward ..))) (lane_failUnsupported ..)
    · rename_i hparsed
      exact routeRequest_moved hidle hphase (Bool.not_eq_true _ |>.mp hpreface)
        (Prod.ext hparsed rfl)

/-- The bytes of a request's body that a turn takes, and what becomes of its copy. -/
theorem pumped_deed {w' : World} {progressed : Bool} (hphase : c.phase ≠ .head)
    (hsampling : sampling env ans w c = none)
    (hpumped : pumpRequestBody w c = .ok (w', c₁, progressed)) :
    Deed env ans w c (lane w') c₁ := by
  unfold pumpRequestBody at hpumped
  split at hpumped
  · rename_i hopen
    simp only [Bool.and_eq_true, Bool.not_eq_true'] at hopen
    split at hpumped
    · cases hpumped
    · rename_i n done body htake
      dsimp only at hpumped
      rw [mirrorBody_fed] at hpumped
      cases done with
      | false =>
          cases hpumped
          exact .taken hphase (fun hhead => absurd hhead hphase) hopen.1 htake rfl rfl rfl rfl
      | true =>
          simp only [if_true] at hpumped
          cases hpumped
          obtain ⟨hlane, hsent⟩ := sendMirror_hand w
            { c with
              upOutbox := c.upOutbox ++ c.inbox.take n
              mirror := c.mirror.map fun copy => fed w.config.mirrorMaxBody copy (c.inbox.take n)
              inbox := c.inbox.drop n, requestBody := .done
              book := c.book.takeBody (c.inbox.take n) }
          rw [hsent]
          exact .taken hphase (fun hhead => absurd hhead hphase) hopen.1 htake rfl rfl rfl hlane
  · cases hpumped
    exact .nothing hsampling

/-- Moving bodies on takes some of the request's body, then relays or refuses. -/
theorem pumpBodies_moved (hslot : w.slots fd = .client c) (hphase : c.phase ≠ .head) :
    Moved env ans w c fd (pumpBodies env ans w fd).1 := by
  have hsteady := onward_steadfast env
  have hsampling : sampling env ans w c = none := by
    refine unplanned_of_none ?_
    unfold asked
    rw [if_neg fun h => hphase h.1]
  unfold pumpBodies Serving.fail
  simp only [hslot]
  split
  · have hslot₁ : (w.remember (.rejected c)).slots fd = .client c := hslot
    exact .of_nothing hslot hsampling (.after hsteady.toGentle hslot (.of_quiet (.remember w _))
      hslot₁ (.refl c) (fail_does hslot₁ (refused_onward ..))) (lane_failUnsupported ..)
  · rename_i w₁ c₁ progressed hpumped
    have hquiet := Quiet.pumpRequestBody hpumped
    have hdeed := pumped_deed hphase hsampling hpumped
    have hslots : ∀ x, x ≠ fd → w₁.slots x = w.slots x := fun x _ => by rw [hquiet.slots]
    split
    · exact .of_does (others_put (v := w₁.remember (.rejected c₁)) hslots c₁) (setClient_slot ..)
        (fail_does (setClient_slot ..) (refused_onward ..)) (lane_failUnsupported ..) hdeed
    · exact .of_does (others_put hslots c₁) (setClient_slot ..)
        (parseResponse_does hsteady (setClient_slot ..)) (lane_parseResponse ..) hdeed

/-- A turn that moves a connection on is one deed, and what follows from it. -/
theorem advance_moved (hslot : w.slots fd = .client c) (hidle : Idle c) :
    Moved env ans w c fd (advance env ans w fd).1 := by
  have hnone : c.phase ≠ .head → sampling env ans w c = none := by
    intro hphase
    refine unplanned_of_none ?_
    unfold asked
    rw [if_neg fun h => hphase h.1]
  have hstill : c.phase ≠ .head → Moved env ans w c fd w := fun hphase =>
    .of_nothing hslot (hnone hphase) (.of_slot hslot (.refl fd w) hslot (.refl c)) rfl
  unfold advance
  simp only [hslot]
  cases hphase : c.phase with
  | head => exact parseRequest_moved hslot hidle hphase
  | exchanging | relaying => exact pumpBodies_moved hslot (by rw [hphase]; nofun)
  | tunnel =>
      exact .of_nothing hslot (hnone (by rw [hphase]; nofun))
        (pumpTunnel_does (onward_steadfast env).toGentle hslot) (lane_pumpTunnel ..)
  | connecting | closing => exact hstill (by rw [hphase]; nofun)

end Deeds

end Ramjet.Engine.Worker.Mirroring
