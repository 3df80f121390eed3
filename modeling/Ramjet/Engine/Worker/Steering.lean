/- digest: What a core chooses to try a request on, while it is busy with it and after. -/

import Ramjet.Engine.Worker.Relaying
import Ramjet.Engine.Worker.Retries

set_option autoImplicit false
set_option relaxedAutoImplicit false

namespace Ramjet.Engine.Worker.Steering

open Ramjet.Base.Octets
open Ramjet.Base.Net
open Ramjet.Engine.Codec.BodyFraming
open Ramjet.Engine.Worker.Connection
open Ramjet.Engine.Worker.Core
open Ramjet.Engine.Worker.Serving
open Ramjet.Engine.Worker.Requests
open Ramjet.Engine.Worker.Moves
open Ramjet.Engine.Worker.Keeping
open Ramjet.Engine.Worker.Relaying
open Ramjet.Engine.Worker.Retries

/-- What was chosen for one try: an endpoint, and whether the pool had a connection to it. -/
def choice (t : Try) : Nat × Bool := (t.endpoint, t.pooled)

/-- A connection tried for a request has answered a head, good or bad. -/
def Heeded (e : Exchange) : Prop := ∃ t ∈ e.tried, ¬ Unheard t

/-- The choices made for a request stayed, and nothing heard of it was unheard again. -/
structure Alike (e e' : Exchange) : Prop where
  framing : e'.framing = e.framing
  choices : e'.tried.map choice = e.tried.map choice
  heeded : Heeded e → Heeded e'
  bad : BadGateway e' → BadGateway e

/-- What a connection goes by when its upstream fails it. -/
structure Aim where
  targets : List SocketAddr
  index : Nat
  count : Nat
  attempt : Nat
  replayable : Bool
  fromPool : Bool
  used : Bool

def aimOf (c : Conn) : Aim :=
  ⟨c.targets, c.endpointIndex, c.endpointCount, c.attempt, c.replayable, c.fromPool,
    c.poolRetryUsed⟩

/-- A connection goes by what it went by, and has not come to rely on its response. -/
structure Aiming (c c' : Conn) : Prop where
  aim : aimOf c' = aimOf c
  committed : c.committed = true → c'.committed = true
  began : c'.committed = true → c'.responseHeadSeen = false →
    c.committed = true ∧ c.responseHeadSeen = false

/-- A connection waits for what it tried last. -/
structure Waits (c : Conn) (before : List Try) (t : Try) : Prop where
  endpoint : t.endpoint = c.endpoint
  room : c.targets.length ≤ max c.endpointCount 1
  replayable : c.replayable = true
  used : before.any Try.pooled = c.poolRetryUsed
  held : c.poolRetryUsed = false → c.fromPool = t.pooled

/-- A connection with nothing more to try its request on. -/
structure Spent (c : Conn) : Prop where
  race : c.pooledRace = false
  left : c.committed = true ∨ c.targets.length ≤ c.attempt + 1

/-- What was tried for a bodyless request, and what the connection that has it goes by. -/
structure Guided (c : Conn) (e : Exchange) : Prop where
  orderly : Orderly e.tried
  idle : e.tried = [] → c.targets = []
  waits : ∀ before t, e.tried = before ++ [t] → Waits c before t
  heeded : c.committed = true → c.responseHeadSeen = false → Heeded e
  spent : BadGateway e → e.tried = [] ∨ Spent c ∨ Heeded e

/-- A connection that has yet to find out where its request goes. -/
structure Unaimed (c : Conn) : Prop where
  targets : c.targets = []
  fromPool : c.fromPool = false
  unused : c.poolRetryUsed = false
  uncommitted : c.committed = false
  good : ∀ e, c.book.current = some e → ¬ BadGateway e

/-- Every bodyless request of a connection was tried in order, and the last one still is. -/
structure Steered (c : Conn) : Prop where
  past : ∀ e ∈ c.book.past, e.framing = .empty → Lawful e
  current : ∀ e, c.book.current = some e → e.framing = .empty → Guided c e
  head : c.phase = .head → Unaimed c

section Choices

variable {c c' : Conn} {e e' : Exchange} {before tried tried' : List Try} {t next : Try}

theorem any_pooled (l : List Try) : l.any Try.pooled = (l.map choice).any Prod.snd := by
  rw [List.any_map]
  rfl

theorem any_of_choices (h : tried'.map choice = tried.map choice) :
    tried'.any Try.pooled = tried.any Try.pooled := by
  rw [any_pooled, any_pooled, h]

theorem nil_of_choices (h : tried'.map choice = tried.map choice) :
    tried' = [] ↔ tried = [] := by
  rw [← List.map_eq_nil_iff (f := choice), h, List.map_eq_nil_iff]

theorem split_of_choices {before' rest' : List Try}
    (h : (before' ++ rest').map choice = tried.map choice) : ∃ before rest,
      tried = before ++ rest ∧ before'.map choice = before.map choice ∧
        rest'.map choice = rest.map choice := by
  rw [List.map_append] at h
  obtain ⟨before, rest, hsplit, hbefore, hrest⟩ := List.map_eq_append_iff.mp h.symm
  exact ⟨before, rest, hsplit, hbefore.symm, hrest.symm⟩

theorem cons_of_choices {rest : List Try} (h : (t :: rest).map choice = tried.map choice) :
    ∃ t' rest', tried = t' :: rest' ∧ t.endpoint = t'.endpoint ∧ t.pooled = t'.pooled ∧
      rest.map choice = rest'.map choice := by
  rw [List.map_cons] at h
  obtain ⟨t', rest', hsplit, hchoice, hrest⟩ := List.map_eq_cons_iff.mp h.symm
  obtain ⟨hendpoint, hpooled⟩ := Prod.mk.injEq .. ▸ hchoice
  exact ⟨t', rest', hsplit, hendpoint.symm, hpooled.symm, hrest.symm⟩

theorem orderly_of_choices (h : Orderly tried) (hsame : tried'.map choice = tried.map choice) :
    Orderly tried' := by
  intro before' t' next' after' hsplit hpooled
  rw [hsplit] at hsame
  obtain ⟨before, rest, rfl, hbefore, hrest⟩ := split_of_choices hsame
  obtain ⟨t, rest, rfl, hendpoint, hfrom, hrest⟩ := cons_of_choices hrest
  obtain ⟨next, after, rfl, hnext, -, -⟩ := cons_of_choices hrest
  rw [hnext, hendpoint, any_of_choices hbefore]
  exact h before t next after rfl (hfrom ▸ hpooled)

/-- Every two neighbours are in order where those before the last are and it is. -/
theorem Orderly.concat (h : Orderly (before ++ [t]))
    (hnext : t.pooled = true → (next.endpoint = t.endpoint ↔ before.any Try.pooled = false)) :
    Orderly (before ++ [t] ++ [next]) := by
  intro front u v back hsplit hpooled
  rcases List.eq_nil_or_concat back with rfl | ⟨back', w, rfl⟩
  · have hsplit : before ++ [t] ++ [next] = front ++ [u] ++ [v] := by
      rw [hsplit, List.append_assoc]
      rfl
    obtain ⟨hfront, rfl⟩ := List.append_singleton_inj.mp hsplit
    obtain ⟨rfl, rfl⟩ := List.append_singleton_inj.mp hfront
    exact hnext hpooled
  · have hsplit : before ++ [t] ++ [next] = front ++ u :: v :: back' ++ [w] := by
      rw [hsplit, List.concat_eq_append, List.append_assoc]
      rfl
    obtain ⟨hfront, -⟩ := List.append_singleton_inj.mp hsplit
    exact h front u v back' hfront hpooled

theorem orderly_nil : Orderly [] := by
  intro before t next after h
  exact absurd h.symm (by simp)

theorem orderly_singleton (t : Try) : Orderly [t] := by
  intro before u v after h
  have hlength := congrArg List.length h
  simp only [List.length_append, List.length_cons, List.length_nil] at hlength
  omega

theorem Alike.refl (e : Exchange) : Alike e e := ⟨rfl, rfl, id, id⟩

theorem Alike.trans {e'' : Exchange} (h : Alike e e') (h' : Alike e' e'') : Alike e e'' :=
  ⟨h'.framing.trans h.framing, h'.choices.trans h.choices, h'.heeded ∘ h.heeded, h.bad ∘ h'.bad⟩

theorem Aiming.same (haim : aimOf c' = aimOf c) (hcommitted : c'.committed = c.committed)
    (hseen : c'.responseHeadSeen = c.responseHeadSeen) : Aiming c c' :=
  ⟨haim, hcommitted.trans, fun h h' => ⟨hcommitted ▸ h, hseen ▸ h'⟩⟩

theorem Waits.alike (h : Waits c before t) {before' : List Try} {t' : Try}
    (haim : aimOf c' = aimOf c) (hbefore : before'.map choice = before.map choice)
    (hendpoint : t'.endpoint = t.endpoint) (hpooled : t'.pooled = t.pooled) :
    Waits c' before' t' := by
  unfold aimOf at haim
  rw [Aim.mk.injEq] at haim
  obtain ⟨htargets, hindex, hcount, hattempt, hreplayable, hfrom, hused⟩ := haim
  refine ⟨?_, ?_, ?_, ?_, fun hfresh => ?_⟩
  · unfold Conn.endpoint
    rw [hendpoint, hindex, hattempt, hcount]
    exact h.endpoint
  · rw [htargets, hcount]
    exact h.room
  · exact hreplayable.trans h.replayable
  · rw [any_of_choices hbefore, hused]
    exact h.used
  · rw [hfrom, hpooled]
    exact h.held (hused ▸ hfresh)

theorem Spent.still (h : Spent c) (haim : aimOf c' = aimOf c)
    (hkept : c.committed = true → c'.committed = true) : Spent c' := by
  unfold aimOf at haim
  rw [Aim.mk.injEq] at haim
  obtain ⟨htargets, -, -, hattempt, hreplayable, hfrom, hused⟩ := haim
  refine ⟨?_, ?_⟩
  · have hrace := h.race
    unfold Conn.pooledRace at hrace ⊢
    rw [hfrom, hused, hreplayable]
    cases hcommitted : c.committed with
    | false =>
        rw [hcommitted] at hrace
        cases c'.committed with
        | false => exact hrace
        | true => simp
    | true =>
        rw [hkept hcommitted]
        simp
  · rw [htargets, hattempt]
    exact h.left.imp_left hkept

/-- A request stays guided while its connection goes by what it went by. -/
theorem Guided.alike (h : Guided c e) (haiming : Aiming c c') (halike : Alike e e') :
    Guided c' e' := by
  have htargets : c'.targets = c.targets := congrArg Aim.targets haiming.aim
  have hnothing := nil_of_choices halike.choices
  refine ⟨orderly_of_choices h.orderly halike.choices, fun hnil => ?_, fun before' t' htried => ?_,
    fun hcommitted hunseen => ?_, fun hbad => ?_⟩
  · rw [htargets]
    exact h.idle (hnothing.mp hnil)
  · have hchoices : (before' ++ [t']).map choice = e.tried.map choice := htried ▸ halike.choices
    obtain ⟨before, rest, hsplit, hbefore, hrest⟩ := split_of_choices hchoices
    obtain ⟨t, rest, rfl, hendpoint, hpooled, hrest⟩ := cons_of_choices hrest
    obtain rfl := (nil_of_choices hrest).mp rfl
    exact (h.waits before t hsplit).alike haiming.aim hbefore hendpoint hpooled
  · obtain ⟨hbefore, hearlier⟩ := haiming.began hcommitted hunseen
    exact halike.heeded (h.heeded hbefore hearlier)
  · rcases h.spent (halike.bad hbad) with hnil | hspent | hheeded
    · exact .inl (hnothing.mpr hnil)
    · exact .inr (.inl (hspent.still haiming.aim haiming.committed))
    · exact .inr (.inr (halike.heeded hheeded))

/-- Whatever a connection leaves behind was tried as it should be. -/
theorem Guided.lawful (h : Guided c e) (hunseen : BadGateway e → c.responseHeadSeen = false) :
    Lawful e := by
  refine ⟨h.orderly, fun hbad hunheard before t htried hpooled => ?_⟩
  have hwaits := h.waits before t htried
  have hnone : ¬ Heeded e := fun ⟨t', ht', hheard⟩ => hheard (hunheard t' ht')
  rcases h.spent hbad with hnil | hspent | hheeded
  · rw [hnil] at htried
    exact absurd htried.symm (by simp)
  · rw [hwaits.used]
    by_contra hunused
    have hunused : c.poolRetryUsed = false := by simpa using hunused
    have hrace := hspent.race
    unfold Conn.pooledRace at hrace
    rw [hwaits.held hunused, hpooled, hunused, hwaits.replayable] at hrace
    have hcommitted : c.committed = true := by simpa using hrace
    exact hnone (h.heeded hcommitted (hunseen hbad))
  · exact absurd hheeded hnone

theorem Unaimed.guided (h : Unaimed c) (he : c.book.current = some e) (htried : e.tried = []) :
    Guided c e := by
  refine ⟨htried ▸ orderly_nil, fun _ => h.targets, fun before t hsplit => ?_,
    fun hcommitted => ?_, fun hbad => absurd hbad (h.good e he)⟩
  · rw [htried] at hsplit
    exact absurd hsplit.symm (by simp)
  · rw [h.uncommitted] at hcommitted
    cases hcommitted

end Choices

/-- Of a connection's requests, and of what it goes by in trying them, nothing changed. -/
structure Unsteered (c c' : Conn) : Prop where
  past : c'.book.past = c.book.past
  current : ∀ e', c'.book.current = some e' → ∃ e, c.book.current = some e ∧ Alike e e'
  aiming : Aiming c c'
  idle : c'.phase = .head → c.phase = .head ∧ c'.committed = c.committed

section Steering

variable {env : Outside} {ans : Answers} {calm : Bool} {w w' : World} {c c' : Conn} {p q : Hand}
  {e e' : Exchange}

theorem alike_same (h : c'.book.current = c.book.current) :
    ∀ e', c'.book.current = some e' → ∃ e, c.book.current = some e ∧ Alike e e' :=
  fun e' he' => ⟨e', h ▸ he', .refl e'⟩

theorem alike_map {change : Exchange → Exchange}
    (h : c'.book.current = c.book.current.map change) (hall : ∀ e, Alike e (change e)) :
    ∀ e', c'.book.current = some e' → ∃ e, c.book.current = some e ∧ Alike e e' := by
  intro e' he'
  rw [h] at he'
  obtain ⟨e, he, rfl⟩ := Option.map_eq_some_iff.mp he'
  exact ⟨e, he, hall e⟩

/-- Something happened on the connection tried last, and nothing was unheard by it. -/
theorem alike_last (e : Exchange) {change : Try → Try} (hchoice : ∀ t, choice (change t) = choice t)
    (hheard : ∀ t, Unheard (change t) → Unheard t) :
    Alike e { e with tried := e.tried.dropLast ++ (e.tried.getLast?.map change).toList } := by
  rcases List.eq_nil_or_concat e.tried with hnil | ⟨before, t, hsplit⟩
  · refine ⟨rfl, ?_, fun h => ?_, id⟩
    · rw [hnil]
      rfl
    · obtain ⟨t, ht, -⟩ := h
      rw [hnil] at ht
      cases ht
  · rw [List.concat_eq_append] at hsplit
    have hlast : e.tried.dropLast ++ (e.tried.getLast?.map change).toList =
        before ++ [change t] := by
      rw [hsplit, List.dropLast_concat, List.getLast?_concat]
      rfl
    refine ⟨rfl, ?_, fun ⟨t', ht', hheeded⟩ => ?_, id⟩
    · rw [hlast, hsplit, List.map_append, List.map_append, List.map_singleton,
        List.map_singleton, hchoice]
    · rw [hsplit] at ht'
      show ∃ t ∈ _, ¬ Unheard t
      rw [hlast]
      rcases List.mem_append.mp ht' with hold | hlast
      · exact ⟨t', List.mem_append_left _ hold, hheeded⟩
      · rw [List.mem_singleton.mp hlast] at hheeded
        exact ⟨change t, by simp, hheeded ∘ hheard t⟩

theorem alike_queue (e : Exchange) (bytes : Bytes) :
    Alike e { e with relay := e.relay.map fun r => { r with since := r.since ++ bytes } } :=
  ⟨rfl, rfl, id, fun h => ⟨h.1, Option.map_eq_none_iff.mp h.2⟩⟩

theorem alike_relay (e : Exchange) (status : Nat) (r : Relay) :
    Alike e { e with statuses := e.statuses ++ [status], relay := some r } :=
  ⟨rfl, rfl, id, fun h => by cases h.2⟩

theorem Steered.unsteered (h : Steered c) (hsame : Unsteered c c') : Steered c' := by
  refine ⟨?_, fun e' he' hbody => ?_, fun hphase => ?_⟩
  · rw [hsame.past]
    exact h.past
  · obtain ⟨e, he, halike⟩ := hsame.current e' he'
    exact (h.current e he (halike.framing.symm.trans hbody)).alike hsame.aiming halike
  · obtain ⟨hhead, hcommitted⟩ := hsame.idle hphase
    have haim := hsame.aiming.aim
    unfold aimOf at haim
    rw [Aim.mk.injEq] at haim
    obtain ⟨htargets, -, -, -, -, hfrom, hused⟩ := haim
    have hunaimed := h.head hhead
    refine ⟨htargets.trans hunaimed.targets, hfrom.trans hunaimed.fromPool,
      hused.trans hunaimed.unused, hcommitted.trans hunaimed.uncommitted, fun e' he' hbad => ?_⟩
    obtain ⟨e, he, halike⟩ := hsame.current e' he'
    exact hunaimed.good e he (halike.bad hbad)

theorem Unsteered.same (hpast : c'.book.past = c.book.past)
    (hcurrent : c'.book.current = c.book.current) (haim : aimOf c' = aimOf c)
    (hcommitted : c'.committed = c.committed) (hseen : c'.responseHeadSeen = c.responseHeadSeen)
    (hidle : c'.phase = .head → c.phase = .head) : Unsteered c c' :=
  ⟨hpast, alike_same hcurrent, .same haim hcommitted hseen, fun h => ⟨hidle h, hcommitted⟩⟩

theorem Unsteered.refl (c : Conn) : Unsteered c c := .same rfl rfl rfl rfl rfl id

theorem pumped_unsteered {progressed : Bool}
    (h : pumpRequestBody w c = .ok (w', c', progressed)) : Unsteered c c' := by
  obtain ⟨⟨bytes, hcurrent⟩, hpast⟩ := pumped_current h
  obtain ⟨_, _, _, _, book, rfl⟩ := pumped_fields h
  exact ⟨hpast, alike_map hcurrent fun _ => ⟨rfl, rfl, id, id⟩, .same rfl rfl rfl,
    fun h => ⟨h, rfl⟩⟩

theorem relayHead_unsteered (env : Outside) (w : World) (c : Conn) (framing : Framing) :
    Unsteered c (relayHead env w c framing).2 := by
  obtain ⟨out, hout⟩ := relayHead_fields env w c framing
  rw [hout]
  exact ⟨rfl, alike_map rfl fun e => alike_relay e _ _, ⟨rfl, fun _ => rfl, fun _ => nofun⟩, nofun⟩

theorem tunnelled_unsteered (env : Outside) (w : World) (c : Conn) (asked : Bytes) :
    Unsteered c (tunnelled env w c asked).2 := by
  obtain ⟨out, hout⟩ := tunnelled_fields env w c asked
  rw [hout]
  refine ⟨rfl, alike_map (Option.map_map ..) fun e => ?_, ⟨rfl, fun _ => rfl, fun _ => nofun⟩,
    nofun⟩
  exact (alike_relay e _ _).trans (alike_queue _ _)

theorem shuttled_unsteered (ans : Answers) (c : Conn) : Unsteered c (shuttled ans c) := by
  obtain ⟨tls, phase, hasty, hfields, hnext, -⟩ := shuttled_fields ans c
  rw [hfields]
  refine ⟨rfl, alike_map rfl fun e => alike_queue e _, .same rfl rfl rfl, fun h => ?_⟩
  rcases hnext with hsame | hclosing
  · exact ⟨hsame.symm.trans h, rfl⟩
  · exact absurd (hclosing.symm.trans h) nofun

/-- Whatever an exchange does to its connection, it chooses nothing anew. -/
theorem progress_steered (h : Progress env ans calm p q) (ht : Told env p.2) (hg : Steered p.2) :
    Steered q.2 := by
  cases h with
  | halfSent | undispatched | truncated =>
      exact hg.unsteered (.same rfl rfl rfl rfl rfl nofun)
  | parsed | upParsed | upEnded | extended =>
      exact hg.unsteered (.same rfl rfl rfl rfl rfl id)
  | @begun w c hphase hread =>
      obtain ⟨htargets, hfrom, hunused, huncommitted, -⟩ := hg.head hphase
      have hunaimed : Unaimed { c with book := c.book.begin (c.inbox.take c.head.len) } := by
        refine ⟨htargets, hfrom, hunused, huncommitted, fun e he hbad => ?_⟩
        cases he
        cases hbad.1
      refine ⟨hg.past, fun e he _ => hunaimed.guided he ?_, fun _ => hunaimed⟩
      cases he
      rfl
  | @described w c framing hphase hread =>
      obtain ⟨htargets, hfrom, hunused, huncommitted, hgood⟩ := hg.head hphase
      have hunaimed : Unaimed (Conn.described c framing) := by
        refine ⟨htargets, hfrom, hunused, huncommitted, fun e he hbad => ?_⟩
        obtain ⟨e₀, he₀, rfl⟩ := Option.map_eq_some_iff.mp he
        exact hgood e₀ he₀ hbad
      refine ⟨hg.past, fun e he _ => hunaimed.guided he ?_, fun _ => hunaimed⟩
      obtain ⟨e₀, he₀, rfl⟩ := Option.map_eq_some_iff.mp he
      exact ((ht.idle hphase).2 e₀ he₀).1
  | @routed w c matched =>
      exact hg.unsteered ⟨rfl, alike_map (c := c) rfl fun _ => ⟨rfl, rfl, id, id⟩,
        .same rfl rfl rfl, fun h => ⟨h, rfl⟩⟩
  | refused => exact hg
  | pumped hphase hpumped => exact hg.unsteered (pumped_unsteered hpumped)
  | tunnelled => exact hg.unsteered (tunnelled_unsteered ..)
  | headRelayed => exact hg.unsteered (relayHead_unsteered ..)
  | @bodyRelayed w c =>
      exact hg.unsteered ⟨rfl, alike_map (c := c) rfl fun e => alike_queue e _,
        .same rfl rfl rfl, fun h => ⟨h, rfl⟩⟩
  | shuttled => exact hg.unsteered (shuttled_unsteered ..)
  | @closed w c =>
      exact hg.unsteered ⟨rfl, alike_map (c := c) rfl fun e => alike_queue e _,
        .same rfl rfl rfl, fun h => ⟨h, rfl⟩⟩

theorem hands_steered (h : Hands env ans calm p q) (hs : Steady p.2) (ht : Told env p.2)
    (hg : Steered p.2) : Steered q.2 := by
  induction h with
  | refl => exact hg
  | tail hbefore hstep ih => exact progress_steered hstep (hands_told hbefore hs ht) ih

end Steering

end Ramjet.Engine.Worker.Steering
