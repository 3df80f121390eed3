/- digest: Everything that can become of a connection, whatever happens to its core. -/

import Ramjet.Engine.Worker.Alterations

set_option autoImplicit false
set_option relaxedAutoImplicit false

namespace Ramjet.Engine.Worker.Changes

open Ramjet.Base.Octets
open Ramjet.Base.Net
open Ramjet.Engine.IdlePool
open Ramjet.Engine.Worker.Connection
open Ramjet.Engine.Worker.Core
open Ramjet.Engine.Worker.Serving
open Ramjet.Engine.Worker.Handlers
open Ramjet.Engine.Worker.Loop
open Ramjet.Engine.Worker.Descriptors
open Ramjet.Engine.Worker.Ownership
open Ramjet.Engine.Worker.Moves
open Ramjet.Engine.Worker.Frames
open Ramjet.Engine.Worker.Events
open Ramjet.Engine.Worker.Images
open Ramjet.Engine.Worker.Keeping
open Ramjet.Engine.Worker.Arrivals
open Ramjet.Engine.Worker.Alterations

variable (env : Outside) (calm : Bool)

/-- What one event makes of the connection on a descriptor. -/
inductive Change (fd : Fd) (w : World) : Conn → Conn → Prop
  | moved {ans : Answers} {c c' : Conn} (h : Alters env ans calm fd w c c') : Change fd w c c'
  | readDown {op : Op} {c : Conn} (ans : Answers) (outcome : Outcome) (hop : Live w op .downRead)
      (hfd : op.fd = fd) (hreading : c.reading = true) (hgiven : c.handOff = false)
      (hfits : Outcome.fits w op outcome = true) :
      Change fd w c (readClient env ans (w.retire op outcome) { c with reading := false } outcome)
  | wroteDown {op : Op} {c : Conn} (outcome : Outcome) (hop : Live w op .downWrite)
      (hfd : op.fd = fd) (hwriting : c.writing = true) : Change fd w c (wroteClient c outcome)
  | readUp {op : Op} {c : Conn} (outcome : Outcome) (hop : Live w op .upRead)
      (hattached : c.upstream = some op.fd) (hown : c.upBorrowed = false)
      (hreading : c.upReading = true) (hfits : Outcome.fits w op outcome = true) :
      Change fd w c (hear c outcome.bytes (stampsOf w op outcome))
  | wroteUp {op : Op} {c : Conn} (outcome : Outcome) (hop : Live w op .upWrite)
      (hattached : c.upstream = some op.fd) (hown : c.upBorrowed = false)
      (hwriting : c.upWriting = true) :
      Change fd w c (if outcome = .wrote then delivered c op.payload else { c with upWriting := false })
  | connected {up : Fd} {c : Conn} (hattached : c.upstream = some up)
      (hlent : c.upBorrowed = true) : Change fd w c (connected c)
  | missed {up : Fd} {c : Conn} (hattached : c.upstream = some up) (hlent : c.upBorrowed = true) :
      Change fd w c { c with upBorrowed := false, upstream := none }
  | spared {c : Conn} (hdraining : w.drainDeadline.isSome = true) (hphase : c.phase ≠ .tunnel)
      (hserving : c.phase = .connecting ∨ c.phase = .exchanging ∨ c.phase = .relaying ∨
        c.writing = true ∨ c.hasPendingOut = true) (hfresh : c.drainCounted = false) :
      Change fd w c (spared c)

/-- How a connection leaves its core: by a move of its own, or cut off by a drain. -/
inductive Leaves (fd : Fd) (w : World) : Conn → Conn → Prop
  | departed {ans : Answers} {c d : Conn} (h : Departs ans fd w c d) : Leaves fd w c d
  | cut {c : Conn} (hdraining : w.drainDeadline.isSome = true) (hphase : c.phase = .tunnel)
      (hfresh : c.drainCounted = false) : Leaves fd w c c

/-- Nothing happened to any connection. -/
structure Apart (w w' : World) : Prop where
  clients : ∀ x c, w'.slots x = .client c ↔ w.slots x = .client c
  archive : w'.archive = w.archive
  marked : Marked w → Marked w'

section Apartness

variable {w w' w₁ : World} {f : Fd}

theorem empty_not_client (c : Conn) : Slot.empty ≠ .client c := by
  intro h
  cases h

theorem given_not_client (a : AdminConn) (c : Conn) : Slot.admin a ≠ .client c := by
  intro h
  cases h

theorem admin_not_client {a : AdminConn} (hslot : w.slots f = .admin a) (c : Conn) :
    w.slots f ≠ .client c := by
  rw [hslot]
  intro h
  cases h

theorem Apart.refl (w : World) : Apart w w := ⟨fun _ _ => .rfl, rfl, id⟩

theorem Apart.trans {w'' : World} (h : Apart w w') (h' : Apart w' w'') : Apart w w'' :=
  ⟨fun x c => (h'.clients x c).trans (h.clients x c), h'.archive.trans h.archive,
    h'.marked ∘ h.marked⟩

theorem Apart.of_same (hslots : w'.slots = w.slots) (harchive : w'.archive = w.archive)
    (hmark : w'.highWater = w.highWater) : Apart w w' := by
  refine ⟨fun x c => by rw [hslots], harchive, fun hmarked x hx => ?_⟩
  rw [hmark]
  rw [hslots] at hx
  exact hmarked x hx

theorem Apart.submit (w : World) (k : Kind) (f : Fd) (payload : Bytes) :
    Apart w (w.submit k f payload) := .of_same rfl rfl rfl

theorem Apart.retire (w : World) (op : Op) (outcome : Outcome) : Apart w (w.retire op outcome) :=
  .of_same rfl rfl rfl

theorem Apart.begun (w : World) (f : Fd) : Apart w ((w.opening f).bumpGeneration f) :=
  .of_same rfl rfl rfl

theorem Apart.tallied (w : World) (n : Nat) : Apart w { w with drainInflight := n } :=
  .of_same rfl rfl rfl

theorem Apart.put (hold : ∀ c, w.slots f ≠ .client c) {slot : Slot}
    (hnew : ∀ c, slot ≠ .client c) : Apart w (w.setSlot f slot) := by
  refine ⟨fun x c => ?_, rfl, fun h => marked_setSlot h f slot⟩
  rw [setSlot_slots]
  by_cases hx : x = f
  · subst hx
    rw [Function.update_self]
    exact ⟨fun hc => absurd hc (hnew c), fun hc => absurd hc (hold c)⟩
  · rw [Function.update_of_ne hx]

theorem Apart.close (ans : Answers) (hold : ∀ c, w.slots f ≠ .client c) :
    Apart w (w.close ans f) := by
  have hleft : (w.slots f).leaves = [] := by
    cases hf : w.slots f with
    | client c => exact absurd hf (hold c)
    | _ => rfl
  have hcounted : Apart w (w.countOff f) := by
    unfold World.countOff
    split
    · exact .of_same rfl rfl rfl
    · exact .refl w
  have hput : Apart (w.countOff f) ((w.countOff f).vacate f) := by
    have hsame : (w.countOff f).slots = w.slots := by
      unfold World.countOff
      split <;> rfl
    refine ⟨fun x c => ?_, ?_, fun h => marked_setSlot h f .empty⟩
    · rw [vacate_slots, hsame]
      by_cases hx : x = f
      · subst hx
        rw [Function.update_self]
        exact ⟨nofun, fun hc => absurd hc (hold c)⟩
      · rw [Function.update_of_ne hx]
    · show (w.countOff f).archive ++ ((w.countOff f).slots f).leaves = (w.countOff f).archive
      rw [hsame, hleft, List.append_nil]
  unfold World.close
  dsimp only
  split
  · exact (hcounted.trans hput).trans (.of_same rfl rfl rfl)
  · exact hcounted.trans hput

theorem Apart.then_put (h : Apart w w₁) (hold : ∀ c, w.slots f ≠ .client c) {slot : Slot}
    (hnew : ∀ c, slot ≠ .client c) : Apart w (w₁.setSlot f slot) :=
  h.trans (.put (fun c hc => hold c ((h.clients f c).mp hc)) hnew)

theorem Apart.then_close (h : Apart w w₁) (ans : Answers) (hold : ∀ c, w.slots f ≠ .client c) :
    Apart w (w₁.close ans f) :=
  h.trans (.close ans fun c hc => hold c ((h.clients f c).mp hc))

theorem Apart.closeAll (ans : Answers) {fds : List Fd}
    (hold : ∀ f ∈ fds, ∀ c, w.slots f ≠ .client c) : Apart w (World.closeAll ans w fds) := by
  induction fds generalizing w with
  | nil => exact .refl w
  | cons f rest ih =>
      have hclosed := Apart.close ans (hold f (List.mem_cons_self ..))
      refine hclosed.trans (ih fun x hx c hc => ?_)
      exact hold x (List.mem_cons_of_mem _ hx) c ((hclosed.clients x c).mp hc)

/-- What happens beside the connections leaves them alone. -/
theorem aside_apart (h : Aside w w') : Apart w w' := by
  cases h with
  | dropped | turnedAway | unheard | heard | armed | broke | stopped | expired | partly | sent =>
      exact .of_same rfl rfl rfl
  | @lapsed op addr ans outcome hop hslot =>
      have hsame : Apart w { w.retire op outcome with
          pool := ((w.retire op outcome).pool.remove addr op.fd).2 } := .of_same rfl rfl rfl
      have hbare : Bare (w.slots op.fd) := by
        rw [hslot]
        trivial
      exact hsame.then_close ans hbare.not_client
  | cleared hup hdown => exact .put hdown empty_not_client
  | @forsaken up hup horphan hslot =>
      have hgiven : Apart w { w with borrowed := w.borrowed.erase up } := .of_same rfl rfl rfl
      have hput : Apart w ({ w with borrowed := w.borrowed.erase up }.setSlot up .empty) :=
        hgiven.then_put hslot empty_not_client
      exact hput.trans (.of_same rfl rfl rfl)
  | @flushed pool gone ans hheld hslots =>
      have hsame : Apart w { w with pool := pool } := .of_same rfl rfl rfl
      refine hsame.trans (.closeAll ans fun f hf c hc => ?_)
      obtain ⟨e, he, rfl⟩ := List.mem_map.mp hf
      exact hslots e he c hc
  | unlistened ans deadline hserving hslots =>
      have hsame : Apart w { w with
          drainDeadline := some deadline, intakes := [], intakePartial := [], admin := none } :=
        .of_same rfl rfl rfl
      exact hsame.trans (.closeAll ans hslots)
  | adminBegun hfree hserving hslot =>
      exact (Apart.begun w _).then_put hslot (given_not_client _)
  | adminDropped hslot => exact .put (admin_not_client hslot) (given_not_client _)
  | adminRead hslot | adminWritten hslot =>
      exact (Apart.submit w _ _ _).then_put (admin_not_client hslot) (given_not_client _)
  | adminHeard _ _ hslot | adminWrote _ _ hslot =>
      exact (Apart.retire w _ _).then_put (admin_not_client hslot) (given_not_client _)
  | adminSpared hslot =>
      exact (Apart.tallied w _).then_put (admin_not_client hslot) (given_not_client _)
  | adminLeft ans outcome hop hk hslot =>
      exact (Apart.retire w _ outcome).then_close ans (admin_not_client hslot)
  | @adminHungUp op a ans outcome hop hslot =>
      have hput := (Apart.retire w op outcome).then_put (admin_not_client hslot) empty_not_client
      exact hput.then_close ans (admin_not_client hslot)
  | adminClosed ans hslot => exact .close ans (admin_not_client hslot)

end Apartness

section Events

variable {env : Outside} {calm s : Bool} {w w' : World} {fd x : Fd} {c c' d : Conn}

/-- Only the connection on one descriptor was written to. -/
theorem written_elsewhere {w₁ : World} (hsame : w₁.slots = w.slots) (hx : x ≠ fd)
    (h : (w₁.setClient fd d).slots x = .client c') : w.slots x = .client c' := by
  rw [setClient_slots, Function.update_of_ne hx, hsame] at h
  exact h

/-- A connection after an event is one from before it, untouched or changed, or a new one. -/
theorem event_changes (h : Kept s w) (hevent : Event env calm s w w') (x : Fd) (c' : Conn)
    (hslot' : w'.slots x = .client c') :
    w.slots x = .client c' ∨ (∃ c, w.slots x = .client c ∧ Change env calm x w c c') ∨
      ∃ ans tls, w.opened x = false ∧ w.drainDeadline = none ∧ c' = newClient ans w tls := by
  have hput : ∀ {w₁ : World} {fd : Fd} {c d : Conn}, w₁.slots = w.slots → w.slots fd = .client c →
      Change env calm fd w c d → (w₁.setClient fd d).slots x = .client c' →
      w.slots x = .client c' ∨ ∃ c, w.slots x = .client c ∧ Change env calm x w c c' := by
    intro w₁ fd c d hsame hslot hchange hx
    by_cases hxf : x = fd
    · subst hxf
      rw [setClient_slot, Slot.client.injEq] at hx
      exact .inr ⟨c, hslot, hx ▸ hchange⟩
    · exact .inl (written_elsewhere hsame hxf hx)
  rw [← or_assoc]
  cases hevent with
  | @moved w' ans fd hmove =>
      refine .inl ?_
      have hframe := move_frame hmove
      by_cases hxf : x = fd
      · subst hxf
        cases move_turned h hmove with
        | altered hslot hslot'' halters =>
            rw [hslot'', Slot.client.injEq] at hslot'
            exact .inr ⟨_, hslot, .moved (hslot' ▸ halters)⟩
        | departed _ _ hvacated =>
            rw [hvacated.empty] at hslot'
            cases hslot'
        | untouched hsame =>
            rw [hsame] at hslot'
            exact .inl hslot'
      · exact .inl (hframe.others x c' hxf hslot')
  | readDown ans outcome hop hslot hreading hgiven hfits =>
      exact .inl (hput rfl hslot (.readDown ans outcome hop rfl hreading hgiven hfits) hslot')
  | wroteDown outcome hop hslot hwriting =>
      exact .inl (hput rfl hslot (.wroteDown outcome hop rfl hwriting) hslot')
  | readUp outcome hop _ hslot hattached hown hreading hfits =>
      exact .inl (hput rfl hslot (.readUp outcome hop hattached hown hreading hfits) hslot')
  | wroteUp outcome hop _ hslot hattached hown hwriting =>
      exact .inl (hput rfl hslot (.wroteUp outcome hop hattached hown hwriting) hslot')
  | connected _ _ hslot hattached hlent =>
      exact .inl (hput rfl hslot (.connected hattached hlent) hslot')
  | @missed up down c _ hup hslot hattached hlent =>
      by_cases hxd : x = down
      · subst hxd
        rw [setClient_slot, Slot.client.injEq] at hslot'
        exact .inl (.inr ⟨c, hslot, hslot' ▸ .missed hattached hlent⟩)
      · rw [setClient_slots, Function.update_of_ne hxd] at hslot'
        have hcleared : Function.update w.slots up .empty x = .client c' := hslot'
        by_cases hxu : x = up
        · subst hxu
          rw [Function.update_self] at hcleared
          cases hcleared
        · rw [Function.update_of_ne hxu] at hcleared
          exact .inl (.inl hcleared)
  | @started fd ans tls hfree hserving =>
      by_cases hxf : x = fd
      · subst hxf
        rw [setClient_slot, Slot.client.injEq] at hslot'
        exact .inr ⟨ans, tls, hfree, hserving, hslot'.symm⟩
      · have hsame : ((w.opening fd).bumpGeneration fd).slots = w.slots := rfl
        exact .inl (.inl (written_elsewhere hsame hxf hslot'))
  | spared hslot hdraining hphase hserving hfresh =>
      exact .inl (hput rfl hslot (.spared hdraining hphase hserving hfresh) hslot')
  | @cut fd c ans hweak hslot hdraining hphase hfresh =>
      rw [close_slots] at hslot'
      by_cases hxf : x = fd
      · subst hxf
        rw [Function.update_self] at hslot'
        cases hslot'
      · rw [Function.update_of_ne hxf] at hslot'
        exact .inl (.inl hslot')
  | published | elapsed => exact .inl (.inl hslot')
  | aside hbeside => exact .inl (.inl (((aside_apart hbeside).clients x c').mp hslot'))

/-- What an event adds to the archive is the connection that left. -/
theorem event_archive (h : Kept s w) (hevent : Event env calm s w w') :
    w'.archive = w.archive ∨ ∃ x c d, w.slots x = .client c ∧ w'.slots x = .empty ∧
      Leaves x w c d ∧ w'.archive = w.archive ++ [d] := by
  cases hevent with
  | @moved w' ans fd hmove =>
      cases move_turned h hmove with
      | altered _ _ _ haround => exact .inl haround.archive
      | departed hslot hdeparts hvacated =>
          exact .inr ⟨_, _, _, hslot, hvacated.empty, .departed hdeparts, hvacated.archive⟩
      | untouched _ haround => exact .inl haround.archive
  | cut ans hweak hslot hdraining hphase hfresh =>
      have hvacated := vacated_close hslot ans
      exact .inr ⟨_, _, _, hslot, hvacated.empty, .cut hdraining hphase hfresh, hvacated.archive⟩
  | aside hbeside => exact .inl (aside_apart hbeside).archive
  | _ => exact .inl rfl

theorem event_marked (h : Kept s w) (hevent : Event env calm s w w') (hmarked : Marked w) :
    Marked w' := by
  cases hevent with
  | @moved w' ans fd hmove =>
      cases move_turned h hmove with
      | altered _ _ _ haround => exact haround.marked hmarked
      | departed _ _ hvacated => exact hvacated.marked hmarked
      | untouched _ haround => exact haround.marked hmarked
  | cut ans hweak hslot => exact (vacated_close hslot ans).marked hmarked
  | aside hbeside => exact (aside_apart hbeside).marked hmarked
  | published | elapsed => exact hmarked
  | missed => exact marked_setSlot (marked_setSlot (w := { w with borrowed := _ }) hmarked _ _) _ _
  | spared => exact marked_setSlot (w := { w with drainInflight := _ }) hmarked _ _
  | _ => exact marked_setSlot hmarked _ _

end Events

section Counted

variable {env : Outside} {ans : Answers} {calm : Bool} {w : World} {fd : Fd} {c c' d : Conn}

theorem progress_counted {p q : Hand} (h : Progress env ans calm p q) :
    q.2.drainCounted = p.2.drainCounted := by
  cases h with
  | pumped hphase hpumped =>
      obtain ⟨_, _, _, _, _, rfl⟩ := pumped_fields hpumped
      rfl
  | @tunnelled w c asked =>
      obtain ⟨out, hout⟩ := tunnelled_fields env w c asked
      rw [hout]
  | @headRelayed w c framing =>
      obtain ⟨out, hout⟩ := relayHead_fields env w c framing
      rw [hout]
  | @shuttled w c =>
      obtain ⟨tls, phase, hasty, hfields, -, -⟩ := shuttled_fields ans c
      rw [hfields]
  | _ => rfl

theorem flushedDown_counted (ans : Answers) (fd : Fd) (c : Conn) :
    (flushedDown ans fd c).drainCounted = c.drainCounted := by
  obtain ⟨tls, outbox, given, hsealed, -⟩ := sealed_fields ans.rustls c
  obtain ⟨tls', outbox', hunloaded, -⟩ := unloaded_fields
    { c with tls := tls, outbox := outbox, book := { c.book with given := given } }
  unfold flushedDown
  rw [hsealed]
  dsimp only
  rw [hunloaded]
  split
  · split <;> rfl
  · rfl

theorem refusedWith_counted (c : Conn) (status : Nat) (body : Bytes) (close : Bool)
    (unsupported : Option Bytes) :
    (refusedWith env c status body close unsupported).drainCounted = c.drainCounted := by
  unfold refusedWith answeredSelf
  dsimp only
  split <;> split <;> rfl

theorem launched_counted (addr : SocketAddr) (w : World) (c : Conn) :
    (launched ans addr w c).drainCounted = c.drainCounted := by
  obtain ⟨held, hheld⟩ := holdInflight_fields w
    { c with dispatchedAt := some w.clock, deadline := some (w.clock + w.config.responseTimeout) }
  unfold launched
  rw [hheld]
  dsimp only
  repeat' split
  all_goals rfl

/-- Nothing an exchange does to its connection makes a drain count it. -/
theorem alter_counted (h : Alter env ans calm fd w c c') : c'.drainCounted = c.drainCounted := by
  cases h with
  | progress h => exact progress_counted h
  | refused => exact refusedWith_counted ..
  | finished =>
      unfold Conn.ended
      dsimp only
      split <;> rfl
  | flushedDown => exact flushedDown_counted ans fd c
  | flushedUp =>
      unfold flushedUp
      repeat' split
      all_goals rfl
  | watchedUp =>
      unfold watchedUp
      repeat' split
      all_goals rfl
  | watchedDown =>
      unfold watchedDown
      split <;> rfl
  | @dispatched c matched framing first allowed target others =>
      obtain ⟨_, _, _, hfields⟩ := dispatched_fields ans w c w.routes matched framing first
        (target :: others) target
      rw [hfields]
  | launched => exact launched_counted ..
  | requeued =>
      unfold Conn.requeued
      dsimp only
      split <;> rfl
  | released | lost => rfl

theorem alters_counted (h : Alters env ans calm fd w c c') :
    c'.drainCounted = c.drainCounted := by
  induction h with
  | refl => rfl
  | tail _ hstep ih =>
      obtain ⟨_, -, halter⟩ := hstep
      exact (alter_counted halter).trans ih

variable (env) (ans) in
theorem ingest_counted (w : World) (c : Conn) (bytes : Bytes) :
    (ingest env ans w c bytes).drainCounted = c.drainCounted := by
  have hgreet : ∀ config c session offer,
      (greet ans config c session offer).drainCounted = c.drainCounted := by
    intro config c session offer
    unfold greet
    dsimp only
    repeat' split
    all_goals rfl
  have hunwrap : ∀ config c bytes,
      (unwrap ans config c bytes).drainCounted = c.drainCounted := by
    intro config c bytes
    unfold unwrap
    dsimp only
    split
    · rfl
    · split
      · rfl
      · exact hgreet ..
      · rfl
  unfold ingest
  split
  · exact hunwrap ..
  · dsimp only
    split
    · rfl
    · rfl
    · exact hunwrap ..

theorem readClient_counted (w : World) (c : Conn) (outcome : Outcome) :
    (readClient env ans w c outcome).drainCounted = c.drainCounted := by
  unfold readClient
  split
  · dsimp only
    split <;> rfl
  · have hingested := ingest_counted env ans w
      { c with book := c.book.hearClient w.clock } ‹_›
    dsimp only
    split
    · exact hingested
    · exact hingested
  · rfl

/-- Only a drain starts counting a connection, and nothing stops it. -/
theorem change_counted (h : Change env calm fd w c c') :
    c'.drainCounted = c.drainCounted ∨ w.drainDeadline.isSome = true := by
  cases h with
  | moved h => exact .inl (alters_counted h)
  | readDown => exact .inl (readClient_counted ..)
  | wroteDown outcome =>
      refine .inl ?_
      unfold wroteClient
      split <;> rfl
  | wroteUp =>
      refine .inl ?_
      split <;> rfl
  | readUp | connected | missed => exact .inl rfl
  | spared hdraining => exact .inr hdraining

end Counted

end Ramjet.Engine.Worker.Changes
