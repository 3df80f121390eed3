/- digest: Every handler of a core as events, and what it leaves to do. -/

import Ramjet.Engine.Worker.Changes

set_option autoImplicit false
set_option relaxedAutoImplicit false

namespace Ramjet.Engine.Worker.Handling

open Ramjet.Base.Octets
open Ramjet.Base.Net
open Ramjet.Base.AssocMap
open Ramjet.Engine.IdlePool
open Ramjet.Engine.Limits
open Ramjet.Engine.Worker.Accounting
open Ramjet.Engine.Worker.Connection
open Ramjet.Engine.Worker.Core
open Ramjet.Engine.Worker.Serving
open Ramjet.Engine.Worker.Requests
open Ramjet.Engine.Worker.Handlers
open Ramjet.Engine.Worker.Loop
open Ramjet.Engine.Worker.Descriptors
open Ramjet.Engine.Worker.Ownership
open Ramjet.Engine.Worker.Moves
open Ramjet.Engine.Worker.Frames
open Ramjet.Engine.Worker.Images
open Ramjet.Engine.Worker.Turns
open Ramjet.Engine.Worker.Events
open Ramjet.Engine.Worker.Keeping
open Ramjet.Engine.Worker.Arrivals
open Ramjet.Engine.Worker.Alterations
open Ramjet.Engine.Worker.Changes

variable (env : Outside) (ans : Answers) (calm s : Bool)

/-- A connection its core has nothing left to do for: one that ends has something to write yet. -/
def Rested (c : Conn) : Prop :=
  c.handOff = false ∧ (c.phase = .closing → c.writing = true ∨ c.hasPendingOut = true)

def RestsAt (w : World) (fd : Fd) : Prop := ∀ c, w.slots fd = .client c → Rested c

/-- Beside one descriptor no connection is new, and the listeners are what they were. -/
structure Beside (fd : Fd) (w w' : World) : Prop where
  others : ∀ x c, x ≠ fd → w'.slots x = .client c → w.slots x = .client c
  drainDeadline : w'.drainDeadline = w.drainDeadline
  intakes : w'.intakes = w.intakes
  admin : w'.admin = w.admin

/-- Nothing happened to any connection or listener. -/
structure Aloof (w w' : World) : Prop where
  clients : ∀ x c, w'.slots x = .client c ↔ w.slots x = .client c
  drainDeadline : w'.drainDeadline = w.drainDeadline
  intakes : w'.intakes = w.intakes
  admin : w'.admin = w.admin

/-- A handler as the events it consists of, about the connection on one descriptor. -/
structure Handled (fd : Fd) (w : World) (ran : World × List Task) : Prop where
  happens : Happens env calm s w ran.1
  beside : Beside fd w ran.1
  left : Left ran.1 fd ran.2
  served : ran.2 ≠ [] → Served ran.1 fd
  rests : ran.2 = [] → RestsAt ran.1 fd

section Moving

variable {env} {ans} {calm} {s} {w w' : World} {fd : Fd} {c : Conn} {ran : World × List Task}

theorem Beside.refl (fd : Fd) (w : World) : Beside fd w w := ⟨fun _ _ _ => id, rfl, rfl, rfl⟩

theorem Beside.trans {w'' : World} (h : Beside fd w w') (h' : Beside fd w' w'') :
    Beside fd w w'' :=
  ⟨fun x c hx hc => h.others x c hx (h'.others x c hx hc), h'.drainDeadline.trans h.drainDeadline,
    h'.intakes.trans h.intakes, h'.admin.trans h.admin⟩

theorem Beside.of_frame (h : Frame fd w w') : Beside fd w w' :=
  ⟨h.others, h.drainDeadline, h.intakes, h.admin⟩

theorem Beside.of_apart (fd : Fd) (h : Apart w w') (hdeadline : w'.drainDeadline = w.drainDeadline)
    (hintakes : w'.intakes = w.intakes) (hadmin : w'.admin = w.admin) : Beside fd w w' :=
  ⟨fun x c _ hc => (h.clients x c).mp hc, hdeadline, hintakes, hadmin⟩

theorem Beside.of_same (fd : Fd) (hslots : w'.slots = w.slots)
    (hdeadline : w'.drainDeadline = w.drainDeadline) (hintakes : w'.intakes = w.intakes)
    (hadmin : w'.admin = w.admin) : Beside fd w w' :=
  ⟨fun x c _ hc => by rw [← hslots]; exact hc, hdeadline, hintakes, hadmin⟩

theorem Aloof.refl (w : World) : Aloof w w := ⟨fun _ _ => .rfl, rfl, rfl, rfl⟩

theorem Aloof.trans {w'' : World} (h : Aloof w w') (h' : Aloof w' w'') : Aloof w w'' :=
  ⟨fun x c => (h'.clients x c).trans (h.clients x c), h'.drainDeadline.trans h.drainDeadline,
    h'.intakes.trans h.intakes, h'.admin.trans h.admin⟩

theorem Aloof.of_aside (h : Aside w w') (hdeadline : w'.drainDeadline = w.drainDeadline)
    (hintakes : w'.intakes = w.intakes) (hadmin : w'.admin = w.admin) : Aloof w w' :=
  ⟨(aside_apart h).clients, hdeadline, hintakes, hadmin⟩

theorem Aloof.beside (h : Aloof w w') (fd : Fd) : Beside fd w w' :=
  ⟨fun x c _ hc => (h.clients x c).mp hc, h.drainDeadline, h.intakes, h.admin⟩

theorem Aloof.rests (h : Aloof w w') (hrested : ∀ x, RestsAt w x) (x : Fd) : RestsAt w' x :=
  fun c hc => hrested x c ((h.clients x c).mp hc)

theorem Beside.put (fd : Fd) (w : World) (slot : Slot) : Beside fd w (w.setSlot fd slot) :=
  .of_frame (.put fd w slot)

theorem Beside.retire (fd : Fd) (w : World) (op : Op) (outcome : Outcome) :
    Beside fd w (w.retire op outcome) := .of_same fd rfl rfl rfl rfl

theorem Beside.pool (fd : Fd) (w : World) (pool : Pool) : Beside fd w { w with pool := pool } :=
  .of_same fd rfl rfl rfl rfl

theorem steps_happens (h : Steps env ans calm fd w w') : Happens env calm s w w' := by
  induction h with
  | refl => exact .refl
  | tail _ hmove ih => exact ih.tail (.moved hmove)

theorem steps_frame (h : Steps env ans calm fd w w') : Frame fd w w' := by
  induction h with
  | refl => exact .refl fd w
  | tail _ hmove ih => exact ih.trans (move_frame hmove)

theorem move_served (h : Kept s w) (hserved : Served w fd) (hmove : Move env ans calm fd w w') :
    Served w' fd := by
  cases move_turned h hmove with
  | altered _ hslot' => exact .inl ⟨_, hslot'⟩
  | departed _ _ hvacated => exact .inr hvacated.empty
  | untouched hsame =>
      unfold Served
      rw [hsame]
      exact hserved

theorem steps_served (h : Kept s w) (hserved : Served w fd) (hsteps : Steps env ans calm fd w w') :
    Kept s w' ∧ Served w' fd := by
  induction hsteps with
  | refl => exact ⟨h, hserved⟩
  | tail _ hmove ih => exact ⟨ih.1.moved hmove, move_served ih.1 ih.2 hmove⟩

theorem Handled.of_ran (h : Kept s w) (hserved : Served w fd) (hran : Ran env ans calm fd w ran)
    (hrests : ran.2 = [] → RestsAt ran.1 fd) : Handled env calm s fd w ran :=
  ⟨steps_happens hran.steps, .of_frame (steps_frame hran.steps), hran.left,
    fun _ => (steps_served h hserved hran.steps).2, hrests⟩

theorem Handled.after (hevents : Happens env calm s w w') (hbeside : Beside fd w w')
    (h : Handled env calm s fd w' ran) : Handled env calm s fd w ran :=
  ⟨hevents.trans h.happens, hbeside.trans h.beside, h.left, h.served, h.rests⟩

/-- An event that leaves its connection to be moved on. -/
theorem Handled.of_event (hevent : Event env calm s w w') (hbeside : Beside fd w w')
    (hslot : w'.slots fd = .client c) {task : Task}
    (htask : task = .advance fd ∨ task = .drive fd) : Handled env calm s fd w (w', [task]) :=
  ⟨.single hevent, hbeside, ⟨htask.imp_right .inl, nofun⟩, fun _ => .inl ⟨c, hslot⟩, nofun⟩

/-- Nothing but events beside the connections, and nothing left to do. -/
theorem Handled.aside (hevents : Happens env calm s w w') (hbeside : Beside fd w w')
    (hrests : RestsAt w' fd) : Handled env calm s fd w (w', []) :=
  ⟨hevents, hbeside, trivial, fun hnone => absurd rfl hnone, fun _ => hrests⟩

end Moving

section Resting

variable {env} {ans} {w : World} {fd : Fd} {c : Conn}

theorem watchedDown_handOff (c : Conn) : (watchedDown ans fd c).handOff = c.handOff := by
  unfold watchedDown
  split <;> rfl

theorem settle_rests (hslot : w.slots fd = .client c) (hgiven : c.handOff = false) :
    RestsAt (settle ans w fd) fd := by
  intro d hd
  unfold settle at hd
  simp only [hslot] at hd
  split at hd
  · rw [close_slots, Function.update_self] at hd
    cases hd
  · rename_i hbusy
    rw [hslot, Slot.client.injEq] at hd
    subst hd
    refine ⟨hgiven, fun hphase => ?_⟩
    simpa [hphase, imp_iff_not_or] using hbusy

theorem drive_rests (hdone : (drive ans w fd).2 = []) : RestsAt (drive ans w fd).1 fd := by
  intro d hd
  unfold drive at hdone hd
  cases hslot : w.slots fd with
  | client c =>
      simp only [hslot] at hdone hd
      cases hgiven : c.handOff with
      | true =>
          simp only [hgiven, if_true] at hdone hd
          unfold handOff at hdone hd
          simp only [hslot] at hdone hd
          split at hdone
          · cases hdone
          · rename_i hdispatch
            rw [if_neg hdispatch] at hd
            have hgone : Slot.client d = .empty := hd.symm.trans (Function.update_self ..)
            cases hgone
      | false =>
          simp only [hgiven, Bool.false_eq_true, if_false] at hd
          refine settle_rests (readDown_slot (readUp_slot (flushUp_slot (flushDown_slot hslot))))
            ?_ d hd
          rw [watchedDown_handOff, watchedUp_handOff, flushedUp_handOff, flushedDown_handOff]
          exact hgiven
  | _ =>
      simp only [hslot] at hd
      rw [setSlot_slots, Function.update_self] at hd
      cases hd

theorem launched_handOff (addr : SocketAddr) (w : World) (c : Conn) :
    (launched ans addr w c).handOff = c.handOff := by
  obtain ⟨held, hheld⟩ := holdInflight_fields w
    { c with dispatchedAt := some w.clock, deadline := some (w.clock + w.config.responseTimeout) }
  unfold launched
  rw [hheld]
  dsimp only
  repeat' split
  all_goals rfl

theorem launched_phase (addr : SocketAddr) (w : World) (hphase : c.phase = .exchanging) :
    (launched ans addr w c).phase = .exchanging ∨ (launched ans addr w c).phase = .connecting := by
  obtain ⟨held, hheld⟩ := holdInflight_fields w
    { c with dispatchedAt := some w.clock, deadline := some (w.clock + w.config.responseTimeout) }
  unfold launched
  rw [hheld]
  dsimp only
  split
  · exact .inl rfl
  · split
    · exact .inl hphase
    · split
      · exact .inl rfl
      · split
        · exact .inr rfl
        · exact .inl hphase

theorem openUpstream_rests (hslot : w.slots fd = .client c) (hphase : c.phase = .exchanging)
    (hgiven : c.handOff = false) (hdone : (openUpstream env ans w fd).2 = []) :
    RestsAt (openUpstream env ans w fd).1 fd := by
  cases haddr : c.targets[c.attempt]? with
  | none =>
      have hexhausted : openUpstream env ans w fd = exhausted env ans w fd := by
        unfold openUpstream
        simp only [hslot, haddr]
      rw [hexhausted] at hdone ⊢
      exact drive_rests hdone
  | some addr =>
      intro d hd
      rw [launched_slot hslot haddr, Slot.client.injEq] at hd
      rw [← hd]
      refine ⟨(launched_handOff addr w c).trans hgiven, fun hclosing => ?_⟩
      have hnext : (launched ans addr w c).phase = .exchanging ∨
          (launched ans addr w c).phase = .connecting := launched_phase addr w hphase
      rcases hnext with h | h <;> rw [h] at hclosing <;>
        cases hclosing

theorem retryOrFail_rests (hslot : w.slots fd = .client c) (hgiven : c.handOff = false)
    (hdone : (retryOrFail env ans w fd).2 = []) : RestsAt (retryOrFail env ans w fd).1 fd := by
  unfold retryOrFail at hdone ⊢
  simp only [hslot] at hdone ⊢
  rw [released_fields] at hdone ⊢
  split at hdone
  · rename_i hout
    rw [if_pos hout]
    exact drive_rests hdone
  · rename_i hout
    rw [if_neg hout]
    refine openUpstream_rests (setClient_slot ..) ?_ ?_ hdone
    · unfold Conn.requeued
      rfl
    · unfold Conn.requeued
      dsimp only
      split <;> exact hgiven

theorem upstreamFailed_rests (hslot : w.slots fd = .client c) (hgiven : c.handOff = false)
    (hdone : (upstreamFailed env ans w fd).2 = []) : RestsAt (upstreamFailed env ans w fd).1 fd := by
  unfold upstreamFailed at hdone ⊢
  simp only [hslot] at hdone ⊢
  split at hdone
  · rename_i hseen
    rw [if_pos hseen]
    exact drive_rests hdone
  · rename_i hseen
    rw [if_neg hseen]
    exact retryOrFail_rests (setClient_slot ..) hgiven hdone

end Resting

section Upstreams

variable {env} {ans} {calm} {s} {w : World} {op : Op} {k : Kind} {fd up down : Fd} {c : Conn}

theorem upstreamFailed_handled (h : Kept s w) (hslot : w.slots fd = .client c)
    (hup : c.upstream ≠ none) (hborrowed : c.upBorrowed = false) (huntaken : Untaken ans w) :
    Handled env calm s fd w (upstreamFailed env ans w fd) := by
  have hsteady := h.steady fd c hslot
  have haimed := hsteady.aimed hup
  have hhead : c.phase ≠ .head := fun hphase => hup (hsteady.shape.head hphase).1
  exact .of_ran h (.inl ⟨c, hslot⟩)
    (upstreamFailed_ran hslot hhead hborrowed fun _ => ⟨haimed, huntaken⟩)
    (upstreamFailed_rests hslot (hsteady.served haimed).1)

/-- The upstream of a connection hung up. -/
theorem onUpstreamEof_handled (h : Kept s w) (hslot : w.slots fd = .client c)
    (hup : c.upstream ≠ none) (hborrowed : c.upBorrowed = false) (hquiet : c.upReading = false)
    (huntaken : Untaken ans w) : Handled env calm s fd w (onUpstreamEof env ans w fd) := by
  unfold onUpstreamEof
  simp only [hslot]
  split
  · rename_i htunnel
    rw [beq_iff_eq] at htunnel
    have hended : Progress env ans calm (w, c) (w, { c with upstreamEof := true, upReading := false }) :=
      .upEnded htunnel hquiet
    exact .of_event (.moved (.put hslot (.single hended)))
      (.put fd w _) (setClient_slot ..) (.inl rfl)
  · rename_i htunnel
    rw [beq_iff_eq] at htunnel
    split
    · rename_i hclosed
      simp only [Bool.and_eq_true, beq_iff_eq] at hclosed
      have hput : Steps env ans calm fd w (w.setClient fd (closed c)) :=
        .put hslot (.single (.closed htunnel hclosed.1 hclosed.2))
      have hfinish := hput.tail (.finish (setClient_slot ..) hclosed.1 rfl htunnel)
      refine .of_ran h (.inl ⟨c, hslot⟩) ⟨hfinish, .inl rfl, nofun⟩ nofun
    · exact upstreamFailed_handled h hslot hup hborrowed huntaken

/-- What is in flight towards the upstream of a connection is in flight for it. -/
theorem Kept.attached_live (h : Kept s w) (hop : Live w op k) (hk : k = .upRead ∨ k = .upWrite)
    (hup : w.slots op.fd = .upstream down) (hslot : w.slots down = .client c) :
    c.upstream = some op.fd ∧ c.upBorrowed = false ∧ (tiesOf c).up k = 1 := by
  obtain ⟨own, ho⟩ := h.owned
  have hflight : flightOf w op.fd k ≠ 0 := flight_live hop (by rcases hk with rfl | rfl <;> nofun)
  have hrole : (viewOf w).role op.fd = .upstream down := congrArg roleOf hup
  obtain ⟨hattached, hlent⟩ := (ho.named op.fd down hrole).2.2.2 (tiesOf c) (role_client hslot)
  have hown : c.upBorrowed = false := by
    cases hb : c.upBorrowed with
    | false => rfl
    | true =>
        have hfits := ho.fits op.fd
        rw [hlent hb] at hfits
        exact absurd (hfits.2.2.1 k) hflight
  refine ⟨hattached, hown, ?_⟩
  have hfits := ho.fits op.fd
  rw [ho.attached down (tiesOf c) op.fd (role_client hslot) hattached hown] at hfits
  obtain ⟨-, -, -, t, ht, -, -, hnear⟩ := hfits
  rw [role_client hslot, Role.client.injEq] at ht
  subst ht
  have hle : flightOf w op.fd k ≤ (tiesOf c).up k := (hnear k).1
  rcases hk with rfl | rfl
  · have htop : (tiesOf c).up .upRead ≤ 1 := Bool.toNat_le _
    omega
  · have htop : (tiesOf c).up .upWrite ≤ 1 := Bool.toNat_le _
    omega

/-- Beside every connection, and nothing left to do. -/
theorem Handled.aloof {w' : World} (hevents : Happens env calm s w w') (haloof : Aloof w w')
    (hrested : ∀ x, RestsAt w x) (fd : Fd) : Handled env calm s fd w (w', []) :=
  .aside hevents (haloof.beside fd) (haloof.rests hrested fd)

/-- An operation of an upstream that no connection has: it is over, and that is all. -/
theorem unheard_handled (hop : Live w op k) (hk : k = .upRead ∨ k = .upWrite) (outcome : Outcome)
    (hrested : ∀ x, RestsAt w x) (hnobody : ∀ down, w.slots op.fd ≠ .upstream down)
    (hidle : k = .upRead → ∀ addr, w.slots op.fd ≠ .idle addr) :
    Handled env calm s fd w (w.retire op outcome, []) :=
  .aside (.single (.aside (.unheard outcome hop hk (fun down hup => absurd hup (hnobody down))
    hidle))) (.of_same fd rfl rfl rfl rfl) (hrested fd)

/-- One that names a connection there is none of empties the slot it names. -/
theorem cleared_handled (hop : Live w op k) (hk : k = .upRead ∨ k = .upWrite) (outcome : Outcome)
    (hrested : ∀ x, RestsAt w x) (hup : w.slots op.fd = .upstream down)
    (hdown : ∀ c, w.slots down ≠ .client c) :
    Handled env calm s fd w ((w.retire op outcome).setSlot down .empty, []) := by
  have horphan : Orphan w op.fd := by
    intro down' hup'
    rw [hup, Slot.upstream.injEq] at hup'
    rw [← hup']
    exact hdown
  have hheard : Happens env calm s w (w.retire op outcome) :=
    .single (.aside (.unheard outcome hop hk horphan fun _ addr hidle => by
      rw [hup] at hidle
      cases hidle))
  have hup' : (w.retire op outcome).slots op.fd = .upstream down := hup
  have hcleared : Aside (w.retire op outcome) ((w.retire op outcome).setSlot down .empty) :=
    .cleared hup' hdown
  have hbeside : Beside fd (w.retire op outcome) ((w.retire op outcome).setSlot down .empty) :=
    .of_apart fd (aside_apart hcleared) rfl rfl rfl
  refine .aside (hheard.tail (.aside hcleared)) ((Beside.retire fd w op outcome).trans hbeside)
    fun c hc => ?_
  exact hrested fd c (((aside_apart hcleared).clients fd c).mp hc)

variable (env) (calm) in
theorem onUpstreamRead_handled (h : Kept s w) (hop : Live w op .upRead) {outcome : Outcome}
    (hfits : Outcome.fits w op outcome = true) (huntaken : Untaken ans w)
    (hrested : ∀ x, RestsAt w x) :
    ∃ fd, Handled env calm s fd w
      (onUpstreamRead env ans (w.retire op outcome) op.fd outcome (stampsOf w op outcome)) := by
  have hsame : (w.retire op outcome).slots = w.slots := rfl
  unfold onUpstreamRead
  cases hup : w.slots op.fd with
  | idle addr =>
      refine ⟨op.fd, ?_⟩
      simp only [hsame, hup]
      have hlapsed : Aside w ({ w.retire op outcome with
          pool := ((w.retire op outcome).pool.remove addr op.fd).2 }.close ans op.fd) :=
        .lapsed ans outcome hop hup
      have hbeside := ((Beside.retire op.fd w op outcome).trans (.pool op.fd _
        ((w.retire op outcome).pool.remove addr op.fd).2)).trans (.of_frame (.close op.fd _ ans op.fd))
      refine .aside (.single (.aside hlapsed)) hbeside fun c hc => ?_
      rw [close_slots, Function.update_self] at hc
      cases hc
  | upstream down =>
      refine ⟨down, ?_⟩
      simp only [hsame, hup]
      by_cases hclient : ∃ c, w.slots down = .client c
      · obtain ⟨c, hslot⟩ := hclient
        obtain ⟨hattached, hown, hflag⟩ := Kept.attached_live h hop (.inl rfl) hup hslot
        have hreading : c.upReading = true := Bool.toNat_eq_one.mp hflag
        have hevent : Event env calm s w ((w.retire op outcome).setClient down
            (hear c outcome.bytes (stampsOf w op outcome))) :=
          .readUp outcome hop hup hslot hattached hown hreading hfits
        have hbeside : Beside down w ((w.retire op outcome).setClient down
            (hear c outcome.bytes (stampsOf w op outcome))) :=
          (Beside.retire down w op outcome).trans (.put down _ _)
        have hkept := Kept.event h hevent
        have hattached' : (hear c outcome.bytes (stampsOf w op outcome)).upstream ≠ none := by
          rw [show (hear c outcome.bytes (stampsOf w op outcome)).upstream = some op.fd
            from hattached]
          nofun
        simp only [hslot]
        split
        · exact .after (.single hevent) hbeside
            (onUpstreamEof_handled hkept (setClient_slot ..) hattached' hown rfl huntaken)
        · exact .of_event hevent hbeside (setClient_slot ..) (.inl rfl)
        · exact .after (.single hevent) hbeside
            (upstreamFailed_handled hkept (setClient_slot ..) hattached' hown huntaken)
      · have hdown : ∀ c, w.slots down ≠ .client c := fun c hc => hclient ⟨c, hc⟩
        have hcleared : Handled env calm s down w ((w.retire op outcome).setSlot down .empty, []) :=
          cleared_handled hop (.inl rfl) outcome hrested hup hdown
        split
        · exact absurd ‹_› (hdown _)
        · exact hcleared
  | _ =>
      refine ⟨op.fd, ?_⟩
      simp only [hsame, hup]
      exact unheard_handled hop (.inl rfl) outcome hrested (by rw [hup]; intro _ he; cases he)
        fun _ => by rw [hup]; intro _ he; cases he

variable (env) (calm) in
theorem onUpstreamWrite_handled (h : Kept s w) (hop : Live w op .upWrite) (outcome : Outcome)
    (huntaken : Untaken ans w) (hrested : ∀ x, RestsAt w x) :
    ∃ fd, Handled env calm s fd w
      (onUpstreamWrite env ans (w.retire op outcome) op.fd op.payload outcome) := by
  have hsame : (w.retire op outcome).slots = w.slots := rfl
  unfold onUpstreamWrite
  cases hup : w.slots op.fd with
  | upstream down =>
      refine ⟨down, ?_⟩
      simp only [hsame, hup]
      by_cases hclient : ∃ c, w.slots down = .client c
      · obtain ⟨c, hslot⟩ := hclient
        obtain ⟨hattached, hown, hflag⟩ := Kept.attached_live h hop (.inr rfl) hup hslot
        have hwriting : c.upWriting = true := Bool.toNat_eq_one.mp hflag
        have hevent : Event env calm s w ((w.retire op outcome).setClient down
            (if outcome = .wrote then delivered c op.payload else { c with upWriting := false })) :=
          .wroteUp outcome hop hup hslot hattached hown hwriting
        have hbeside : Beside down w ((w.retire op outcome).setClient down
            (if outcome = .wrote then delivered c op.payload else { c with upWriting := false })) :=
          (Beside.retire down w op outcome).trans (.put down _ _)
        have hkept := Kept.event h hevent
        simp only [hslot]
        split
        · exact .of_event hevent hbeside (setClient_slot ..) (.inl rfl)
        · rename_i hfailed
          rw [if_neg hfailed] at hevent hbeside hkept
          have hattached' : ({ c with upWriting := false } : Conn).upstream ≠ none := by
            rw [show ({ c with upWriting := false } : Conn).upstream = some op.fd from hattached]
            nofun
          exact .after (.single hevent) hbeside
            (upstreamFailed_handled hkept (setClient_slot ..) hattached' hown huntaken)
      · have hdown : ∀ c, w.slots down ≠ .client c := fun c hc => hclient ⟨c, hc⟩
        have hcleared : Handled env calm s down w ((w.retire op outcome).setSlot down .empty, []) :=
          cleared_handled hop (.inr rfl) outcome hrested hup hdown
        split
        · exact absurd ‹_› (hdown _)
        · exact hcleared
  | _ =>
      refine ⟨op.fd, ?_⟩
      simp only [hsame, hup]
      exact unheard_handled hop (.inr rfl) outcome hrested (by rw [hup]; intro _ he; cases he) nofun

/-- What the helper holds is no connection's own descriptor. -/
theorem Kept.bare_borrowed (h : Kept s w) (hup : up ∈ w.borrowed) : Bare (w.slots up) := by
  obtain ⟨own, ho⟩ := h.owned
  have hown := ho.borrowed up hup
  exact ho.plain_role (by rw [hown]; nofun) (by rw [hown]; nofun)

/-- The helper gives a descriptor back for which nobody waits any more. -/
theorem forsaken_handled (h : Kept s w) (hup : up ∈ w.borrowed) (hrested : ∀ x, RestsAt w x)
    (hnobody : ∀ down, w.slots up ≠ .upstream down) :
    Handled env calm s fd w
      (({ w with borrowed := w.borrowed.erase up }.setSlot up .empty).sysClose up, []) := by
  have hforsaken : Aside w
      (({ w with borrowed := w.borrowed.erase up }.setSlot up .empty).sysClose up) :=
    .forsaken hup (fun down hdown => absurd hdown (hnobody down)) (Kept.bare_borrowed h hup).not_client
  have hapart := aside_apart hforsaken
  exact .aside (.single (.aside hforsaken)) (.of_apart fd hapart rfl rfl rfl) fun c hc =>
    hrested fd c ((hapart.clients fd c).mp hc)

variable (env) (calm) in
theorem onConnected_handled (h : Kept s w) (hup : up ∈ w.borrowed) (ok : Bool)
    (huntaken : Untaken ans w) (hrested : ∀ x, RestsAt w x) :
    ∃ fd, Handled env calm s fd w (onConnected env ans w up ok) := by
  unfold onConnected
  dsimp only
  cases hslotUp : w.slots up with
  | upstream down =>
      refine ⟨down, ?_⟩
      dsimp only
      by_cases hclient : ∃ c, w.slots down = .client c
      · obtain ⟨c, hslot⟩ := hclient
        obtain ⟨own, ho⟩ := h.owned
        obtain ⟨hattached, hlent⟩ := ho.waiting (u := up) (f := down) (t := tiesOf c) hup
          (congrArg roleOf hslotUp) (role_client hslot)
        have hattached : c.upstream = some up := hattached
        have hlent : c.upBorrowed = true := hlent
        have hsteady := h.steady down c hslot
        simp only [hslot]
        split
        · have hgiven : Beside down w { w with borrowed := w.borrowed.erase up } :=
            .of_same down rfl rfl rfl rfl
          exact .of_event (.connected hup hslotUp hslot hattached hlent)
            (hgiven.trans (.put down _ _)) (setClient_slot ..) (.inl rfl)
        · have hevent : Event env calm s w ((({ w with borrowed := w.borrowed.erase up }.setSlot up
              .empty).sysClose up).setClient down { c with upBorrowed := false, upstream := none }) :=
            .missed hup hslotUp hslot hattached hlent
          have hgone : Apart w
              (({ w with borrowed := w.borrowed.erase up }.setSlot up .empty).sysClose up) :=
            have hgiven : Apart w { w with borrowed := w.borrowed.erase up } :=
              .of_same rfl rfl rfl
            (hgiven.then_put (Kept.bare_borrowed h hup).not_client empty_not_client).trans
              (.of_same rfl rfl rfl)
          have hbeside : Beside down w ((({ w with borrowed := w.borrowed.erase up }.setSlot up
              .empty).sysClose up).setClient down { c with upBorrowed := false, upstream := none }) :=
            (Beside.of_apart down hgone rfl rfl rfl).trans (.put down _ _)
          have hkept := Kept.event h hevent
          have hshape := hsteady.shape.borrowed hlent
          have haimed : c.attempt < c.targets.length := hsteady.aimed (by rw [hattached]; nofun)
          have hhead : c.phase ≠ .head := by
            rcases hshape.2.2.2.2 with hphase | hphase <;>
              rw [show c.phase = _ from hphase] <;> nofun
          have hdue : Due { c with upBorrowed := false, upstream := none } :=
            ⟨hhead, hshape.2.2.2.1, rfl, rfl, haimed⟩
          have huntaken' : Untaken ans ((({ w with borrowed := w.borrowed.erase up }.setSlot up
              .empty).sysClose up).setClient down { c with upBorrowed := false, upstream := none }) := by
            intro up' connected hconnect
            have hfree := huntaken up' connected hconnect
            show Function.update w.opened up false up' = false
            by_cases hsame : up' = up
            · rw [hsame, Function.update_self]
            · rw [Function.update_of_ne hsame]
              exact hfree
          exact .after (.single hevent) hbeside (.of_ran hkept (.inl ⟨_, setClient_slot ..⟩)
            (retryOrFail_ran (setClient_slot ..) hdue huntaken')
            (retryOrFail_rests (setClient_slot ..) (hsteady.served haimed).1))
      · have hdown : ∀ c, w.slots down ≠ .client c := fun c hc => hclient ⟨c, hc⟩
        have hcleared : Aside w (w.setSlot down .empty) := .cleared hslotUp hdown
        have hapart := aside_apart hcleared
        have hkept := Kept.beside h hcleared
        have hnobody : ∀ d, (w.setSlot down .empty).slots up = .upstream d →
            ∀ c, (w.setSlot down .empty).slots d ≠ .client c := by
          intro d hd c hc
          rw [setSlot_slots] at hd
          by_cases hsame : up = down
          · rw [hsame, Function.update_self] at hd
            cases hd
          · rw [Function.update_of_ne hsame, hslotUp, Slot.upstream.injEq] at hd
            exact hdown c (hd ▸ (hapart.clients d c).mp hc)
        have hforsaken : Aside (w.setSlot down .empty)
            (({ w.setSlot down .empty with borrowed := w.borrowed.erase up }.setSlot up
              .empty).sysClose up) :=
          .forsaken hup hnobody (Kept.bare_borrowed hkept hup).not_client
        have hboth := hapart.trans (aside_apart hforsaken)
        have hresult : Handled env calm s down w
            ((({ w with borrowed := w.borrowed.erase up }.setSlot down .empty).setSlot up
              .empty).sysClose up, []) :=
          .aside ((Relation.ReflTransGen.single (.aside hcleared)).tail (.aside hforsaken))
            (.of_apart down hboth rfl rfl rfl) fun c hc => hrested down c ((hboth.clients down c).mp hc)
        split
        · exact absurd ‹_› (hdown _)
        · exact hresult
  | _ =>
      exact ⟨up, forsaken_handled h hup hrested (by rw [hslotUp]; intro _ he; cases he)⟩

end Upstreams

section Clients

variable {env} {ans} {calm} {s} {w : World} {op : Op} {k : Kind} {fd : Fd}

/-- What is in flight on a client's descriptor is in flight for it. -/
theorem Kept.client_live (h : Kept s w) (hop : Live w op k)
    (hk : k = .downRead ∨ k = .downWrite) :
    ∃ c, w.slots op.fd = .client c ∧ (tiesOf c).down k = 1 := by
  obtain ⟨own, ho⟩ := h.owned
  have hflight : flightOf w op.fd k ≠ 0 := flight_live hop (by rcases hk with rfl | rfl <;> nofun)
  have hfits := ho.fits op.fd
  rw [ho.down_owner hk hflight] at hfits
  obtain ⟨-, t, ht, hall⟩ := hfits
  obtain ⟨c, hc, rfl⟩ := slot_client ht
  refine ⟨c, hc, ?_⟩
  have heq : flightOf w op.fd k = (tiesOf c).down k := hall k
  rcases hk with rfl | rfl
  · have htop : (tiesOf c).down .downRead ≤ 1 := Bool.toNat_le _
    omega
  · have htop : (tiesOf c).down .downWrite ≤ 1 := Bool.toNat_le _
    omega

theorem onClientRead_handled (h : Kept s w) (hop : Live w op .downRead) {outcome : Outcome}
    (hfits : Outcome.fits w op outcome = true) (hrested : ∀ x, RestsAt w x) :
    Handled env calm s op.fd w (onClientRead env ans (w.retire op outcome) op.fd outcome) := by
  obtain ⟨c, hslot, hflag⟩ := Kept.client_live h hop (.inl rfl)
  have hreading : c.reading = true := Bool.toNat_eq_one.mp hflag
  have hslot' : (w.retire op outcome).slots op.fd = .client c := hslot
  unfold onClientRead
  simp only [hslot']
  exact .of_event (.readDown ans outcome hop hslot hreading (hrested op.fd c hslot).1 hfits)
    ((Beside.retire op.fd w op outcome).trans (.put op.fd _ _)) (setClient_slot ..) (.inl rfl)

theorem onClientWrite_handled (h : Kept s w) (hop : Live w op .downWrite) (outcome : Outcome) :
    Handled env calm s op.fd w (onClientWrite (w.retire op outcome) op.fd outcome) := by
  obtain ⟨c, hslot, hflag⟩ := Kept.client_live h hop (.inr rfl)
  have hwriting : c.writing = true := Bool.toNat_eq_one.mp hflag
  have hslot' : (w.retire op outcome).slots op.fd = .client c := hslot
  unfold onClientWrite
  simp only [hslot']
  exact .of_event (.wroteDown outcome hop hslot hwriting)
    ((Beside.retire op.fd w op outcome).trans (.put op.fd _ _)) (setClient_slot ..) (.inl rfl)

theorem startClient_handled (h : Kept s w) (tls : Bool) (hfree : w.opened fd = false)
    (hserving : w.drainDeadline = none) (hrested : ∀ x, RestsAt w x) :
    Handled env calm s fd w (startClient ans w fd tls) := by
  unfold startClient
  split
  · exact .aloof (.single (.aside (.turnedAway hfree))) ⟨fun _ _ => .rfl, rfl, rfl, rfl⟩ hrested fd
  · have hevent : Event env calm s w
        (((w.opening fd).bumpGeneration fd).setClient fd (newClient ans w tls)) :=
      .started ans tls hfree hserving (h.free_slot hfree)
    have hopening : Beside fd w ((w.opening fd).bumpGeneration fd) := .of_same fd rfl rfl rfl rfl
    have hserved : Served (((w.opening fd).bumpGeneration fd).setClient fd (newClient ans w tls)) fd :=
      .inl ⟨_, setClient_slot ..⟩
    exact .after (.single hevent) (hopening.trans (.put fd _ _))
      (.of_ran (Kept.event h hevent) hserved (drive_ran hserved) drive_rests)

variable (env) (calm) in
/-- One connection of a sweep. -/
theorem sweepClient_handled (h : Kept s w) (now : Nat) (hrested : ∀ x, RestsAt w x) :
    Handled env calm s fd w (sweepClient env ans w fd now) := by
  unfold sweepClient
  split
  · rename_i c hslot
    have hserved : Served w fd := .inl ⟨c, hslot⟩
    have hsteady := h.steady fd c hslot
    split
    · rename_i hdue
      have hlate : (c.phase = .exchanging ∨ c.phase = .connecting) →
          Handled env calm s fd w (drive ans (fail env ans w fd 504 TIMEOUT true) fd) := by
        intro hphase
        have hseen : c.responseHeadSeen = false := hsteady.shape.early hphase.symm
        have hhead : c.phase ≠ .head := by rcases hphase with hp | hp <;> rw [hp] <;> nofun
        have hfailing : Failing w c := .late hhead hseen (hphase.imp_right .inl)
        have hfailed : Steps env ans calm fd w (fail env ans w fd 504 TIMEOUT true) :=
          .single (.fail hslot hfailing 504 TIMEOUT true none nofun
            (fun h502 => absurd h502 (by decide)) nofun)
        exact .of_ran h hserved (.after hfailed (drive_ran (served_fail env ans hslot ..)))
          drive_rests
      have hextended : (c.phase = .relaying ∨ c.phase = .closing ∨ c.phase = .tunnel) →
          Handled env calm s fd w (w.setClient fd
            { c with deadline := some (now + w.config.responseTimeout)
                     book := c.book.wind now w.config.responseTimeout }, []) := by
        intro hphase
        have hsome : c.deadline.isSome = true := by
          cases hd : c.deadline with
          | none =>
              rw [hd] at hdue
              cases hdue
          | some _ => rfl
        have hput : Steps env ans calm fd w (w.setClient fd
            { c with deadline := some (now + w.config.responseTimeout)
                     book := c.book.wind now w.config.responseTimeout }) :=
          .put hslot (.single (.extended hsome now hphase))
        refine .of_ran h hserved ⟨hput, trivial⟩ fun _ d hd => ?_
        rw [setClient_slot, Slot.client.injEq] at hd
        rw [← hd]
        exact hrested fd c hslot
      split
      · rename_i hphase
        exact hlate (.inl hphase)
      · rename_i hphase
        exact hlate (.inr hphase)
      · rename_i hphase
        have hclosed : Steps env ans calm fd w (w.close ans fd) := .single (.idled hslot hphase)
        refine .of_ran h hserved ⟨hclosed, trivial⟩ fun _ d hd => ?_
        rw [close_slots, Function.update_self] at hd
        cases hd
      · rename_i hphase
        exact hextended (.inl hphase)
      · rename_i hphase
        exact hextended (.inr (.inl hphase))
      · rename_i hphase
        exact hextended (.inr (.inr hphase))
    · exact .aloof .refl (.refl w) hrested fd
  · exact .aloof .refl (.refl w) hrested fd

variable (env) (ans) (calm) in
/-- A tick ends the drain, or clears the pool and leaves the connections to be swept. -/
theorem onTick_happens (h : Kept s w) :
    Happens env calm s w (onTick ans w).1 ∧ Aloof w (onTick ans w).1 ∧
      ((onTick ans w).2 = [] ∨ ∃ rest now, (onTick ans w).2 = [.sweep rest now]) := by
  unfold onTick
  dsimp only
  split
  · exact ⟨.single (.aside .expired), ⟨fun _ _ => .rfl, rfl, rfl, rfl⟩, .inl rfl⟩
  · obtain ⟨gone, hgone, hheld⟩ := held_expire w.pool w.clock
    have hflushed : Aside w (World.closeAll ans { w with pool := (w.pool.expire w.clock).2 }
        (w.pool.expire w.clock).1) := by
      rw [hgone]
      refine .flushed ans hheld fun e he => ?_
      exact (Kept.bare_held h (hheld.mem_iff.mpr (List.mem_append_left _ he))).not_client
    have hfixed : ∀ (fds : List Fd) (w : World),
        (World.closeAll ans w fds).drainDeadline = w.drainDeadline ∧
          (World.closeAll ans w fds).intakes = w.intakes ∧
          (World.closeAll ans w fds).admin = w.admin := by
      intro fds
      induction fds with
      | nil => exact fun _ => ⟨rfl, rfl, rfl⟩
      | cons fd rest ih =>
          intro w
          obtain ⟨hdeadline, hintakes, hadmin⟩ := ih (w.close ans fd)
          have hclosed : Frame fd w (w.close ans fd) := .close fd w ans fd
          exact ⟨hdeadline.trans hclosed.drainDeadline, hintakes.trans hclosed.intakes,
            hadmin.trans hclosed.admin⟩
    obtain ⟨hdeadline, hintakes, hadmin⟩ :=
      hfixed (w.pool.expire w.clock).1 { w with pool := (w.pool.expire w.clock).2 }
    exact ⟨.single (.aside hflushed), .of_aside hflushed hdeadline hintakes hadmin,
      .inr ⟨_, _, rfl⟩⟩

end Clients

section Admin

variable {env} {ans} {calm} {s} {w : World} {op : Op} {k : Kind} {fd : Fd} {a : AdminConn}

/-- An admin connection whose request is still being read has nothing to write, and no drain
waits for it. -/
def AdminsFresh (w : World) : Prop := ∀ fd a, w.slots fd = .admin a → a.reading = true →
  a.writing = false ∧ a.outbox = [] ∧ a.drainCounted = false

variable (env) (ans) (calm) (s) in
theorem driveAdmin_happens (hslot : w.slots fd = .admin a)
    (hfresh : a.writing = false → a.outbox = [] → a.drainCounted = false) :
    Happens env calm s w (driveAdmin ans w fd) ∧ Aloof w (driveAdmin ans w fd) := by
  have hone : ∀ {w' : World}, Aside w w' → w'.drainDeadline = w.drainDeadline →
      w'.intakes = w.intakes → w'.admin = w.admin →
      Happens env calm s w w' ∧ Aloof w w' := fun haside hdeadline hintakes hadmin =>
    ⟨.single (.aside haside), .of_aside haside hdeadline hintakes hadmin⟩
  unfold driveAdmin
  simp only [hslot]
  split
  · rename_i hqueued
    simp only [Bool.and_eq_true, Bool.not_eq_true', List.isEmpty_eq_false_iff] at hqueued
    split
    · exact hone (.adminWritten hslot hqueued.1 hqueued.2) rfl rfl rfl
    · exact hone (.adminDropped hslot) rfl rfl rfl
  · split
    · rename_i hidle
      simp only [Bool.and_eq_true, Bool.not_eq_true', List.isEmpty_iff] at hidle
      obtain ⟨⟨⟨hreading, hwriting⟩, hempty⟩, -⟩ := hidle
      exact hone (.adminRead hslot hreading ⟨hwriting, hempty⟩ (hfresh hwriting hempty)) rfl rfl rfl
    · exact ⟨.refl, .refl w⟩

variable (env) (ans) (calm) in
theorem startAdmin_happens (h : Kept s w) (hfree : w.opened fd = false)
    (hserving : w.drainDeadline = none) :
    Happens env calm s w (startAdmin ans w fd) ∧ Aloof w (startAdmin ans w fd) := by
  unfold startAdmin
  split
  · exact ⟨.single (.aside (.turnedAway hfree)), fun _ _ => .rfl, rfl, rfl, rfl⟩
  · have hbegun : Aside w (((w.opening fd).bumpGeneration fd).setSlot fd (.admin {})) :=
      .adminBegun hfree hserving (h.free_slot hfree)
    have hslot : (((w.opening fd).bumpGeneration fd).setSlot fd (.admin {})).slots fd = .admin {} :=
      Function.update_self ..
    have hdriven := driveAdmin_happens env ans calm s hslot fun _ _ => rfl
    exact ⟨.trans (.single (.aside hbegun)) hdriven.1,
      (Aloof.of_aside hbegun rfl rfl rfl).trans hdriven.2⟩

/-- What is in flight on an admin descriptor is in flight for its connection. -/
theorem Kept.admin_live (h : Kept s w) (hop : Live w op k)
    (hk : k = .adminRead ∨ k = .adminWrite) :
    ∃ a, w.slots op.fd = .admin a ∧ adminFlight a.reading a.writing k = 1 := by
  obtain ⟨own, ho⟩ := h.owned
  have hflight : flightOf w op.fd k ≠ 0 := flight_live hop (by rcases hk with rfl | rfl <;> nofun)
  have hfits := ho.fits op.fd
  rw [ho.admin_flight_owner hk hflight] at hfits
  obtain ⟨-, r, wr, hrole, hall⟩ := hfits
  have hrole' : roleOf (w.slots op.fd) = .admin r wr := hrole
  have heq : flightOf w op.fd k = adminFlight r wr k := hall k
  cases hslot : w.slots op.fd with
  | admin a =>
      rw [hslot] at hrole'
      cases hrole'
      refine ⟨a, rfl, ?_⟩
      rcases hk with rfl | rfl
      · have htop : adminFlight a.reading a.writing .adminRead ≤ 1 := Bool.toNat_le _
        omega
      · have htop : adminFlight a.reading a.writing .adminWrite ≤ 1 := Bool.toNat_le _
        omega
  | _ =>
      rw [hslot] at hrole'
      cases hrole'

variable (env) (ans) (calm) in
theorem onAdminRead_happens (h : Kept s w) (hfresh : AdminsFresh w) (hop : Live w op .adminRead)
    (outcome : Outcome) :
    Happens env calm s w (onAdminRead env ans (w.retire op outcome) op.fd outcome) ∧
      Aloof w (onAdminRead env ans (w.retire op outcome) op.fd outcome) := by
  obtain ⟨a, hslot, hflag⟩ := Kept.admin_live h hop (.inl rfl)
  have hreading : a.reading = true := Bool.toNat_eq_one.mp hflag
  obtain ⟨hwriting, -, huncounted⟩ := hfresh op.fd a hslot hreading
  have hslot' : (w.retire op outcome).slots op.fd = .admin a := hslot
  unfold onAdminRead
  simp only [hslot']
  split
  · have hgone : Aside w (((w.retire op outcome).setSlot op.fd .empty).close ans op.fd) :=
      .adminHungUp ans outcome hop hslot
    have hclosed : Frame op.fd ((w.retire op outcome).setSlot op.fd .empty)
        (((w.retire op outcome).setSlot op.fd .empty).close ans op.fd) := .close _ _ ans _
    exact ⟨.single (.aside hgone), .of_aside hgone hclosed.drainDeadline hclosed.intakes
      hclosed.admin⟩
  · have hheard : ∀ a' : AdminConn, a'.reading = false → a'.writing = a.writing →
        a'.drainCounted = a.drainCounted →
        Happens env calm s w
          (driveAdmin ans ((w.retire op outcome).setSlot op.fd (.admin a')) op.fd) ∧
          Aloof w (driveAdmin ans ((w.retire op outcome).setSlot op.fd (.admin a')) op.fd) := by
      intro a' hread hwrite hcount
      have hput : Aside w ((w.retire op outcome).setSlot op.fd (.admin a')) :=
        .adminHeard outcome hop hslot ⟨hread, hwrite⟩ hcount
      have hslot'' : ((w.retire op outcome).setSlot op.fd (.admin a')).slots op.fd = .admin a' :=
        Function.update_self ..
      have hdriven := driveAdmin_happens env ans calm s hslot'' fun _ _ => hcount.trans huncounted
      exact ⟨.trans (.single (.aside hput)) hdriven.1,
        (Aloof.of_aside hput rfl rfl rfl).trans hdriven.2⟩
    split <;> exact hheard _ rfl rfl rfl

variable (env) (ans) (calm) in
theorem onAdminWrite_happens (h : Kept s w) (hop : Live w op .adminWrite) (outcome : Outcome) :
    Happens env calm s w (onAdminWrite ans (w.retire op outcome) op.fd outcome) ∧
      Aloof w (onAdminWrite ans (w.retire op outcome) op.fd outcome) := by
  obtain ⟨a, hslot, -⟩ := Kept.admin_live h hop (.inr rfl)
  have hslot' : (w.retire op outcome).slots op.fd = .admin a := hslot
  unfold onAdminWrite
  simp only [hslot']
  split
  · have hgone : Aside w ((w.retire op outcome).close ans op.fd) :=
      .adminLeft ans outcome hop (.inr rfl) hslot
    have hclosed : Frame op.fd (w.retire op outcome) ((w.retire op outcome).close ans op.fd) :=
      .close _ _ ans _
    exact ⟨.single (.aside hgone), .of_aside hgone hclosed.drainDeadline hclosed.intakes
      hclosed.admin⟩
  · rename_i hmore
    simp only [Bool.or_eq_true, List.isEmpty_iff, not_or] at hmore
    have hput : Aside w ((w.retire op outcome).setSlot op.fd (.admin { a with writing := false })) :=
      .adminWrote outcome hop hslot
    have hslot'' : ((w.retire op outcome).setSlot op.fd
        (.admin { a with writing := false })).slots op.fd = .admin { a with writing := false } :=
      Function.update_self ..
    have hdriven := driveAdmin_happens env ans calm s hslot'' fun _ hempty => absurd hempty hmore.1
    exact ⟨.trans (.single (.aside hput)) hdriven.1,
      (Aloof.of_aside hput rfl rfl rfl).trans hdriven.2⟩

end Admin

section Intakes

variable {env} {ans} {calm} {s} {w : World} {op : Op} {k : Kind} {fd : Fd}

variable (env) (ans) (calm) (s) in
/-- An operation the core cannot go on without is submitted, or the core stops. -/
theorem arm_happens (hfd : (k = .notify ∧ fd = w.notify) ∨
    (Kind.ofListener k ∧ fd ∈ w.intakes.map (·.fd) ++ w.admin.toList)) :
    Happens env calm s w (arm ans w k fd) ∧ Aloof w (arm ans w k fd) := by
  unfold arm
  split
  · exact ⟨.single (.aside (.armed hfd)), fun _ _ => .rfl, rfl, rfl, rfl⟩
  · exact ⟨.single (.aside .broke), fun _ _ => .rfl, rfl, rfl, rfl⟩

/-- What is in flight for no connection is in flight on the notify pipe or on a listener. -/
theorem Kept.fixture_live (h : Kept s w) (hop : Live w op k) (hk : k = .notify ∨ Kind.ofListener k) :
    (k = .notify ∧ op.fd = w.notify) ∨
      (Kind.ofListener k ∧ op.fd ∈ w.intakes.map (·.fd) ++ w.admin.toList) := by
  obtain ⟨own, ho⟩ := h.owned
  have hclose : k ≠ .close := by
    rintro rfl
    rcases hk with hk | hk <;> cases hk
  have hflight : flightOf w op.fd k ≠ 0 := flight_live hop hclose
  have hcarries := ho.carries (f := op.fd) hflight
  have howner : own op.fd = .fixture := by
    cases howner : own op.fd <;> rw [howner] at hcarries <;>
      simp only [Owner.carries] at hcarries <;>
      rcases hcarries with rfl | rfl <;> rcases hk with hk | hk <;> cases hk
  have hfits := ho.fits op.fd
  rw [howner] at hfits
  exact hfits.2.1 k hflight

/-- What is in flight for a listener is in flight on one, and no drain has begun. -/
theorem Kept.listener_live (h : Kept s w) (hop : Live w op k) (hk : Kind.ofListener k) :
    op.fd ∈ w.intakes.map (·.fd) ++ w.admin.toList ∧ w.drainDeadline = none := by
  have hmem : op.fd ∈ w.intakes.map (·.fd) ++ w.admin.toList := by
    rcases Kept.fixture_live h hop (.inr hk) with ⟨rfl, -⟩ | ⟨-, hmem⟩
    · cases hk
    · exact hmem
  refine ⟨hmem, ?_⟩
  cases hd : w.drainDeadline with
  | none => rfl
  | some deadline =>
      obtain ⟨own, ho⟩ := h.owned
      have hdrained : w.intakes.map (·.fd) ++ w.admin.toList = [] :=
        ho.drained (by show w.drainDeadline.isSome = true; rw [hd]; rfl)
      rw [hdrained] at hmem
      cases hmem

variable (env) (ans) (calm) in
/-- A listener is armed again for the operation it has just finished. -/
theorem rearmed_happens (h : Kept s w) (hop : Live w op k) (hk : Kind.ofListener k)
    (outcome : Outcome) :
    Happens env calm s w (arm ans (w.retire op outcome) k op.fd) ∧
      Aloof w (arm ans (w.retire op outcome) k op.fd) := by
  obtain ⟨hmem, -⟩ := Kept.listener_live h hop hk
  have hkind : k = .notify ∨ Kind.ofListener k := .inr hk
  have hheard : Happens env calm s w (w.retire op outcome) :=
    .single (.aside (.heard outcome hop hkind))
  have hsame : Aloof w (w.retire op outcome) := ⟨fun _ _ => .rfl, rfl, rfl, rfl⟩
  obtain ⟨harm, haloof⟩ := arm_happens env ans calm s
    (w := w.retire op outcome) (k := k) (.inr ⟨hk, hmem⟩)
  exact ⟨hheard.trans harm, hsame.trans haloof⟩

/-- A connection was taken off a listener that no drain has closed. -/
theorem accepted_handled (h : Kept s w) (hop : Live w op k) (hk : Kind.ofListener k)
    (hfree : w.opened fd = false) (hrested : ∀ x, RestsAt w x) :
    Handled env calm s fd w
      (let armed := arm ans (w.retire op (.accepted fd)) k op.fd
      if armed.broken then (armed, [])
      else if k == .adminAccept then (startAdmin ans armed fd, [])
      else startClient ans armed fd (k == .acceptTls)) := by
  obtain ⟨harmed, haloof⟩ := rearmed_happens env ans calm h hop hk
    (.accepted fd)
  have hkept := Kept.happened h harmed
  have hserving : (arm ans (w.retire op (.accepted fd)) k op.fd).drainDeadline = none :=
    haloof.drainDeadline.trans (Kept.listener_live h hop hk).2
  have hfree' : (arm ans (w.retire op (.accepted fd)) k op.fd).opened fd = false := by
    unfold arm
    split <;> exact hfree
  dsimp only
  split
  · exact .aloof harmed haloof hrested fd
  · split
    · obtain ⟨hstarted, hbegun⟩ := startAdmin_happens env ans calm hkept
        hfree' hserving
      exact .aloof (harmed.trans hstarted) (haloof.trans hbegun) hrested fd
    · exact .after harmed (haloof.beside fd)
        (startClient_handled hkept _ hfree' hserving (haloof.rests hrested))

variable (env) (ans) (calm) in
theorem onAccept_handled (h : Kept s w) (hop : Live w op k) (hk : Kind.ofListener k)
    {outcome : Outcome} (hfits : Outcome.fits w op outcome = true) (hrested : ∀ x, RestsAt w x) :
    ∃ fd, Handled env calm s fd w (onAccept ans (w.retire op outcome) op.fd outcome k) := by
  have hkind : k = .notify ∨ Kind.ofListener k := .inr hk
  have hheard : Happens env calm s w (w.retire op outcome) :=
    .single (.aside (.heard outcome hop hkind))
  have hsame : Aloof w (w.retire op outcome) := ⟨fun _ _ => .rfl, rfl, rfl, rfl⟩
  have hserving : (w.retire op outcome).drainDeadline.isSome = false := by
    rw [show (w.retire op outcome).drainDeadline = none from (Kept.listener_live h hop hk).2]
    rfl
  unfold onAccept
  cases outcome with
  | accepted fd =>
      have hfree : w.opened fd = false := by
        simp only [Outcome.fits, Bool.and_eq_true, Bool.not_eq_true'] at hfits
        exact hfits.2
      refine ⟨fd, ?_⟩
      simp only [hserving, Bool.false_eq_true, if_false]
      exact accepted_handled h hop hk hfree hrested
  | failed transient =>
      refine ⟨op.fd, ?_⟩
      cases transient with
      | true =>
          obtain ⟨harmed, haloof⟩ := rearmed_happens env ans calm h hop
            hk (.failed true)
          simp only [hserving, Bool.false_eq_true, if_false]
          exact .aloof harmed haloof hrested op.fd
      | false => exact .aloof hheard hsame hrested op.fd
  | read | wrote => exact ⟨op.fd, .aloof hheard hsame hrested op.fd⟩

variable (env) (calm) in
/-- A channel's bytes were read: descriptors to deal with, or the end of the core. -/
theorem onIntake_happens (h : Kept s w) (hop : Live w op k) (hk : Kind.ofListener k)
    (outcome : Outcome) (tls : Bool) :
    Happens env calm s w (onIntake (w.retire op outcome) op.fd outcome tls).1 ∧
      Aloof w (onIntake (w.retire op outcome) op.fd outcome tls).1 ∧
      ((onIntake (w.retire op outcome) op.fd outcome tls).2 = [] ∨
        ∃ ready, (onIntake (w.retire op outcome) op.fd outcome tls).2 = [.deal op.fd tls ready] ∧
          w.drainDeadline = none ∧ op.fd ∈ w.intakes.map (·.fd) ++ w.admin.toList) := by
  obtain ⟨hmem, hserving⟩ := Kept.listener_live h hop hk
  have hheard : Happens env calm s w (w.retire op outcome) :=
    .single (.aside (.heard outcome hop (.inr hk)))
  unfold onIntake
  split
  · rename_i byte bytes
    have hserving' : ∀ p, ({ w.retire op (.read (byte :: bytes)) with
        intakePartial := p } : World).drainDeadline.isSome = false := by
      intro p
      rw [show ({ w.retire op (.read (byte :: bytes)) with
        intakePartial := p } : World).drainDeadline = none from hserving]
      rfl
    have hserving'' : (w.retire op (.read (byte :: bytes))).drainDeadline.isSome = false := by
      rw [show (w.retire op (.read (byte :: bytes))).drainDeadline = none from hserving]
      rfl
    cases hseen : get (w.retire op (.read (byte :: bytes))).intakePartial op.fd with
    | none =>
        dsimp only
        rw [hserving'']
        exact ⟨hheard, ⟨fun _ _ => .rfl, rfl, rfl, rfl⟩, .inr ⟨_, rfl, hserving, hmem⟩⟩
    | some seen =>
        dsimp only
        rw [hserving'']
        exact ⟨hheard.tail (.aside (.partly _)), ⟨fun _ _ => .rfl, rfl, rfl, rfl⟩,
          .inr ⟨_, rfl, hserving, hmem⟩⟩
  · exact ⟨hheard.tail (.aside .stopped), ⟨fun _ _ => .rfl, rfl, rfl, rfl⟩, .inl rfl⟩

end Intakes

section Tallies

variable {env} {ans} {calm} {s} {w w' : World} {fd x : Fd}

/-- Before a drain nobody is counted, and what it has yet to answer it never counts. -/
structure Tallied (w : World) : Prop where
  uncounted : w.drainDeadline = none → ∀ x, (w.slots x).drainCounted = false
  admins : AdminsFresh w

/-- An admin connection a move leaves is one it found. -/
theorem move_admins (h : Kept s w) (hmove : Move env ans calm fd w w') {a : AdminConn}
    (hslot' : w'.slots x = .admin a) : w.slots x = .admin a := by
  have haround : ∀ {w' : World}, (∀ x, x ≠ fd → w'.slots x = w.slots x ∨
      (Bare (w.slots x) ∧ Bare (w'.slots x))) → x ≠ fd → w'.slots x = .admin a →
      w.slots x = .admin a := by
    intro w' hslots hx hadmin
    rcases hslots x hx with hsame | ⟨-, hbare⟩
    · rw [← hsame]
      exact hadmin
    · rw [hadmin] at hbare
      exact hbare.elim
  cases move_turned h hmove with
  | altered hslot hslot'' _ hmoved =>
      by_cases hx : x = fd
      · rw [hx, hslot''] at hslot'
        cases hslot'
      · exact haround hmoved.slots hx hslot'
  | departed _ _ hvacated =>
      by_cases hx : x = fd
      · rw [hx, hvacated.empty] at hslot'
        cases hslot'
      · exact haround hvacated.slots hx hslot'
  | untouched hsame hmoved =>
      by_cases hx : x = fd
      · rw [hx] at hslot' ⊢
        rw [← hsame]
        exact hslot'
      · exact haround hmoved.slots hx hslot'

theorem closeAll_admins {fds : List Fd} {w₁ : World} {ans : Answers} {a : AdminConn}
    (hslot : (World.closeAll ans w₁ fds).slots x = .admin a) (hsame : w₁.slots = w.slots) :
    w.slots x = .admin a := by
  induction fds generalizing w w₁ with
  | nil =>
      rw [← hsame]
      exact hslot
  | cons f rest ih =>
      have hnext := ih (w := w₁.close ans f) hslot rfl
      rw [close_slots, hsame] at hnext
      by_cases hx : x = f
      · rw [hx, Function.update_self] at hnext
        cases hnext
      · rw [Function.update_of_ne hx] at hnext
        exact hnext

theorem close_admins {w₁ : World} {f : Fd} {ans : Answers} {a : AdminConn}
    (hslot : (w₁.close ans f).slots x = .admin a) (hsame : w₁.slots = w.slots) :
    w.slots x = .admin a := by
  have hone : (World.closeAll ans w₁ [f]).slots x = .admin a := hslot
  exact closeAll_admins hone hsame

/-- What an event makes of an admin connection. -/
inductive AdminChange (w : World) : AdminConn → AdminConn → Prop
  | dropped {a : AdminConn} : AdminChange w a { a with outbox := [] }
  | read {a : AdminConn} (hidle : a.writing = false ∧ a.outbox = [])
      (hcounted : a.drainCounted = false) : AdminChange w a { a with reading := true }
  | written {a : AdminConn} (hqueued : a.outbox ≠ []) :
      AdminChange w a { a with outbox := [], writing := true }
  | heard {a a' : AdminConn} (hflags : a'.reading = false ∧ a'.writing = a.writing)
      (hcounted : a'.drainCounted = a.drainCounted) : AdminChange w a a'
  | wrote {a : AdminConn} : AdminChange w a { a with writing := false }
  | spared {a : AdminConn} (hdraining : w.drainDeadline.isSome = true)
      (hbusy : a.writing = true ∨ a.outbox ≠ []) (hfresh : a.drainCounted = false) :
      AdminChange w a { a with drainCounted := true }

/-- An admin connection after an event is one from before it, untouched or changed, or new. -/
def AdminFrom (w : World) (x : Fd) (a' : AdminConn) : Prop :=
  w.slots x = .admin a' ∨ (∃ a, w.slots x = .admin a ∧ AdminChange w a a') ∨
    (a' = {} ∧ w.drainDeadline = none)

theorem admin_of_empty {v : World} {f : Fd} {a : AdminConn} (hsame : v.slots = w.slots)
    (hslot : (v.setSlot f .empty).slots x = .admin a) : w.slots x = .admin a := by
  rw [setSlot_slots, hsame] at hslot
  by_cases hx : x = f
  · rw [hx, Function.update_self] at hslot
    cases hslot
  · rw [Function.update_of_ne hx] at hslot
    exact hslot

theorem aside_admin (haside : Aside w w') {a' : AdminConn} (hslot' : w'.slots x = .admin a') :
    AdminFrom w x a' := by
  have hput : ∀ {v : World} {f : Fd} {a b : AdminConn}, v.slots = w.slots →
      w.slots f = .admin a → AdminChange w a b → (v.setSlot f (.admin b)).slots x = .admin a' →
      AdminFrom w x a' := by
    intro v f a b hsame hslot hchange hx
    rw [setSlot_slots, hsame] at hx
    by_cases hxf : x = f
    · subst hxf
      rw [Function.update_self, Slot.admin.injEq] at hx
      exact .inr (.inl ⟨a, hslot, hx ▸ hchange⟩)
    · rw [Function.update_of_ne hxf] at hx
      exact .inl hx
  cases haside with
  | dropped | turnedAway | unheard | heard | armed | broke | stopped | expired | partly | sent =>
      exact .inl hslot'
  | lapsed | adminLeft | adminClosed => exact .inl (close_admins hslot' rfl)
  | cleared => exact .inl (admin_of_empty rfl hslot')
  | @forsaken up =>
      exact .inl (admin_of_empty (v := { w with borrowed := w.borrowed.erase up }) rfl hslot')
  | flushed | unlistened => exact .inl (closeAll_admins hslot' rfl)
  | @adminBegun fd _ hserving =>
      rw [setSlot_slots] at hslot'
      by_cases hxf : x = fd
      · rw [hxf, Function.update_self, Slot.admin.injEq] at hslot'
        exact .inr (.inr ⟨hslot'.symm, hserving⟩)
      · rw [Function.update_of_ne hxf] at hslot'
        exact .inl hslot'
  | adminDropped hslot => exact hput rfl hslot .dropped hslot'
  | adminRead hslot _ hidle hcounted => exact hput rfl hslot (.read hidle hcounted) hslot'
  | adminWritten hslot _ hqueued => exact hput rfl hslot (.written hqueued) hslot'
  | adminHeard _ _ hslot hflags hcounted => exact hput rfl hslot (.heard hflags hcounted) hslot'
  | adminWrote _ _ hslot => exact hput rfl hslot .wrote hslot'
  | @adminHungUp op a ans outcome =>
      exact .inl (admin_of_empty (v := w.retire op outcome) rfl
        (close_admins (w := (w.retire op outcome).setSlot op.fd .empty) hslot' rfl))
  | adminSpared hslot hdraining hbusy hfresh =>
      exact hput rfl hslot (.spared hdraining hbusy hfresh) hslot'

theorem admin_of_client {v : World} {f : Fd} {c : Conn} {a : AdminConn}
    (hsame : v.slots = w.slots) (hslot : (v.setClient f c).slots x = .admin a) :
    w.slots x = .admin a := by
  rw [setClient_slots, hsame] at hslot
  by_cases hx : x = f
  · rw [hx, Function.update_self] at hslot
    cases hslot
  · rw [Function.update_of_ne hx] at hslot
    exact hslot

theorem event_admin (h : Kept s w) (hevent : Event env calm s w w') {a' : AdminConn}
    (hslot' : w'.slots x = .admin a') : AdminFrom w x a' := by
  cases hevent with
  | moved hmove => exact .inl (move_admins h hmove hslot')
  | @missed up =>
      exact .inl (admin_of_empty (v := { w with borrowed := w.borrowed.erase up }) rfl
        (admin_of_client (w := { w with borrowed := w.borrowed.erase up }.setSlot up .empty) rfl
          hslot'))
  | cut => exact .inl (close_admins hslot' rfl)
  | published | elapsed => exact .inl hslot'
  | aside haside => exact aside_admin haside hslot'
  | _ => exact .inl (admin_of_client rfl hslot')

theorem change_admin {a a' : AdminConn} (h : AdminChange w a a')
    (hfresh : a.reading = true → a.writing = false ∧ a.outbox = [] ∧ a.drainCounted = false)
    (hreading : a'.reading = true) :
    a'.writing = false ∧ a'.outbox = [] ∧ a'.drainCounted = false := by
  cases h with
  | dropped => exact ⟨(hfresh hreading).1, rfl, (hfresh hreading).2.2⟩
  | read hidle hcounted => exact ⟨hidle.1, hidle.2, hcounted⟩
  | written hqueued => exact absurd (hfresh hreading).2.1 hqueued
  | heard hflags =>
      rw [hflags.1] at hreading
      cases hreading
  | wrote => exact ⟨rfl, (hfresh hreading).2⟩
  | spared _ hbusy =>
      obtain ⟨hwriting, hnothing, -⟩ := hfresh hreading
      rcases hbusy with hbusy | hbusy
      · rw [hwriting] at hbusy
        cases hbusy
      · exact absurd hnothing hbusy

theorem closeAll_drainDeadline (ans : Answers) (fds : List Fd) (w : World) :
    (World.closeAll ans w fds).drainDeadline = w.drainDeadline := by
  induction fds generalizing w with
  | nil => rfl
  | cons f rest ih =>
      have hclosed : Frame f w (w.close ans f) := .close f w ans f
      exact (ih (w.close ans f)).trans hclosed.drainDeadline

theorem closeAll_serving {ans : Answers} {fds : List Fd}
    (h : (World.closeAll ans w fds).drainDeadline = none) : w.drainDeadline = none :=
  (closeAll_drainDeadline ans fds w).symm.trans h

theorem close_serving {ans : Answers} {f : Fd} (h : (w.close ans f).drainDeadline = none) :
    w.drainDeadline = none := by
  have hclosed : Frame f w (w.close ans f) := .close f w ans f
  exact hclosed.drainDeadline.symm.trans h

/-- A drain that has begun goes on. -/
theorem event_serving (hevent : Event env calm s w w') (hserving : w'.drainDeadline = none) :
    w.drainDeadline = none := by
  cases hevent with
  | moved hmove => exact (move_frame hmove).drainDeadline ▸ hserving
  | @cut fd c ans =>
      have hclosed : Frame fd w (w.close ans fd) := .close fd w ans fd
      exact hclosed.drainDeadline ▸ hserving
  | aside haside =>
      cases haside with
      | lapsed | adminLeft | adminClosed | adminHungUp =>
          have hbefore := close_serving hserving
          exact hbefore
      | flushed =>
          have hbefore := closeAll_serving hserving
          exact hbefore
      | unlistened ans =>
          rw [closeAll_drainDeadline] at hserving
          cases hserving
      | _ => exact hserving
  | _ => exact hserving

theorem Tallied.event (ht : Tallied w) (h : Kept s w) (hevent : Event env calm s w w') :
    Tallied w' := by
  refine ⟨fun hserving x => ?_, fun x a hslot hreading => ?_⟩
  · have hbefore := event_serving hevent hserving
    have hnone := ht.uncounted hbefore
    cases hslot : w'.slots x with
    | client c' =>
        show c'.drainCounted = false
        rcases event_changes h hevent x c' hslot with hsame | ⟨c, hc, hchange⟩ | ⟨ans, tls, -, -, rfl⟩
        · have hx := hnone x
          rw [hsame] at hx
          exact hx
        · have hx := hnone x
          rw [hc] at hx
          rcases change_counted hchange with heq | hdraining
          · exact heq.trans hx
          · rw [hbefore] at hdraining
            cases hdraining
        · unfold newClient
          dsimp only
          split <;> rfl
    | admin a' =>
        show a'.drainCounted = false
        rcases event_admin h hevent hslot with hsame | ⟨a, ha, hchange⟩ | ⟨rfl, -⟩
        · have hx := hnone x
          rw [hsame] at hx
          exact hx
        · have hx : a.drainCounted = false := by
            have hx := hnone x
            rw [ha] at hx
            exact hx
          cases hchange with
          | heard _ hcounted => exact hcounted.trans hx
          | spared hdraining =>
              rw [hbefore] at hdraining
              cases hdraining
          | read _ hcounted => exact hcounted
          | _ => exact hx
        · rfl
    | _ => rfl
  · rcases event_admin h hevent hslot with hsame | ⟨b, hb, hchange⟩ | ⟨rfl, -⟩
    · exact ht.admins x a hsame hreading
    · exact change_admin hchange (ht.admins x b hb) hreading
    · cases hreading

theorem Tallied.happened (ht : Tallied w) (h : Kept s w) (hrun : Happens env calm s w w') :
    Tallied w' := by
  induction hrun with
  | refl => exact ht
  | tail hbefore hevent ih => exact ih.event (Kept.happened h hbefore) hevent

end Tallies

end Ramjet.Engine.Worker.Handling
