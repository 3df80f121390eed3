/- digest: Every event keeps each descriptor with its owner and each connection steady. -/

import Ramjet.Engine.Worker.Events
import Ramjet.Engine.Worker.Images

set_option autoImplicit false
set_option relaxedAutoImplicit false

namespace Ramjet.Engine.Worker.Keeping

open Ramjet.Base.Octets
open Ramjet.Base.Net
open Ramjet.Engine.Codec.MessageHead
open Ramjet.Engine.Codec.BodyFraming
open Ramjet.Engine.IdlePool
open Ramjet.Engine.Tls
open Ramjet.Engine.Worker.Accounting
open Ramjet.Engine.Worker.Connection
open Ramjet.Engine.Worker.Core
open Ramjet.Engine.Worker.Serving
open Ramjet.Engine.Worker.Requests
open Ramjet.Engine.Worker.Handlers
open Ramjet.Engine.Worker.Loop
open Ramjet.Engine.Worker.Descriptors
open Ramjet.Engine.Worker.Ownership
open Ramjet.Engine.Worker.Moves
open Ramjet.Engine.Worker.Events
open Ramjet.Engine.Worker.Images

/-- Its hello is still to come, or has told to hand the connection over. -/
def Waiting (c : Conn) : Prop :=
  (stage c = some .hello ∧ c.handOff = false) ∨ (stage c = some .ready ∧ c.handOff = true)

/-- A connection that waits for its hello, or to be handed over, has served nothing. -/
structure Unserved (c : Conn) : Prop where
  inbox : c.inbox = []
  targets : c.targets = []
  upstream : c.upstream = none
  phase : c.phase = .head ∨ c.phase = .closing
  waiting : Waiting c

/-- What every connection keeps to. -/
structure Steady (c : Conn) : Prop where
  shape : Shape (tiesOf c)
  greeting : Greeted c ∨ Unserved c
  aimed : c.upstream ≠ none → c.attempt < c.targets.length

def AllSteady (slots : Fd → Slot) : Prop := ∀ fd c, slots fd = .client c → Steady c

/-- Every descriptor is with its owner, every tag is right and every connection steady. -/
structure Kept (strict : Bool) (w : World) : Prop where
  tagged : Tagged w
  owned : Sound strict (viewOf w)
  distinct : (w.intakes.map (·.fd) ++ w.admin.toList ++ [w.notify]).Nodup
  steady : AllSteady w.slots

/-- Nothing that a descriptor is made of changed. -/
structure Still (w w' : World) : Prop where
  slots : w'.slots = w.slots
  generations : w'.generations = w.generations
  bumps : w'.bumps = w.bumps
  epochs : w'.epochs = w.epochs
  ops : w'.ops = w.ops
  opened : w'.opened = w.opened
  pool : w'.pool = w.pool
  borrowed : w'.borrowed = w.borrowed
  intakes : w'.intakes = w.intakes
  admin : w'.admin = w.admin
  notify : w'.notify = w.notify
  drainDeadline : w'.drainDeadline = w.drainDeadline

section Stillness

variable {w w' : World} {ans : Answers} {c : Conn}

theorem Still.refl (w : World) : Still w w := ⟨rfl, rfl, rfl, rfl, rfl, rfl, rfl, rfl, rfl, rfl, rfl, rfl⟩

theorem Still.of_quiet (h : Quiet w w') : Still w w' := by
  obtain ⟨_, _, _, _, _, _, rfl, -⟩ := h
  exact ⟨rfl, rfl, rfl, rfl, rfl, rfl, rfl, rfl, rfl, rfl, rfl, rfl⟩

theorem Still.trans {w'' : World} (h : Still w w') (h' : Still w' w'') : Still w w'' :=
  ⟨h'.slots.trans h.slots, h'.generations.trans h.generations, h'.bumps.trans h.bumps,
    h'.epochs.trans h.epochs, h'.ops.trans h.ops, h'.opened.trans h.opened, h'.pool.trans h.pool,
    h'.borrowed.trans h.borrowed, h'.intakes.trans h.intakes, h'.admin.trans h.admin,
    h'.notify.trans h.notify, h'.drainDeadline.trans h.drainDeadline⟩

theorem Still.release (w : World) (c : Conn) : Still w (releaseInflight w c).1 := by
  unfold releaseInflight
  dsimp only
  split
  · split <;> exact ⟨rfl, rfl, rfl, rfl, rfl, rfl, rfl, rfl, rfl, rfl, rfl, rfl⟩
  · exact .refl w

theorem Still.hold (w : World) (c : Conn) : Still w (holdInflight w c).1 := by
  unfold holdInflight
  split
  · exact .refl w
  · split <;> exact ⟨rfl, rfl, rfl, rfl, rfl, rfl, rfl, rfl, rfl, rfl, rfl, rfl⟩

theorem Still.view (h : Still w w') : viewOf w' = viewOf w := by
  apply view_eq
  · intro x
    rw [h.slots]
  · exact h.opened
  · unfold flightOf concerns
    rw [h.ops, h.bumps]
  · rw [h.pool]
  · exact h.borrowed
  · exact h.intakes
  · exact h.admin
  · exact h.notify
  · exact h.drainDeadline

theorem Still.tagged (h : Still w w') (ht : Tagged w) : Tagged w' := by
  refine ⟨?_, ?_, ?_, ?_⟩ <;>
    simp only [h.generations, h.bumps, h.epochs, h.ops]
  · exact ht.gens
  · exact ht.user
  · exact ht.bumps
  · exact ht.epochs

variable {s : Bool}

theorem Kept.still (h : Kept s w) (hs : Still w w') : Kept s w' := by
  refine ⟨hs.tagged h.tagged, ?_, ?_, ?_⟩
  · rw [hs.view]
    exact h.owned
  · rw [hs.intakes, hs.admin, hs.notify]
    exact h.distinct
  · rw [hs.slots]
    exact h.steady

end Stillness

section Closing

variable (w : World) (ans : Answers) (f : Fd)

theorem setSlot_slots (slot : Slot) :
    (w.setSlot f slot).slots = Function.update w.slots f slot := rfl

theorem setClient_slots (c : Conn) :
    (w.setClient f c).slots = Function.update w.slots f (.client c) := rfl

theorem vacate_slots : (w.vacate f).slots = Function.update w.slots f .empty := rfl

theorem close_slots : (w.close ans f).slots = Function.update w.slots f .empty := by
  unfold World.close World.countOff
  dsimp only
  split <;> split <;> rfl

theorem close_intakes : (w.close ans f).intakes = w.intakes := by
  unfold World.close World.countOff
  dsimp only
  split <;> split <;> rfl

theorem close_admin : (w.close ans f).admin = w.admin := by
  unfold World.close World.countOff
  dsimp only
  split <;> split <;> rfl

theorem close_notify : (w.close ans f).notify = w.notify := by
  unfold World.close World.countOff
  dsimp only
  split <;> split <;> rfl

end Closing

section Clients

variable {s : Bool} {w w' : World} {fd up : Fd} {c c' : Conn} {ans : Answers}

theorem stir_self (v : View) (f : Fd) : v.stir f (v.flight f) = v := by
  unfold View.stir
  rw [Function.update_eq_self]

/-- A slot written to leaves every other connection as it was. -/
theorem AllSteady.update {slots : Fd → Slot} (h : AllSteady slots) (f : Fd) {slot : Slot}
    (hslot : ∀ d, slot = .client d → Steady d) : AllSteady (Function.update slots f slot) := by
  intro x d hx
  by_cases hxf : x = f
  · subst hxf
    rw [Function.update_self] at hx
    exact hslot d hx
  · rw [Function.update_of_ne hxf] at hx
    exact h x d hx

theorem AllSteady.client {slots : Fd → Slot} (h : AllSteady slots) (f : Fd) (hc : Steady c') :
    AllSteady (Function.update slots f (.client c')) :=
  h.update f fun d hd => by
    cases hd
    exact hc

theorem AllSteady.empty {slots : Fd → Slot} (h : AllSteady slots) (f : Fd) :
    AllSteady (Function.update slots f .empty) := h.update f fun _ he => by cases he

theorem role_client (hslot : w.slots fd = .client c) :
    (viewOf w).role fd = .client (tiesOf c) := by
  show roleOf (w.slots fd) = _
  rw [hslot]
  rfl

theorem tagged_setSlot (h : Tagged w) (f : Fd) (slot : Slot) : Tagged (w.setSlot f slot) :=
  ⟨h.gens, h.user, h.bumps, h.epochs⟩

/-- What is in flight for a client is as its flags say. -/
theorem Kept.down (h : Kept s w) (hslot : w.slots fd = .client c) (k : Kind) :
    flightOf w fd k = (tiesOf c).down k := by
  obtain ⟨own, ho⟩ := h.owned
  have hfits := ho.fits fd
  rw [ho.client_owner (role_client hslot)] at hfits
  obtain ⟨-, t, ht, hflight⟩ := hfits
  rw [role_client hslot] at ht
  cases ht
  exact hflight k

/-- The connection of a slot changes, but not its upstream. -/
theorem Kept.retie (h : Kept s w) (hslot : w.slots fd = .client c)
    (hup : c'.upstream = c.upstream) (hb : c'.upBorrowed = c.upBorrowed)
    (hupk : c.upstream ≠ none → ∀ k, (tiesOf c').up k = (tiesOf c).up k)
    (hdown : ∀ k, (tiesOf c').down k = (tiesOf c).down k) (hc : Steady c') :
    Kept s (w.setClient fd c') := by
  refine ⟨tagged_setSlot h.tagged fd _, ?_, h.distinct, h.steady.client fd hc⟩
  obtain ⟨own, ho⟩ := h.owned
  have hflight : ∀ k, flightOf w fd k = (tiesOf c').down k :=
    fun k => (h.down hslot k).trans (hdown k).symm
  have hretied := ho.retie (role_client hslot) hup hb hupk hc.shape hflight
  rw [show (viewOf w).stir fd (flightOf w fd) = viewOf w from stir_self (viewOf w) fd] at hretied
  rw [view_setClient]
  exact ⟨own, hretied⟩

/-- A client's operation is submitted. -/
theorem Kept.submitDown (h : Kept s w) (hslot : w.slots fd = .client c) {k : Kind}
    (hk : k ≠ .close) (payload : Bytes) (hup : c'.upstream = c.upstream)
    (hb : c'.upBorrowed = c.upBorrowed) (hupk : ∀ k, (tiesOf c').up k = (tiesOf c).up k)
    (hdown : ∀ k', (tiesOf c').down k' = (tiesOf c).down k' + if k' = k then 1 else 0)
    (hc : Steady c') : Kept s ((w.submit k fd payload).setClient fd c') := by
  refine ⟨tagged_setSlot (tagged_submit h.tagged k fd payload) fd _, ?_, h.distinct,
    h.steady.client fd hc⟩
  obtain ⟨own, ho⟩ := h.owned
  rw [view_setClient, view_submit w hk]
  refine ⟨own, ho.retie (role_client hslot) hup hb (fun _ => hupk) hc.shape fun k' => ?_⟩
  rw [h.down hslot k', hdown k']

/-- An operation is submitted on the upstream of a connection. -/
theorem Kept.submitUp (h : Kept s w) (hslot : w.slots fd = .client c) (hu : c.upstream = some up)
    (hb : c.upBorrowed = false) {k : Kind} (hk : k ≠ .close) (payload : Bytes)
    (hup : c'.upstream = some up) (hb' : c'.upBorrowed = false)
    (hdown : ∀ k, (tiesOf c').down k = (tiesOf c).down k)
    (hupk : ∀ k', (tiesOf c').up k' = (tiesOf c).up k' + if k' = k then 1 else 0)
    (hc : Steady c') : Kept s ((w.submit k up payload).setClient fd c') := by
  refine ⟨tagged_setSlot (tagged_submit h.tagged k up payload) fd _, ?_, h.distinct,
    h.steady.client fd hc⟩
  obtain ⟨own, ho⟩ := h.owned
  have hou := ho.attached fd (tiesOf c) up (role_client hslot) hu hb
  have hfits := ho.fits up
  rw [hou] at hfits
  obtain ⟨-, -, -, t, ht, -, -, hnear⟩ := hfits
  rw [role_client hslot] at ht
  cases ht
  rw [view_setClient, view_submit w hk]
  refine ⟨own, ho.stirUp (role_client hslot) hu hb hup hb' hdown hc.shape fun k' => ?_⟩
  obtain ⟨hle, heq⟩ := hnear k'
  rw [hupk k']
  exact ⟨Nat.add_le_add_right hle _, fun hs => congrArg (· + _) (heq hs)⟩

theorem distinct_close
    (h : (w.intakes.map (·.fd) ++ w.admin.toList ++ [w.notify]).Nodup) (ans : Answers) (f : Fd) :
    ((w.close ans f).intakes.map (·.fd) ++ (w.close ans f).admin.toList ++
      [(w.close ans f).notify]).Nodup := by
  rw [close_intakes, close_admin, close_notify]
  exact h

/-- A connection whose upstream is gone leaves its slot. -/
theorem Kept.leave (h : Kept s w) (hslot : w.slots fd = .client c) (hu : c.upstream = none) :
    Kept s (w.close ans fd) := by
  refine ⟨tagged_close h.tagged ans fd, ?_, distinct_close h.distinct ans fd, ?_⟩
  case refine_2 =>
    rw [close_slots]
    exact h.steady.empty fd
  obtain ⟨own, ho⟩ := h.owned
  rw [view_close h.tagged]
  exact ⟨_, ho.quit (role_client hslot) hu⟩

/-- A connection is handed over, whatever its slot has come to say. -/
theorem Kept.vacate (h : Kept s w) (hslot : w.slots fd = .client c) (hu : c.upstream = none)
    (hties : tiesOf c' = tiesOf c) (hw' : Still (w.setClient fd c') w') : Kept s (w'.vacate fd) := by
  have htagged := hw'.tagged (tagged_setSlot h.tagged fd _)
  refine ⟨tagged_vacate htagged fd, ?_, ?_, ?_⟩
  · obtain ⟨own, ho⟩ := h.owned
    rw [view_vacate htagged, hw'.view, view_setClient, hties]
    have hplaced : (((viewOf w).place fd (.client (tiesOf c))).place fd .empty).shut fd =
        ((viewOf w).place fd .empty).shut fd := by
      simp [View.place]
    rw [hplaced]
    exact ⟨_, ho.quit (role_client hslot) hu⟩
  · show (w'.intakes.map (·.fd) ++ w'.admin.toList ++ [w'.notify]).Nodup
    rw [hw'.intakes, hw'.admin, hw'.notify]
    exact h.distinct
  · rw [vacate_slots, hw'.slots, setClient_slots, Function.update_idem]
    exact h.steady.empty fd

/-- A connection closes the upstream it holds, whatever its slot has come to say. -/
theorem Kept.closeUp (h : Kept s w) (hslot : w.slots fd = .client c) (hu : c.upstream = some up)
    (hb : c.upBorrowed = false) (hup : c'.upstream = none)
    (hdown : ∀ k, (tiesOf c').down k = (tiesOf c).down k) (hc : Steady c') {w' : World}
    {held : List (SocketAddr × Fd)} (hheld : List.Perm held w.pool.held) (htagged : Tagged w')
    (hview : (viewOf w').place up .empty = { (viewOf w).place up .empty with held := held })
    (hslots : Function.update w'.slots up .empty = Function.update w.slots up .empty)
    (hdistinct : (w'.intakes.map (·.fd) ++ w'.admin.toList ++ [w'.notify]).Nodup) :
    Kept s ((w'.close ans up).setClient fd c') := by
  refine ⟨tagged_setSlot (tagged_close htagged ans up) fd _, ?_, distinct_close hdistinct ans up,
    ?_⟩
  · obtain ⟨own, ho⟩ := h.owned
    rw [view_setClient, view_close htagged, hview]
    exact ⟨_, (ho.sever (role_client hslot) hu hb hup hdown hc.shape).reheld hheld⟩
  · rw [setClient_slots, close_slots, hslots]
    exact (h.steady.empty up).client fd hc

/-- A connection closes the upstream it holds. -/
theorem Kept.sever (h : Kept s w) (hslot : w.slots fd = .client c) (hu : c.upstream = some up)
    (hb : c.upBorrowed = false) (hup : c'.upstream = none)
    (hdown : ∀ k, (tiesOf c').down k = (tiesOf c).down k) (hc : Steady c') :
    Kept s ((w.close ans up).setClient fd c') :=
  h.closeUp hslot hu hb hup hdown hc (List.Perm.refl _) h.tagged rfl rfl h.distinct

/-- A connection leaves the upstream it is waiting for to the helper. -/
theorem Kept.abandon (h : Kept s w) (hslot : w.slots fd = .client c) (hu : c.upstream = some up)
    (hb : c.upBorrowed = true) (hup : c'.upstream = none)
    (hdown : ∀ k, (tiesOf c').down k = (tiesOf c).down k) (hc : Steady c') :
    Kept s ((w.setSlot up .abandoned).setClient fd c') := by
  refine ⟨tagged_setSlot (tagged_setSlot h.tagged up _) fd _, ?_, h.distinct, ?_⟩
  case refine_2 =>
    rw [setClient_slots, setSlot_slots]
    exact (h.steady.update up fun _ he => by cases he).client fd hc
  obtain ⟨own, ho⟩ := h.owned
  rw [view_setClient, view_setSlot]
  exact ⟨_, ho.abandon (role_client hslot) hu hb hup hdown hc.shape⟩

/-- A connection lets go of its upstream, whatever became of it. -/
theorem Kept.letGo (h : Kept s w) (hslot : w.slots fd = .client c) (hup : c'.upstream = none)
    (hb : c.upstream = none → c'.upBorrowed = c.upBorrowed)
    (hdown : ∀ k, (tiesOf c').down k = (tiesOf c).down k) (hc : Steady c') :
    Kept s ((letGo ans w c).setClient fd c') := by
  unfold Serving.letGo
  split
  · rename_i hnone
    exact h.retie hslot (hup.trans hnone.symm) (hb hnone) (fun hsome => absurd hnone hsome) hdown hc
  · rename_i up hsome
    cases hborrowed : c.upBorrowed with
    | true => exact h.abandon hslot hsome hborrowed hup hdown hc
    | false => exact h.sever hslot hsome hborrowed hup hdown hc

/-- The flights of a connection's upstream are as its flags say, or less in a core whose slots may
say less. -/
theorem Kept.upFlight (h : Kept s w) (hslot : w.slots fd = .client c) (hu : c.upstream = some up)
    (hb : c.upBorrowed = false) : Near s (flightOf w up) (tiesOf c).up := by
  obtain ⟨own, ho⟩ := h.owned
  have hou := ho.attached fd (tiesOf c) up (role_client hslot) hu hb
  have hfits := ho.fits up
  rw [hou] at hfits
  obtain ⟨-, -, -, t, ht, -, -, hnear⟩ := hfits
  rw [role_client hslot] at ht
  cases ht
  exact hnear

/-- A connection gives its upstream to the pool, with a read parked on it. -/
theorem Kept.park (h : Kept s w) (hslot : w.slots fd = .client c) (hu : c.upstream = some up)
    (hb : c.upBorrowed = false) (hup : c'.upstream = none)
    (hdown : ∀ k, (tiesOf c').down k = (tiesOf c).down k) (hc : Steady c') {addr : SocketAddr}
    {w' : World} {held : List (SocketAddr × Fd)} {flight : Kind → Nat}
    (hheld : List.Perm held ((addr, up) :: w.pool.held)) (hflight : Near s flight parked)
    (htagged : Tagged w')
    (hview : viewOf w' =
      { ((viewOf w).place up (.idle addr)).stir up flight with held := held })
    (hslots : w'.slots = Function.update w.slots up (.idle addr))
    (hdistinct : (w'.intakes.map (·.fd) ++ w'.admin.toList ++ [w'.notify]).Nodup) :
    Kept s (w'.setClient fd c') := by
  refine ⟨tagged_setSlot htagged fd _, ?_, hdistinct, ?_⟩
  · obtain ⟨own, ho⟩ := h.owned
    rw [view_setClient, hview]
    exact ⟨_, ho.park (role_client hslot) hu hb hup hdown hc.shape hheld hflight⟩
  · rw [setClient_slots, hslots]
    exact (h.steady.update up fun _ he => by cases he).client fd hc

theorem stir_place (v : View) (f : Fd) (r : Role) (flight : Kind → Nat) :
    (v.place f r).stir f flight = (v.stir f flight).place f r := rfl

/-- An upstream with nothing but its read in flight, and one with nothing at all. -/
theorem parked_of_flags (hreading : c.upReading = true) (hquiet : c.upWriting = false) {k : Kind} :
    (tiesOf c).up k = parked k := by
  cases k <;> simp [tiesOf, Ties.up, parked, hreading, hquiet]

theorem parked_of_idle (hreading : c.upReading = false) (hquiet : c.upWriting = false) {k : Kind} :
    (tiesOf c).up k + (if k = .upRead then 1 else 0) = parked k := by
  cases k <;> simp [tiesOf, Ties.up, parked, hreading, hquiet]

theorem removed_of_held {p : Pool} {addr : SocketAddr} (h : (addr, up) ∈ p.held) :
    ∃ p', p.remove addr up = (true, p') ∧ List.Perm p.held ((addr, up) :: p'.held) := by
  cases hr : p.remove addr up with
  | mk found p' =>
      cases found with
      | false => exact absurd h (not_held_of_remove hr).2
      | true => exact ⟨p', rfl, held_remove hr⟩

/-- A core that has offered the pool an upstream, before it has answered. -/
theorem view_offered (w : World) (up : Fd) (addr : SocketAddr) (pool : Pool) :
    viewOf { w.setSlot up (.idle addr) with pool := pool } =
      { (viewOf w).place up (.idle addr) with held := pool.held } :=
  congrArg (fun v : View => { v with held := pool.held }) (view_setSlot w up (.idle addr))

/-- The upstream of a finished exchange goes to the pool, or is closed. -/
theorem Kept.releaseUpstream (h : Kept s w) (hslot : w.slots fd = .client c)
    (hu : c.upstream = some up) (hb : c.upBorrowed = false) (hup : c'.upstream = none)
    (hdown : ∀ k, (tiesOf c').down k = (tiesOf c).down k) (hc : Steady c') {d : Conn}
    (hreading : d.upReading = c.upReading) (hwriting : d.upWriting = c.upWriting) :
    Kept s ((Serving.releaseUpstream ans w d up).setClient fd c') := by
  have hne : up ≠ fd := by
    rintro rfl
    obtain ⟨own, ho⟩ := h.owned
    have hou := ho.attached up (tiesOf c) up (role_client hslot) hu hb
    rw [ho.client_owner (role_client hslot)] at hou
    cases hou
  unfold Serving.releaseUpstream
  dsimp only
  split
  · rename_i addr hclean _
    have hquiet : c.upWriting = false := by
      simp only [Bool.and_eq_true, Bool.not_eq_true', hwriting] at hclean
      exact hclean.2.2
    have hflight := h.upFlight hslot hu hb
    cases hput : w.pool.put addr up w.clock with
    | mk refused pool =>
        have htagged : Tagged { w.setSlot up (.idle addr) with pool := pool } :=
          ⟨h.tagged.gens, h.tagged.user, h.tagged.bumps, h.tagged.epochs⟩
        dsimp only
        cases refused with
        | some back =>
            obtain ⟨rfl, hheld⟩ := held_put_refused hput
            refine h.closeUp hslot hu hb hup hdown hc hheld htagged ?_ ?_ h.distinct
            · rw [view_offered]
              simp [View.place]
            · exact Function.update_idem ..
        | none =>
            have hheld := held_put hput
            dsimp only
            have hnoted : Tagged ({ w.setSlot up (.idle addr) with pool := pool }.remember
                (.pooled up d)) :=
              ⟨h.tagged.gens, h.tagged.user, h.tagged.bumps, h.tagged.epochs⟩
            have hbooked : ∀ m, viewOf ({ w.setSlot up (.idle addr) with pool := pool }.remember m) =
                { (viewOf w).place up (.idle addr) with held := pool.held } := fun m =>
              view_offered w up addr pool
            split
            · rename_i hread
              have hnear : Near s (flightOf w up) parked := fun k => by
                rw [← parked_of_flags (hreading.symm.trans hread) hquiet]
                exact hflight k
              refine h.park hslot hu hb hup hdown hc hheld hnear hnoted ?_ rfl h.distinct
              rw [hbooked, stir_place]
              rw [show (viewOf w).stir up (flightOf w up) = viewOf w from stir_self (viewOf w) up]
            · rename_i hread
              split
              · have hread' : c.upReading = false := by simpa [hreading] using hread
                have hnear : Near s (fun k => flightOf w up k + if k = .upRead then 1 else 0)
                    parked := fun k => by
                  rw [← parked_of_idle hread' hquiet]
                  exact ⟨Nat.add_le_add_right (hflight k).1 _,
                    fun hs => congrArg (· + _) ((hflight k).2 hs)⟩
                refine h.park hslot hu hb hup hdown hc hheld hnear
                  (tagged_submit hnoted .upRead up []) ?_ rfl h.distinct
                rw [view_submit _ (by decide), hbooked]
                rfl
              · obtain ⟨pool', hremoved, hheld'⟩ := removed_of_held
                  (hheld.mem_iff.mpr List.mem_cons_self)
                dsimp only [World.remember]
                rw [hremoved]
                refine h.closeUp hslot hu hb hup hdown hc
                  (hheld'.symm.trans hheld).cons_inv ⟨h.tagged.gens, h.tagged.user, h.tagged.bumps,
                    h.tagged.epochs⟩ ?_ ?_ h.distinct
                · show (viewOf { w.setSlot up (.idle addr) with pool := pool' }).place up .empty = _
                  rw [view_offered]
                  simp [View.place]
                · exact Function.update_idem ..
  · exact h.sever hslot hu hb hup hdown hc

theorem down_congr (hr : c'.reading = c.reading) (hw : c'.writing = c.writing) (k : Kind) :
    (tiesOf c').down k = (tiesOf c).down k := by
  cases k <;> simp [tiesOf, Ties.down, hr, hw]

theorem up_congr (hr : c'.upReading = c.upReading) (hw : c'.upWriting = c.upWriting) (k : Kind) :
    (tiesOf c').up k = (tiesOf c).up k := by
  cases k <;> simp [tiesOf, Ties.up, hr, hw]

/-- A number nobody has has nothing in flight. -/
theorem Kept.free (h : Kept s w) (hfree : w.opened up = false) (k : Kind) :
    flightOf w up k = 0 := by
  obtain ⟨own, ho⟩ := h.owned
  have hfits := ho.fits up
  rw [ho.nobody_owner hfree] at hfits
  exact hfits.2.1 k

/-- A number nobody has is no connection's. -/
theorem Kept.free_slot (h : Kept s w) (hfree : w.opened up = false) (d : Conn) :
    w.slots up ≠ .client d := by
  intro hup
  obtain ⟨own, ho⟩ := h.owned
  have hnobody := ho.nobody_owner hfree
  rw [ho.client_owner (role_client hup)] at hnobody
  cases hnobody

end Clients

section Opening

variable {s : Bool} {w : World} {fd : Fd} {c : Conn} {env : Outside} {ans : Answers} {calm : Bool}

/-- An endpoint to try means that the connection is past its hello. -/
theorem Steady.served (h : Steady c) (haimed : c.attempt < c.targets.length) : Greeted c := by
  rcases h.greeting with hgreeted | hunserved
  · exact hgreeted
  · rw [hunserved.targets] at haimed
    cases haimed

variable {c' : Conn} {up : Fd}

/-- A connection takes an upstream out of the pool. -/
theorem Kept.take (h : Kept s w) (hslot : w.slots fd = .client c) (hu : c.upstream = none)
    {addr : SocketAddr} {pool : Pool} (htake : w.pool.take addr = (some up, pool))
    (hup : c'.upstream = some up) (hb : c'.upBorrowed = false)
    (hdown : ∀ k, (tiesOf c').down k = (tiesOf c).down k)
    (hparked : ∀ k, (tiesOf c').up k = parked k) (hc : Steady c') :
    Kept s (((lease { w with pool := pool } up).setSlot up (.upstream fd)).setClient fd c') := by
  refine ⟨⟨h.tagged.gens, h.tagged.user, h.tagged.bumps, h.tagged.epochs⟩, ?_, h.distinct, ?_⟩
  · obtain ⟨own, ho⟩ := h.owned
    rw [view_setClient, view_setSlot]
    exact ⟨_, ho.take (role_client hslot) hu hup hb hdown hparked hc.shape (held_take htake)⟩
  · rw [setClient_slots, setSlot_slots]
    exact (h.steady.update up fun _ he => by cases he).client fd hc

/-- A connection opens an upstream of its own. -/
theorem Kept.dial (h : Kept s w) (hslot : w.slots fd = .client c) (hu : c.upstream = none)
    (hfree : w.opened up = false) (hup : c'.upstream = some up) (hb : c'.upBorrowed = false)
    (hdown : ∀ k, (tiesOf c').down k = (tiesOf c).down k) (hquiet : ∀ k, (tiesOf c').up k = 0)
    (hc : Steady c') :
    Kept s (((lease (w.opening up) up).setSlot up (.upstream fd)).setClient fd c') := by
  have ht := tagged_opening h.tagged (h.free hfree)
  refine ⟨⟨ht.gens, ht.user, ht.bumps, ht.epochs⟩, ?_, h.distinct, ?_⟩
  · obtain ⟨own, ho⟩ := h.owned
    rw [view_setClient, view_setSlot]
    exact ⟨_, ho.dial (role_client hslot) hu hfree hup hb hdown hquiet hc.shape⟩
  · rw [setClient_slots, setSlot_slots]
    exact (h.steady.update up fun _ he => by cases he).client fd hc

/-- A connection opens an upstream and lends it to the helper. -/
theorem Kept.watch (h : Kept s w) (hslot : w.slots fd = .client c) (hu : c.upstream = none)
    (hfree : w.opened up = false) (hup : c'.upstream = some up) (hb : c'.upBorrowed = true)
    (hdown : ∀ k, (tiesOf c').down k = (tiesOf c).down k) (hc : Steady c') :
    Kept s ({ (lease (w.opening up) up).setSlot up (.upstream fd) with
      borrowed := up :: ((lease (w.opening up) up).setSlot up (.upstream fd)).borrowed }.setClient
        fd c') := by
  have ht := tagged_opening h.tagged (h.free hfree)
  refine ⟨⟨ht.gens, ht.user, ht.bumps, ht.epochs⟩, ?_, h.distinct, ?_⟩
  · obtain ⟨own, ho⟩ := h.owned
    have hview : viewOf ((lease (w.opening up) up).setSlot up (.upstream fd)) =
        ((viewOf w).open_ up).place up (.upstream fd) := view_setSlot _ up _
    have hlent : viewOf { (lease (w.opening up) up).setSlot up (.upstream fd) with
        borrowed := up :: ((lease (w.opening up) up).setSlot up (.upstream fd)).borrowed } =
        { ((viewOf w).open_ up).place up (.upstream fd) with borrowed := up :: (viewOf w).borrowed } :=
      congrArg (fun v : View => { v with borrowed := up :: v.borrowed }) hview
    rw [view_setClient, hlent]
    exact ⟨_, ho.watch (role_client hslot) hu hfree hup hb hdown hc.shape⟩
  · show AllSteady (Function.update (Function.update w.slots up (.upstream fd)) fd (.client c'))
    exact (h.steady.update up fun _ he => by cases he).client fd hc

/-- A number the kernel made and took back. -/
theorem Kept.glimpse (h : Kept s w) (hfree : w.opened up = false) :
    Kept s ((w.opening up).sysClose up) := by
  have ht := tagged_opening h.tagged (h.free hfree)
  have hopened : ((w.opening up).sysClose up).opened = w.opened := by
    funext x
    by_cases hx : x = up
    · subst hx
      rw [hfree]
      exact Function.update_self ..
    · show Function.update (Function.update w.opened up true) up false x = _
      rw [Function.update_of_ne hx, Function.update_of_ne hx]
  have hview : viewOf ((w.opening up).sysClose up) = viewOf w := by
    apply view_eq <;> first | exact hopened | exact fun _ => rfl | rfl
  refine ⟨⟨ht.gens, ht.user, ht.bumps, ht.epochs⟩, ?_, h.distinct, h.steady⟩
  rw [hview]
  exact h.owned

/-- The slot of a number nobody has is emptied. -/
theorem Kept.blank (h : Kept s w) (hfree : w.opened up = false) :
    Kept s (w.setSlot up .empty) := by
  refine ⟨tagged_setSlot h.tagged up _, ?_, h.distinct, ?_⟩
  · obtain ⟨own, ho⟩ := h.owned
    have hnobody := ho.nobody_owner hfree
    rw [view_setSlot]
    cases s with
    | true =>
        have hfits := ho.fits up
        rw [hnobody] at hfits
        have hempty : (viewOf w).place up .empty = viewOf w := by
          unfold View.place
          rw [← hfits.2.2.2 rfl, Function.update_eq_self]
        rw [show roleOf .empty = .empty from rfl, hempty]
        exact ⟨own, ho⟩
    | false =>
        refine ⟨own, ho.clear (ho.not_client (by rw [hnobody]; nofun)) (by rw [hnobody]; nofun)⟩
  · rw [setSlot_slots]
    exact h.steady.empty up

/-- A connection opens an upstream that the helper will not watch. -/
theorem Kept.unwatched (h : Kept s w) (hslot : w.slots fd = .client c) (hu : c.upstream = none)
    (hfree : w.opened up = false) (hup : c'.upstream = none)
    (hb : c'.upBorrowed = c.upBorrowed)
    (hdown : ∀ k, (tiesOf c').down k = (tiesOf c).down k) (hc : Steady c') :
    Kept s (((((lease (w.opening up) up).setSlot up (.upstream fd)).setSlot up .empty).sysClose
      up).setClient fd c') := by
  have hne : fd ≠ up := fun he => h.free_slot hfree c (he ▸ hslot)
  have hglimpsed := h.glimpse hfree
  have hblank : Kept s (((w.opening up).sysClose up).setSlot up .empty) :=
    hglimpsed.blank (Function.update_self ..)
  have hslot' : (((w.opening up).sysClose up).setSlot up .empty).slots fd = .client c := by
    rw [setSlot_slots, Function.update_of_ne hne]
    exact hslot
  have hkept := hblank.retie hslot' (hup.trans hu.symm) hb (fun hsome => absurd hu hsome) hdown hc
  refine hkept.still ⟨?_, rfl, rfl, rfl, rfl, rfl, rfl, rfl, rfl, rfl, rfl, rfl⟩
  show Function.update (Function.update (Function.update w.slots up _) up _) fd _ =
    Function.update (Function.update w.slots up _) fd _
  rw [Function.update_idem]

theorem shape_exchanging {t : Ties} (hphase : t.phase = .exchanging) (hseen : t.headSeen = false)
    (hown : t.upBorrowed = false)
    (hready : t.upReady = false → t.upstream = none ∧ t.upWriting = false) : Shape t := by
  refine ⟨?_, fun _ => hseen, ?_, ?_, fun _ => hready⟩
  · rw [hphase]
    nofun
  · rw [hphase]
    rintro (h | h) <;> cases h
  · rw [hown]
    nofun

theorem shape_connecting {t : Ties} (hphase : t.phase = .connecting) (hseen : t.headSeen = false)
    (hready : t.upReady = false) (hreading : t.upReading = false) (hwriting : t.upWriting = false) :
    Shape t := by
  refine ⟨?_, fun _ => hseen, ?_, fun _ => ⟨hready, hreading, hwriting, hseen, .inl hphase⟩, ?_⟩
  · rw [hphase]
    nofun
  · rw [hphase]
    rintro (h | h) <;> cases h
  · rw [hphase]
    nofun

theorem Kept.openUpstream (h : Kept s w) (hslot : w.slots fd = .client c) (ha : Aimed c)
    {addr : SocketAddr} (haddr : c.targets[c.attempt]? = some addr) (hready : c.upReady = false)
    (huntaken : Untaken ans w) : Kept s (Serving.openUpstream env ans w fd).1 := by
  have haimed := (List.getElem?_eq_some_iff.mp haddr).1
  have hsteady := h.steady fd c hslot
  have hgreeted := hsteady.served haimed
  have hwriting : c.upWriting = false := (hsteady.shape.exchanging ha.phase hready).2
  unfold Serving.openUpstream
  simp only [hslot, haddr]
  have hstill := Still.hold w
    { c with dispatchedAt := some w.clock, deadline := some (w.clock + w.config.responseTimeout) }
  obtain ⟨held, hheld⟩ := holdInflight_fields w
    { c with dispatchedAt := some w.clock, deadline := some (w.clock + w.config.responseTimeout) }
  have hk := h.still hstill
  generalize holdInflight w { c with
    dispatchedAt := some w.clock
    deadline := some (w.clock + w.config.responseTimeout) } = holding at hstill hheld hk ⊢
  obtain ⟨w₁, c₁⟩ := holding
  dsimp only at hstill hheld hk ⊢
  subst hheld
  have hslot₁ : w₁.slots fd = .client c := hstill.slots ▸ hslot
  cases htake : w₁.pool.take addr with
  | mk taken pool =>
    cases taken with
    | some up =>
        refine hk.take hslot₁ ha.upstream htake rfl ha.own (down_congr rfl rfl) ?_ ?_
        · exact fun k => parked_of_flags (c := { c with upReading := true }) rfl hwriting
        · exact ⟨shape_exchanging rfl ha.seen ha.own nofun, .inl hgreeted, fun _ => haimed⟩
    | none =>
        obtain rfl := take_none htake
        dsimp only
        split
        · refine hk.retie hslot₁ rfl rfl (fun hsome => absurd ha.upstream hsome) (down_congr rfl rfl)
            ⟨?_, .inl hgreeted, fun _ => haimed⟩
          exact shape_exchanging ha.phase ha.seen ha.own fun _ => ⟨ha.upstream, hwriting⟩
        · rename_i up connected hconnect
          have hfree : w₁.opened up = false := hstill.opened ▸ huntaken up connected hconnect
          split
          · rename_i hconnected
            refine hk.dial hslot₁ ha.upstream hfree rfl ha.own (down_congr rfl rfl) ?_ ?_
            · intro k
              cases k <;> simp [tiesOf, Ties.up, hwriting]
            · refine ⟨shape_exchanging rfl ha.seen ha.own ?_, .inl hgreeted, fun _ => haimed⟩
              intro hunready
              rw [show connected = false from hunready] at hconnected
              cases hconnected
          · rename_i hconnected
            have hunready : connected = false := by simpa using hconnected
            subst hunready
            split
            · refine hk.watch hslot₁ ha.upstream hfree rfl rfl (down_congr rfl rfl) ?_
              exact ⟨shape_connecting rfl ha.seen rfl rfl hwriting, .inl hgreeted, fun _ => haimed⟩
            · refine hk.unwatched hslot₁ ha.upstream hfree rfl rfl (down_congr rfl rfl)
                ⟨?_, .inl hgreeted, fun _ => haimed⟩
              exact shape_exchanging ha.phase ha.seen ha.own fun _ => ⟨rfl, hwriting⟩

end Opening

section Progressing

variable {env : Outside} {ans : Answers} {calm : Bool} {w w' : World} {c c' : Conn}

/-- What the exchange of a connection leaves alone. -/
structure Alike (c c' : Conn) : Prop where
  upstream : c'.upstream = c.upstream
  upBorrowed : c'.upBorrowed = c.upBorrowed
  reading : c'.reading = c.reading
  writing : c'.writing = c.writing
  upReading : c'.upReading = c.upReading
  upWriting : c'.upWriting = c.upWriting
  upReady : c'.upReady = c.upReady

theorem Alike.refl (c : Conn) : Alike c c := ⟨rfl, rfl, rfl, rfl, rfl, rfl, rfl⟩

theorem Alike.trans {c'' : Conn} (h : Alike c c') (h' : Alike c' c'') : Alike c c'' :=
  ⟨h'.upstream.trans h.upstream, h'.upBorrowed.trans h.upBorrowed, h'.reading.trans h.reading,
    h'.writing.trans h.writing, h'.upReading.trans h.upReading, h'.upWriting.trans h.upWriting,
    h'.upReady.trans h.upReady⟩

theorem Steady.greeted (h : Steady c) (hread : Read c) : Greeted c :=
  h.greeting.resolve_right fun hunserved => read_inbox hread hunserved.inbox

variable {p q : Hand}

theorem progress_alike (h : Progress env ans calm p q) : Alike p.2 q.2 := by
  cases h with
  | pumped hphase hpumped =>
      obtain ⟨_, _, _, _, _, rfl⟩ := pumped_fields hpumped
      exact ⟨rfl, rfl, rfl, rfl, rfl, rfl, rfl⟩
  | @tunnelled w c asked =>
      obtain ⟨out, hout⟩ := tunnelled_fields env w c asked
      rw [hout]
      exact ⟨rfl, rfl, rfl, rfl, rfl, rfl, rfl⟩
  | @headRelayed w c framing =>
      obtain ⟨out, hout⟩ := relayHead_fields env w c framing
      rw [hout]
      exact ⟨rfl, rfl, rfl, rfl, rfl, rfl, rfl⟩
  | @shuttled w c =>
      obtain ⟨tls, phase, hasty, hfields, -, -⟩ := shuttled_fields ans c
      rw [hfields]
      exact ⟨rfl, rfl, rfl, rfl, rfl, rfl, rfl⟩
  | upEnded hphase hquiet => exact ⟨rfl, rfl, rfl, rfl, hquiet.symm, rfl, rfl⟩
  | _ => exact ⟨rfl, rfl, rfl, rfl, rfl, rfl, rfl⟩

/-- An exchange runs on an upstream of the connection's own. -/
theorem Steady.own (h : Steady c) (hphase : c.phase = .exchanging ∨ c.phase = .relaying ∨
    c.phase = .tunnel ∨ c.phase = .head) : c.upBorrowed = false := by
  cases hb : c.upBorrowed with
  | false => rfl
  | true =>
      rcases (h.shape.borrowed hb).2.2.2.2 with hc | hc <;>
        rw [show c.phase = _ from hc] at hphase <;> simp at hphase

theorem shape_closing {t t' : Ties} (h : Shape t) (ht : t' = { t with phase := .closing }) :
    Shape t' := by
  subst ht
  refine ⟨nofun, fun hp => ?_, fun hp => ?_, fun hb => ?_, nofun⟩
  · rcases hp with hp | hp <;> cases hp
  · rcases hp with hp | hp <;> cases hp
  · obtain ⟨hready, hreading, hwriting, hseen, -⟩ := h.borrowed hb
    exact ⟨hready, hreading, hwriting, hseen, .inr rfl⟩

/-- Once the response has begun: a connection that relays it, or a tunnel. -/
theorem shape_late {t : Ties} (hphase : t.phase = .relaying ∨ t.phase = .tunnel)
    (hseen : t.headSeen = true) (hown : t.upBorrowed = false) : Shape t := by
  refine ⟨?_, ?_, fun _ => hseen, ?_, ?_⟩
  · rcases hphase with hp | hp <;> rw [hp] <;> nofun
  · rcases hphase with hp | hp <;> rw [hp] <;> rintro (h | h) <;> cases h
  · rw [hown]
    nofun
  · rcases hphase with hp | hp <;> rw [hp] <;> nofun

theorem greeted_of_same (h : Greeted c) (hgiven : c'.handOff = c.handOff)
    (hstage : stage c' = stage c) : Greeted c' :=
  ⟨hgiven.trans h.1, by rw [hstage]; exact h.2.1, by rw [hstage]; exact h.2.2⟩

theorem waiting_of_same (h : Waiting c) (hgiven : c'.handOff = c.handOff)
    (hstage : stage c' = stage c) : Waiting c' := by
  unfold Waiting
  rw [hgiven, hstage]
  exact h

/-- What is in an exchange has been greeted. -/
theorem Steady.busy (h : Steady c) (hhead : c.phase ≠ .head) (hclosing : c.phase ≠ .closing) :
    Greeted c :=
  h.greeting.resolve_right fun hunserved => hunserved.phase.elim hhead hclosing

/-- A connection whose flags change, or that is about to end, and nothing else about it. -/
theorem Steady.reshape (h : Steady c) (hs : Shape (tiesOf c')) (hup : c'.upstream = c.upstream)
    (hphase : c'.phase = c.phase ∨ c'.phase = .closing) (hinbox : c'.inbox = c.inbox)
    (htargets : c'.targets = c.targets) (hattempt : c'.attempt = c.attempt)
    (hgiven : c'.handOff = c.handOff) (hstage : stage c' = stage c) : Steady c' := by
  refine ⟨hs, ?_, ?_⟩
  · refine h.greeting.imp (greeted_of_same · hgiven hstage) fun hu => ?_
    refine ⟨hinbox.trans hu.inbox, htargets.trans hu.targets, hup.trans hu.upstream, ?_,
      waiting_of_same hu.waiting hgiven hstage⟩
    rcases hphase with hphase | hphase
    · rw [hphase]
      exact hu.phase
    · exact .inr hphase
  · rw [hup, htargets, hattempt]
    exact h.aimed

theorem Steady.same (h : Steady c) (hties : tiesOf c' = tiesOf c) (hinbox : c'.inbox = c.inbox)
    (htargets : c'.targets = c.targets) (hattempt : c'.attempt = c.attempt)
    (hgiven : c'.handOff = c.handOff) (hstage : stage c' = stage c) : Steady c' :=
  h.reshape (hties ▸ h.shape) (congrArg Ties.upstream hties) (.inl (congrArg Ties.phase hties))
    hinbox htargets hattempt hgiven hstage

theorem progress_steady (h : Progress env ans calm p q) (hs : Steady p.2) : Steady q.2 := by
  cases h with
  | parsed | begun | described | routed | refused | upParsed | bodyRelayed | closed | extended =>
      exact hs.same rfl rfl rfl rfl rfl rfl
  | halfSent | truncated | undispatched =>
      exact hs.reshape (shape_closing hs.shape rfl) rfl (.inr rfl) rfl rfl rfl rfl rfl
  | @upEnded w c hphase hquiet =>
      have hsame : tiesOf { c with upstreamEof := true, upReading := false } = tiesOf c := by
        simp [tiesOf, hquiet]
      exact hs.same hsame rfl rfl rfl rfl rfl
  | pumped hphase hpumped =>
      obtain ⟨_, _, _, _, _, rfl⟩ := pumped_fields hpumped
      have hgreeted := hs.busy (by rcases hphase with hp | hp <;> rw [hp] <;> nofun)
        (by rcases hphase with hp | hp <;> rw [hp] <;> nofun)
      exact ⟨hs.shape, .inl hgreeted, hs.aimed⟩
  | @tunnelled w c asked hphase =>
      have hgreeted := hs.busy (by rw [hphase]; nofun) (by rw [hphase]; nofun)
      have hown := hs.own (.inl hphase)
      obtain ⟨out, hout⟩ := tunnelled_fields env w c asked
      rw [hout]
      exact ⟨shape_late (.inr rfl) rfl hown, .inl hgreeted, hs.aimed⟩
  | @headRelayed w c framing hphase =>
      have hgreeted := hs.busy (by rw [hphase]; nofun) (by rw [hphase]; nofun)
      have hown := hs.own (.inl hphase)
      obtain ⟨out, hout⟩ := relayHead_fields env w c framing
      rw [hout]
      exact ⟨shape_late (.inl rfl) rfl hown, .inl hgreeted, hs.aimed⟩
  | @shuttled w c hphase =>
      have hgreeted := hs.busy (by rw [hphase]; nofun) (by rw [hphase]; nofun)
      obtain ⟨tls, phase, hasty, hfields, hnext, htls⟩ := shuttled_fields ans c
      rw [hfields]
      refine ⟨?_, .inl (greeted_of_same hgreeted rfl htls), hs.aimed⟩
      rcases hnext with rfl | rfl
      · exact hs.shape
      · exact shape_closing hs.shape rfl

theorem hands_alike (h : Hands env ans calm p q) : Alike p.2 q.2 := by
  induction h with
  | refl => exact .refl _
  | tail _ hstep ih => exact ih.trans (progress_alike hstep)

theorem hands_steady (h : Hands env ans calm p q) (hs : Steady p.2) : Steady q.2 := by
  induction h with
  | refl => exact hs
  | tail _ hstep ih => exact progress_steady hstep ih

end Progressing

section Ending

variable {env : Outside} {ans : Answers} {calm : Bool} {s : Bool} {w w' : World} {fd : Fd} {c c' : Conn}

theorem Still.setClient (h : Still w w') (fd : Fd) (c : Conn) :
    Still (w.setClient fd c) (w'.setClient fd c) :=
  ⟨by rw [setClient_slots, setClient_slots, h.slots], h.generations, h.bumps, h.epochs, h.ops,
    h.opened, h.pool, h.borrowed, h.intakes, h.admin, h.notify, h.drainDeadline⟩

/-- A refusal that ends the connection, and one that ends the request. -/
theorem refuse_closing (w : World) (c : Conn) (status : Nat) (out : Bytes) :
    (refuse w c status out true).2 = { c with
      counted := true, outbox := c.outbox ++ out, phase := .closing
      book := c.book.invent status out } := by
  simp [refuse, recordResponse_fields, Conn.invent]

theorem refuse_keeping (w : World) (c : Conn) (status : Nat) (out : Bytes) :
    ∃ inbox headConsumed book, (refuse w c status out false).2 = Conn.reset { c with
      counted := true, outbox := c.outbox ++ out, inbox := inbox, headConsumed := headConsumed
      book := book } ∧ (c.inbox = [] → inbox = []) := by
  unfold refuse
  cases hconsumed : c.headConsumed with
  | false =>
      refine ⟨c.inbox.drop c.head.len, true, c.dropHead.book.invent status out, ?_,
        fun hempty => by rw [hempty, List.drop_nil]⟩
      simp only [Bool.not_false, Bool.and_self, if_true, recordResponse_fields, Conn.invent,
        Conn.dropHead, Bool.false_eq_true, if_false]
  | true =>
      refine ⟨c.inbox, true, c.book.invent status out, ?_, id⟩
      simp [recordResponse_fields, Conn.invent, hconsumed]

theorem refuse_alike (w : World) (c : Conn) (status : Nat) (out : Bytes) (close : Bool) :
    Alike c (refuse w c status out close).2 := by
  cases close with
  | true =>
      rw [refuse_closing]
      exact ⟨rfl, rfl, rfl, rfl, rfl, rfl, rfl⟩
  | false =>
      obtain ⟨_, _, _, hfields, -⟩ := refuse_keeping w c status out
      rw [hfields]
      exact ⟨rfl, rfl, rfl, rfl, rfl, rfl, rfl⟩

theorem Still.refuse (w : World) (c : Conn) (status : Nat) (out : Bytes) (close : Bool) :
    Still w (refuse w c status out close).1 := by
  unfold Serving.refuse
  exact .of_quiet ((Quiet.answer _ _ _).trans (.recordResponse _ _ _))

/-- What is left of a connection whose request was refused. -/
theorem Steady.refused (h : Steady c) (w : World) (status : Nat) (out : Bytes) (close : Bool)
    (hown : close = false → c.upBorrowed = false) :
    Steady (Serving.refuse w { c with inflightHeld := false }.cutOff status out close).2 := by
  cases close with
  | true =>
      rw [refuse_closing]
      refine ⟨⟨nofun, ?_, ?_, ?_, nofun⟩, ?_, fun hsome => absurd rfl hsome⟩
      · rintro (hp | hp) <;> cases hp
      · rintro (hp | hp) <;> cases hp
      · intro hb
        exact ⟨rfl, rfl, rfl, (h.shape.borrowed hb).2.2.2.1, .inr rfl⟩
      · exact h.greeting.imp id fun hu => ⟨hu.inbox, hu.targets, rfl, .inr rfl, hu.waiting⟩
  | false =>
      obtain ⟨inbox, headConsumed, book, hfields, hinbox⟩ :=
        refuse_keeping w { c with inflightHeld := false }.cutOff status out
      rw [hfields]
      refine ⟨⟨fun _ => ⟨rfl, hown rfl, rfl, rfl, rfl⟩, fun _ => rfl, ?_, ?_, nofun⟩, ?_,
        fun hsome => absurd rfl hsome⟩
      · rintro (hp | hp) <;> cases hp
      · intro hb
        rw [show c.upBorrowed = true from hb] at hown
        cases hown rfl
      · exact h.greeting.imp id fun hu => ⟨hinbox hu.inbox, rfl, rfl, .inl rfl, hu.waiting⟩

theorem Kept.fail (h : Kept s w) (hslot : w.slots fd = .client c) (status : Nat) (body : Bytes)
    (close : Bool) (unsupported : Option Bytes) (hown : close = false → c.upBorrowed = false) :
    Kept s (failUnsupported env ans w fd status body close unsupported) := by
  have hsteady := h.steady fd c hslot
  have hstill := Still.release w c
  have hslot' : (releaseInflight w c).1.slots fd = .client c := hstill.slots ▸ hslot
  unfold failUnsupported
  simp only [hslot]
  rw [released_fields]
  have hsame : Serving.letGo ans (releaseInflight w c).1 { c with inflightHeld := false } =
      Serving.letGo ans (releaseInflight w c).1 c := rfl
  rw [hsame]
  refine Kept.still ?_ ((Still.refuse _ _ _ _ _).setClient fd _)
  have halike := refuse_alike (Serving.letGo ans (releaseInflight w c).1 c)
    { c with inflightHeld := false }.cutOff
  refine (h.still hstill).letGo hslot' (halike _ _ _).upstream (fun _ => (halike _ _ _).upBorrowed)
    (down_congr (halike _ _ _).reading (halike _ _ _).writing) ?_
  · refine hsteady.refused _ _ _ _ fun hclose => hown ?_
    simp only [Bool.or_eq_false_iff] at hclose
    exact hclose.1.1

/-- A connection whose exchange is over. -/
theorem Steady.ended (h : Steady c) (hown : c.upBorrowed = false) :
    Steady { c with inflightHeld := false }.ended := by
  unfold Conn.ended
  dsimp only
  split
  · refine ⟨⟨fun _ => ⟨rfl, hown, rfl, rfl, rfl⟩, fun _ => rfl, ?_, ?_, nofun⟩, ?_,
      fun hsome => absurd rfl hsome⟩
    · rintro (hp | hp) <;> cases hp
    · intro hb
      rw [show c.upBorrowed = true from hb] at hown
      cases hown
    · exact h.greeting.imp id fun hu => ⟨hu.inbox, rfl, rfl, .inl rfl, hu.waiting⟩
  · refine ⟨⟨nofun, fun _ => rfl, ?_, ?_, nofun⟩, ?_, fun hsome => absurd rfl hsome⟩
    · rintro (hp | hp) <;> cases hp
    · intro hb
      rw [show c.upBorrowed = true from hb] at hown
      cases hown
    · exact h.greeting.imp id fun hu => ⟨hu.inbox, rfl, rfl, .inr rfl, hu.waiting⟩

theorem ended_alike (c : Conn) : Alike c.cutOff c.ended := by
  unfold Conn.ended
  dsimp only
  split <;> exact ⟨rfl, rfl, rfl, rfl, rfl, rfl, rfl⟩

theorem Kept.finish (h : Kept s w) (hslot : w.slots fd = .client c)
    (hseen : c.responseHeadSeen = true) : Kept s (finishResponse ans w fd) := by
  have hsteady := h.steady fd c hslot
  have hown : c.upBorrowed = false := by
    cases hb : c.upBorrowed with
    | false => rfl
    | true =>
        have hunseen : c.responseHeadSeen = false := (hsteady.shape.borrowed hb).2.2.2.1
        rw [hunseen] at hseen
        cases hseen
  have hstill : Still w (releaseInflight (w.remember (.finished c)) c).1 :=
    (Still.of_quiet (.remember w _)).trans (.release _ c)
  have hslot' : (releaseInflight (w.remember (.finished c)) c).1.slots fd = .client c :=
    hstill.slots ▸ hslot
  have halike := ended_alike { c with inflightHeld := false }
  unfold finishResponse
  simp only [hslot]
  rw [released_fields]
  split
  · rename_i hnone
    exact (h.still hstill).retie hslot' (halike.upstream.trans hnone.symm) halike.upBorrowed
      (fun hsome => absurd hnone hsome) (down_congr halike.reading halike.writing)
      (hsteady.ended hown)
  · rename_i up hsome
    exact (h.still hstill).releaseUpstream hslot' hsome hown halike.upstream
      (down_congr halike.reading halike.writing) (hsteady.ended hown) rfl rfl

theorem Kept.handOff (h : Kept s w) (hslot : w.slots fd = .client c) (hgiven : c.handOff = true)
    (hdispatch : w.config.dispatch = true) : Kept s (Serving.handOff w fd).1 := by
  have hunserved := (h.steady fd c hslot).greeting.resolve_left fun hg => by
    rw [hg.1] at hgiven
    cases hgiven
  have hself : w.setClient fd c = { w with highWater := max w.highWater (fd.val + 1) } := by
    simp [World.setClient, World.setSlot, ← hslot]
  unfold Serving.handOff
  simp only [hslot, hdispatch, Bool.not_true, Bool.false_eq_true, if_false]
  have hstill : ∀ m, Still (w.setClient fd c) (w.remember m) := fun m => by
    rw [hself]
    exact ⟨rfl, rfl, rfl, rfl, rfl, rfl, rfl, rfl, rfl, rfl, rfl, rfl⟩
  exact h.vacate hslot hunserved.upstream rfl (hstill _)

theorem Kept.preface (h : Kept s w) (hslot : w.slots fd = .client c) (hphase : c.phase = .head)
    (hdispatch : w.config.dispatch = true) :
    Kept s (Serving.handOff (w.setClient fd { c with handOff := true }) fd).1 := by
  have hup := ((h.steady fd c hslot).shape.head hphase).1
  have hdispatch' : (w.setClient fd { c with handOff := true }).config.dispatch = true := hdispatch
  unfold Serving.handOff
  simp only [setClient_slot, hdispatch', Bool.not_true, Bool.false_eq_true, if_false]
  have hties : tiesOf { c with handOff := true } = tiesOf c := rfl
  exact h.vacate hslot hup hties
    (.of_quiet (Quiet.remember (w.setClient fd { c with handOff := true }) _))

end Ending

section Driving

variable {env : Outside} {ans : Answers} {calm : Bool} {s : Bool} {w w' : World} {fd : Fd} {c c' : Conn}

/-- Sealing and writing change no state of a session. -/
theorem Steady.recorded (h : Steady c) {tls : Option Session} {outbox : Bytes} {book : Book}
    (htls : tls.map (·.state) = stage c) :
    Steady { c with tls := tls, outbox := outbox, book := book } :=
  h.same rfl rfl rfl rfl rfl htls

/-- The shape of a connection says nothing of its own operations. -/
theorem shape_flags {t : Ties} (h : Shape t) (reading writing : Bool) :
    Shape { t with reading := reading, writing := writing } :=
  ⟨h.head, h.early, h.late, h.borrowed, h.exchanging⟩

/-- An upstream that is ready is the connection's own. -/
theorem Steady.owned_of_ready (h : Steady c) (hready : c.upReady = true) :
    c.upBorrowed = false := by
  cases hb : c.upBorrowed with
  | false => rfl
  | true =>
      have hunready : c.upReady = false := (h.shape.borrowed hb).1
      rw [hunready] at hready
      cases hready

/-- The operations of a ready upstream change nothing of the connection's shape. -/
theorem shape_ready {t : Ties} (h : Shape t) (hready : t.upReady = true)
    (upReading upWriting : Bool) :
    Shape { t with upReading := upReading, upWriting := upWriting } := by
  refine ⟨fun hp => ?_, h.early, h.late, fun hb => ?_, fun hp hn => ?_⟩
  · rw [(h.head hp).2.2.2.1] at hready
    cases hready
  · rw [(h.borrowed hb).1] at hready
    cases hready
  · rw [show t.upReady = false from hn] at hready
    cases hready

theorem Kept.flushDown (h : Kept s w) : Kept s (Serving.flushDown ans w fd) := by
  unfold Serving.flushDown
  split
  · rename_i c hslot
    have hsteady := h.steady fd c hslot
    obtain ⟨tls, outbox, given, hsealed, htls⟩ := sealed_fields ans.rustls c
    have hsteady' : Steady
        { c with tls := tls, outbox := outbox, book := { c.book with given := given } } :=
      hsteady.recorded htls
    rw [hsealed]
    dsimp only
    split
    · rename_i hready
      have hquiet : c.writing = false := by
        simp only [Bool.and_eq_true, Bool.not_eq_true'] at hready
        exact hready.1
      obtain ⟨tls', outbox', hunloaded, htls'⟩ :=
        unloaded_fields
          { c with tls := tls, outbox := outbox, book := { c.book with given := given } }
      have hsteady'' : Steady
          { c with tls := tls', outbox := outbox', book := { c.book with given := given } } :=
        hsteady'.recorded htls'
      rw [hunloaded]
      split
      · refine h.submitDown hslot (by decide) _ rfl rfl (up_congr rfl rfl) ?_
          (hsteady''.reshape (shape_flags hsteady''.shape c.reading true) rfl (.inl rfl) rfl rfl rfl
            rfl rfl)
        intro k
        cases k <;> simp [tiesOf, Ties.down, hquiet]
      · refine h.retie hslot rfl rfl (fun _ => up_congr rfl rfl) (down_congr rfl rfl)
          (hsteady''.reshape (shape_closing hsteady''.shape rfl) rfl (.inr rfl) rfl rfl rfl rfl rfl)
    · exact h.retie hslot rfl rfl (fun _ => up_congr rfl rfl) (down_congr rfl rfl) hsteady'
  · exact h

theorem Kept.flushUp (h : Kept s w) : Kept s (Serving.flushUp ans w fd) := by
  unfold Serving.flushUp
  split
  · rename_i c hslot
    have hsteady := h.steady fd c hslot
    split
    · exact h
    · rename_i up hup
      dsimp only
      split
      · rename_i hready
        simp only [Bool.and_eq_true, Bool.not_eq_true'] at hready
        have hown := hsteady.owned_of_ready hready.1.1
        split
        · refine h.submitUp hslot hup hown (by decide) _ hup hown (down_congr rfl rfl) ?_
            (hsteady.reshape (shape_ready hsteady.shape hready.1.1 c.upReading true) rfl (.inl rfl)
              rfl rfl rfl rfl rfl)
          intro k
          cases k <;> simp [tiesOf, Ties.up, hready.1.2]
        · refine h.retie hslot rfl rfl (fun _ => up_congr rfl rfl) (down_congr rfl rfl)
            (hsteady.reshape (shape_closing hsteady.shape rfl) rfl (.inr rfl) rfl rfl rfl rfl rfl)
      · exact h
  · exact h

theorem Kept.readUp (h : Kept s w) : Kept s (Serving.readUp ans w fd) := by
  unfold Serving.readUp
  split
  · rename_i c hslot
    have hsteady := h.steady fd c hslot
    split
    · exact h
    · rename_i up hup
      split
      · rename_i hwants
        simp only [Conn.wantsUpstreamBytes, Bool.and_eq_true, Bool.not_eq_true'] at hwants
        have hready : c.upReady = true := hwants.1.2.1.1.1.2
        have hown := hsteady.owned_of_ready hready
        refine h.submitUp hslot hup hown (by decide) _ hup hown (down_congr rfl rfl) ?_
          (hsteady.reshape (shape_ready hsteady.shape hready true c.upWriting) rfl (.inl rfl)
            rfl rfl rfl rfl rfl)
        intro k
        cases k <;> simp [tiesOf, Ties.up, hwants.1.1]
      · exact h
  · exact h

theorem Kept.readDown (h : Kept s w) : Kept s (Serving.readDown ans w fd) := by
  unfold Serving.readDown
  split
  · rename_i c hslot
    have hsteady := h.steady fd c hslot
    split
    · rename_i hwants
      simp only [Bool.and_eq_true, Bool.not_eq_true'] at hwants
      refine h.submitDown hslot (by decide) _ rfl rfl (up_congr rfl rfl) ?_
        (hsteady.reshape (shape_flags hsteady.shape true c.writing) rfl (.inl rfl) rfl rfl rfl rfl
          rfl)
      intro k
      cases k <;> simp [tiesOf, Ties.down, hwants.1.1]
    · exact h
  · exact h

theorem Kept.settle (h : Kept s w) : Kept s (Serving.settle ans w fd) := by
  unfold Serving.settle
  split
  · rename_i c hslot
    have hsteady := h.steady fd c hslot
    split
    · rename_i hdone
      simp only [Bool.and_eq_true, beq_iff_eq] at hdone
      have hcut : Steady c.cutOff := by
        refine ⟨⟨?_, ?_, ?_, ?_, ?_⟩, ?_, fun hsome => absurd rfl hsome⟩
        · intro hp
          rw [show c.phase = .head from hp] at hdone
          simp at hdone
        · intro hp
          exact hsteady.shape.early hp
        · intro hp
          exact hsteady.shape.late hp
        · intro hb
          exact ⟨rfl, rfl, rfl, (hsteady.shape.borrowed hb).2.2.2⟩
        · exact fun _ _ => ⟨rfl, rfl⟩
        · exact hsteady.greeting.imp id fun hu =>
            ⟨hu.inbox, hu.targets, rfl, hu.phase, hu.waiting⟩
      have hlet : Kept s ((Serving.letGo ans w c).setClient fd c.cutOff) :=
        h.letGo hslot rfl (fun _ => rfl) (down_congr rfl rfl) hcut
      exact hlet.leave (setClient_slot ..) rfl
    · exact h
  · exact h

/-- A connection between two upstreams. -/
theorem steady_between (hphase : c.phase = .exchanging) (hseen : c.responseHeadSeen = false)
    (hup : c.upstream = none) (hown : c.upBorrowed = false) (hwriting : c.upWriting = false)
    (hgreeted : Greeted c) : Steady c :=
  ⟨shape_exchanging hphase hseen hown fun _ => ⟨hup, hwriting⟩, .inl hgreeted,
    fun hsome => absurd hup hsome⟩

/-- A retry is due only to a connection that has been greeted. -/
theorem Steady.due (h : Steady c) (hdue : Due c) : Greeted c :=
  h.served hdue.aimed

theorem Kept.requeued (h : Kept s w) (hslot : w.slots fd = .client c)
    (hdue : Due c) {addr : SocketAddr}
    (haddr : c.requeued.targets[c.requeued.attempt]? = some addr) (huntaken : Untaken ans w) :
    Kept s (Serving.openUpstream env ans (w.setClient fd c.requeued) fd).1 := by
  have haimed := requeued_aimed hdue
  have hgreeted := (h.steady fd c hslot).due hdue
  have hflags : c.requeued.reading = c.reading ∧ c.requeued.writing = c.writing ∧
      c.requeued.upWriting = false ∧ c.requeued.upReady = false ∧
      c.requeued.handOff = c.handOff ∧ c.requeued.tls = c.tls := by
    unfold Conn.requeued
    split <;> exact ⟨rfl, rfl, rfl, rfl, rfl, rfl⟩
  obtain ⟨hr, hw, huw, hready, hgiven, htls⟩ := hflags
  have hmid : Kept s (w.setClient fd c.requeued) :=
    h.retie hslot (haimed.upstream.trans hdue.upstream.symm) (haimed.own.trans hdue.own.symm)
      (fun hsome => absurd hdue.upstream hsome) (down_congr hr hw)
      (steady_between haimed.phase haimed.seen haimed.upstream haimed.own huw
        (greeted_of_same hgreeted hgiven (by unfold stage; rw [htls])))
  exact hmid.openUpstream (setClient_slot ..) haimed haddr hready huntaken

theorem Kept.dispatched (h : Kept s w) (hslot : w.slots fd = .client c)
    (hands : Hands env ans calm (w, c) (w', c')) (hphase : c'.phase = .head) (hread : Read c')
    {matched : Ramjet.Engine.Route.Matched} {framing : Framing} {first : Nat} {target : SocketAddr}
    {others : List SocketAddr} (huntaken : Untaken ans w') :
    Kept s (Serving.openUpstream env ans
      ((Requests.dispatched ans w' c' w'.routes matched framing first (target :: others)
        target).1.setClient fd
        (Requests.dispatched ans w' c' w'.routes matched framing first (target :: others)
          target).2) fd).1 := by
  have hsteady : Steady c' := hands_steady hands (h.steady fd c hslot)
  have halike := hands_alike hands
  have hquiet := (hands_quiet hands).trans
    (Quiet.dispatched ans w' c' w'.routes matched framing first (target :: others) target)
  have hgreeted := hsteady.greeted hread
  obtain ⟨hup, hown, hwriting, hready, hseen⟩ := hsteady.shape.head hphase
  obtain ⟨_, _, _, hfields⟩ :=
    dispatched_fields ans w' c' w'.routes matched framing first (target :: others) target
  generalize Requests.dispatched ans w' c' w'.routes matched framing first (target :: others)
    target = sent at hquiet hfields ⊢
  obtain ⟨w₁, c₁⟩ := sent
  dsimp only at hquiet hfields ⊢
  subst hfields
  have hslot₁ : w₁.slots fd = .client c := hquiet.slots ▸ hslot
  have huntaken₁ : Untaken ans w₁ := fun up connected hc => by
    rw [hquiet.opened, ← (hands_quiet hands).opened]
    exact huntaken up connected hc
  refine Kept.openUpstream (Kept.retie (h.still (.of_quiet hquiet)) hslot₁ ?_ ?_ ?_ ?_ ?_)
    (setClient_slot ..) ⟨rfl, hseen, hup, hown⟩ rfl hready huntaken₁
  · exact halike.upstream
  · exact halike.upBorrowed
  · exact fun _ => up_congr halike.upReading halike.upWriting
  · exact down_congr halike.reading halike.writing
  · exact steady_between rfl hseen hup hown hwriting (greeted_of_same hgreeted rfl rfl)

theorem lose_letGo (ans : Answers) (w : World) (hown : c.upBorrowed = false) :
    lose ans w c = Serving.letGo ans w c := by
  unfold lose Serving.letGo
  split
  · rfl
  · rw [hown]
    rfl

theorem Kept.lost (h : Kept s w) (hslot : w.slots fd = .client c) (hown : c.upBorrowed = false)
    (hphase : c.phase ≠ .head) (committed : Bool) :
    Kept s ((lose ans w c).setClient fd { c with upstream := none, committed := committed }) := by
  have hsteady := h.steady fd c hslot
  have hgone : Steady { c with upstream := none, committed := committed } := by
    refine ⟨⟨fun hp => absurd hp hphase, hsteady.shape.early, hsteady.shape.late, fun hb => ?_, ?_⟩,
      hsteady.greeting.imp id fun hu => ⟨hu.inbox, hu.targets, rfl, hu.phase, hu.waiting⟩,
      fun hsome => absurd rfl hsome⟩
    · rw [show c.upBorrowed = true from hb] at hown
      cases hown
    · exact fun hp hready => ⟨rfl, (hsteady.shape.exchanging hp hready).2⟩
  rw [lose_letGo ans w hown]
  exact h.letGo hslot rfl (fun _ => rfl) (down_congr rfl rfl) hgone

/-- Every move of an exchange keeps each descriptor with its owner. -/
theorem Kept.moved (h : Kept s w) (hmove : Move env ans calm fd w w') : Kept s w' := by
  cases hmove with
  | @put w' c c' hslot hands =>
      have hquiet : Quiet w w' := hands_quiet hands
      have halike : Alike c c' := hands_alike hands
      exact (h.still (.of_quiet hquiet)).retie (hquiet.slots ▸ hslot) halike.upstream
        halike.upBorrowed (fun _ => up_congr halike.upReading halike.upWriting)
        (down_congr halike.reading halike.writing) (hands_steady hands (h.steady fd c hslot))
  | fail hslot _ status body close unsupported hown =>
      exact h.fail hslot status body close unsupported hown
  | rejected | failed => exact h.still (.of_quiet (.remember w _))
  | finish hslot hseen => exact h.finish hslot hseen
  | handOff hslot hgiven hdispatch => exact h.handOff hslot hgiven hdispatch
  | preface hslot hphase _ hdispatch => exact h.preface hslot hphase hdispatch
  | flushDown => exact h.flushDown
  | flushUp => exact h.flushUp
  | readUp => exact h.readUp
  | readDown => exact h.readDown
  | settle => exact h.settle
  | dispatched hslot hands hphase hread _ _ _ huntaken =>
      exact h.dispatched hslot hands hphase hread huntaken
  | released hslot hdue =>
      rename_i c
      have hstill := Still.release w c
      have hslot' : (releaseInflight w c).1.slots fd = .client c := hstill.slots ▸ hslot
      rw [released_fields]
      exact (h.still hstill).retie hslot' rfl rfl (fun _ => up_congr rfl rfl)
        (down_congr rfl rfl)
        ((h.steady fd c hslot).same rfl rfl rfl rfl rfl rfl)
  | requeued hslot hdue _ _ haddr huntaken => exact h.requeued hslot hdue haddr huntaken
  | lost hslot hown hphase => exact h.lost hslot hown hphase _
  | idled hslot hphase =>
      rename_i c
      exact h.leave hslot ((h.steady fd c hslot).shape.head hphase).1
  | gone hslot =>
      refine h.still ⟨?_, rfl, rfl, rfl, rfl, rfl, rfl, rfl, rfl, rfl, rfl, rfl⟩
      rw [setSlot_slots, ← hslot, Function.update_eq_self]

end Driving

end Ramjet.Engine.Worker.Keeping
