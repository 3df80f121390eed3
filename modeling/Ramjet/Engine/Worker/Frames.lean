/- digest: What a move of one exchange leaves alone. -/

import Ramjet.Engine.Worker.Moves

set_option autoImplicit false
set_option relaxedAutoImplicit false

namespace Ramjet.Engine.Worker.Frames

open Ramjet.Base.Octets
open Ramjet.Base.Net
open Ramjet.Engine.IdlePool
open Ramjet.Engine.Worker.Accounting
open Ramjet.Engine.Worker.Connection
open Ramjet.Engine.Worker.Core
open Ramjet.Engine.Worker.Serving
open Ramjet.Engine.Worker.Requests
open Ramjet.Engine.Worker.Moves

/-- Around one descriptor: no connection appears elsewhere, nothing is configured or armed anew,
and no moment is forgotten. -/
structure Frame (fd : Fd) (w w' : World) : Prop where
  others : ∀ x d, x ≠ fd → w'.slots x = .client d → w.slots x = .client d
  config : w'.config = w.config
  clock : w'.clock = w.clock
  intakes : w'.intakes = w.intakes
  admin : w'.admin = w.admin
  notify : w'.notify = w.notify
  drainDeadline : w'.drainDeadline = w.drainDeadline
  shutdown : w'.shutdown = w.shutdown
  broken : w'.broken = w.broken
  moments : w.moments <+: w'.moments

section Primitives

variable {fd : Fd} {w w' : World}

theorem Frame.refl (fd : Fd) (w : World) : Frame fd w w :=
  ⟨fun _ _ _ => id, rfl, rfl, rfl, rfl, rfl, rfl, rfl, rfl, List.prefix_rfl⟩

theorem Frame.trans {w'' : World} (h : Frame fd w w') (h' : Frame fd w' w'') : Frame fd w w'' :=
  ⟨fun x d hx hd => h.others x d hx (h'.others x d hx hd), h'.config.trans h.config,
    h'.clock.trans h.clock, h'.intakes.trans h.intakes, h'.admin.trans h.admin,
    h'.notify.trans h.notify, h'.drainDeadline.trans h.drainDeadline, h'.shutdown.trans h.shutdown,
    h'.broken.trans h.broken, h.moments.trans h'.moments⟩

theorem Frame.of_quiet (h : Quiet w w') : Frame fd w w' := by
  obtain ⟨_, _, _, _, _, _, rfl, hnoted⟩ := h
  exact ⟨fun _ _ _ => id, rfl, rfl, rfl, rfl, rfl, rfl, rfl, rfl, hnoted⟩

/-- Only the slots changed, and there only what is no connection elsewhere. -/
theorem Frame.of_slots {slots : Fd → Slot} {highWater : Nat}
    (hothers : ∀ x d, x ≠ fd → slots x = .client d → w.slots x = .client d) :
    Frame fd w { w with slots := slots, highWater := highWater } :=
  ⟨hothers, rfl, rfl, rfl, rfl, rfl, rfl, rfl, rfl, List.prefix_rfl⟩

theorem Frame.put (fd : Fd) (w : World) (slot : Slot) : Frame fd w (w.setSlot fd slot) :=
  .of_slots fun x d hx hd => by
    rw [Function.update_of_ne hx] at hd
    exact hd

theorem Frame.putUp (fd up : Fd) (w : World) {slot : Slot} (hslot : slot.leaves = []) :
    Frame fd w (w.setSlot up slot) :=
  .of_slots fun x d _ hd => by
    by_cases hup : x = up
    · subst hup
      rw [Function.update_self] at hd
      rw [hd] at hslot
      cases hslot
    · rw [Function.update_of_ne hup] at hd
      exact hd

theorem Frame.submit (fd : Fd) (w : World) (k : Kind) (f : Fd) (payload : Bytes) :
    Frame fd w (w.submit k f payload) :=
  ⟨fun _ _ _ => id, rfl, rfl, rfl, rfl, rfl, rfl, rfl, rfl, List.prefix_rfl⟩

theorem Frame.sysClose (fd : Fd) (w : World) (f : Fd) : Frame fd w (w.sysClose f) :=
  ⟨fun _ _ _ => id, rfl, rfl, rfl, rfl, rfl, rfl, rfl, rfl, List.prefix_rfl⟩

theorem Frame.opening (fd : Fd) (w : World) (f : Fd) : Frame fd w (w.opening f) :=
  ⟨fun _ _ _ => id, rfl, rfl, rfl, rfl, rfl, rfl, rfl, rfl, List.prefix_rfl⟩

theorem Frame.bump (fd : Fd) (w : World) (f : Fd) : Frame fd w (w.bumpGeneration f) :=
  ⟨fun _ _ _ => id, rfl, rfl, rfl, rfl, rfl, rfl, rfl, rfl, List.prefix_rfl⟩

theorem Frame.pool (fd : Fd) (w : World) (pool : Pool) : Frame fd w { w with pool := pool } :=
  ⟨fun _ _ _ => id, rfl, rfl, rfl, rfl, rfl, rfl, rfl, rfl, List.prefix_rfl⟩

theorem Frame.lend (fd : Fd) (w : World) (borrowed : List Fd) :
    Frame fd w { w with borrowed := borrowed } :=
  ⟨fun _ _ _ => id, rfl, rfl, rfl, rfl, rfl, rfl, rfl, rfl, List.prefix_rfl⟩

theorem Frame.lease (fd : Fd) (w : World) (up : Fd) : Frame fd w (lease w up) :=
  ⟨fun _ _ _ => id, rfl, rfl, rfl, rfl, rfl, rfl, rfl, rfl, List.prefix_append _ _⟩

theorem Frame.archived (fd : Fd) (w : World) (archive : List Conn) :
    Frame fd w { w with archive := archive } :=
  ⟨fun _ _ _ => id, rfl, rfl, rfl, rfl, rfl, rfl, rfl, rfl, List.prefix_rfl⟩

theorem Frame.vacate (fd : Fd) (w : World) (f : Fd) : Frame fd w (w.vacate f) :=
  (((Frame.bump fd w f).trans (.archived fd _ _)).trans (.putUp fd f _ rfl)).trans
    (.sysClose fd _ f)

theorem Frame.countOff (fd : Fd) (w : World) (f : Fd) : Frame fd w (w.countOff f) := by
  unfold World.countOff
  split
  · exact ⟨fun _ _ _ => id, rfl, rfl, rfl, rfl, rfl, rfl, rfl, rfl, List.prefix_rfl⟩
  · exact .refl fd w

theorem Frame.close (fd : Fd) (w : World) (ans : Answers) (f : Fd) :
    Frame fd w (w.close ans f) := by
  have hvacated := (Frame.countOff fd w f).trans (.vacate fd _ f)
  unfold World.close
  dsimp only
  split
  · exact hvacated.trans (.submit fd _ .close f [])
  · exact hvacated

theorem Frame.release (fd : Fd) (w : World) (c : Conn) : Frame fd w (releaseInflight w c).1 := by
  unfold releaseInflight
  dsimp only
  split
  · split
    · exact .refl fd w
    · exact ⟨fun _ _ _ => id, rfl, rfl, rfl, rfl, rfl, rfl, rfl, rfl, List.prefix_rfl⟩
  · exact .refl fd w

theorem Frame.hold (fd : Fd) (w : World) (c : Conn) : Frame fd w (holdInflight w c).1 := by
  unfold holdInflight
  split
  · exact .refl fd w
  · split
    · exact .refl fd w
    · exact ⟨fun _ _ _ => id, rfl, rfl, rfl, rfl, rfl, rfl, rfl, rfl, List.prefix_rfl⟩

end Primitives

section Functions

variable {env : Outside} {ans : Answers} {calm : Bool} {fd : Fd} {w w' : World} {c : Conn}

theorem Frame.letGo (fd : Fd) (w : World) (c : Conn) : Frame fd w (letGo ans w c) := by
  unfold Serving.letGo
  split
  · exact .refl fd w
  · split
    · exact .putUp fd _ w rfl
    · exact .close fd w ans _

theorem Frame.lose (fd : Fd) (w : World) (c : Conn) : Frame fd w (lose ans w c) := by
  unfold Serving.lose
  split
  · exact .refl fd w
  · exact .close fd w ans _

theorem Quiet.refuse (w : World) (c : Conn) (status : Nat) (out : Bytes) (close : Bool) :
    Quiet w (refuse w c status out close).1 := by
  unfold Serving.refuse
  exact (Quiet.answer _ _ _).trans (.recordResponse _ _ _)

theorem Frame.fail (hslot : w.slots fd = .client c) (status : Nat) (body : Bytes) (close : Bool)
    (unsupported : Option Bytes) :
    Frame fd w (failUnsupported env ans w fd status body close unsupported) := by
  unfold failUnsupported
  simp only [hslot]
  exact (((Frame.release fd w c).trans (.letGo fd _ _)).trans
    (.of_quiet (Quiet.refuse _ _ _ _ _))).trans (.put fd _ _)

theorem Frame.releaseUpstream (fd : Fd) (w : World) (c : Conn) (up : Fd) :
    Frame fd w (releaseUpstream ans w c up) := by
  unfold Serving.releaseUpstream
  dsimp only
  split
  · rename_i addr _ _
    have hoffered : ∀ pool, Frame fd w { w.setSlot up (.idle addr) with pool := pool } :=
      fun pool => (Frame.putUp fd up w rfl).trans (.pool fd _ pool)
    split
    · have hnoted : ∀ pool m, Frame fd w
          ({ w.setSlot up (.idle addr) with pool := pool }.remember m) :=
        fun pool m => (hoffered pool).trans (.of_quiet (.remember _ _))
      split
      · exact hnoted _ _
      · split
        · exact (hnoted _ _).trans (.submit fd _ .upRead up [])
        · exact ((hnoted _ _).trans (.pool fd _ _)).trans (.close fd _ ans up)
    · exact (hoffered _).trans (.close fd _ ans _)
  · exact .close fd w ans up

theorem Frame.finish (hslot : w.slots fd = .client c) : Frame fd w (finishResponse ans w fd) := by
  unfold finishResponse
  simp only [hslot]
  have hreleased : Frame fd w (releaseInflight (w.remember (.finished c)) c).1 :=
    (Frame.of_quiet (.remember w _)).trans (.release fd _ c)
  split
  · exact hreleased.trans (.put fd _ _)
  · exact (hreleased.trans (.releaseUpstream fd _ _ _)).trans (.put fd _ _)

theorem Frame.handOff (fd : Fd) (w : World) : Frame fd w (handOff w fd).1 := by
  unfold Serving.handOff
  split
  · split
    · exact .put fd w _
    · exact (Frame.of_quiet (.remember w _)).trans (.vacate fd _ fd)
  · exact .put fd w _

theorem Frame.flushDown (fd : Fd) (w : World) : Frame fd w (flushDown ans w fd) := by
  unfold Serving.flushDown
  split
  · dsimp only
    split
    · split
      · exact (Frame.submit fd w _ _ _).trans (.put fd _ _)
      · exact .put fd w _
    · exact .put fd w _
  · exact .refl fd w

theorem Frame.flushUp (fd : Fd) (w : World) : Frame fd w (flushUp ans w fd) := by
  unfold Serving.flushUp
  split
  · split
    · exact .refl fd w
    · dsimp only
      split
      · split
        · exact (Frame.submit fd w _ _ _).trans (.put fd _ _)
        · exact .put fd w _
      · exact .refl fd w
  · exact .refl fd w

theorem Frame.readUp (fd : Fd) (w : World) : Frame fd w (readUp ans w fd) := by
  unfold Serving.readUp
  split
  · split
    · exact .refl fd w
    · split
      · exact (Frame.submit fd w _ _ _).trans (.put fd _ _)
      · exact .refl fd w
  · exact .refl fd w

theorem Frame.readDown (fd : Fd) (w : World) : Frame fd w (readDown ans w fd) := by
  unfold Serving.readDown
  split
  · split
    · exact (Frame.submit fd w _ _ _).trans (.put fd _ _)
    · exact .refl fd w
  · exact .refl fd w

theorem Frame.settle (fd : Fd) (w : World) : Frame fd w (settle ans w fd) := by
  unfold Serving.settle
  split
  · split
    · exact ((Frame.letGo fd w _).trans (.put fd _ _)).trans (.close fd _ ans fd)
    · exact .refl fd w
  · exact .refl fd w

theorem Frame.openUpstream {addr : SocketAddr} (hslot : w.slots fd = .client c)
    (haddr : c.targets[c.attempt]? = some addr) :
    Frame fd w (openUpstream env ans w fd).1 := by
  unfold Serving.openUpstream
  simp only [hslot, haddr]
  have hheld := Frame.hold fd w
    { c with dispatchedAt := some w.clock, deadline := some (w.clock + w.config.responseTimeout) }
  obtain ⟨held, hfields⟩ := holdInflight_fields w
    { c with dispatchedAt := some w.clock, deadline := some (w.clock + w.config.responseTimeout) }
  rw [hfields]
  have htaken := hheld.trans (.pool fd _ ((holdInflight w { c with
    dispatchedAt := some w.clock
    deadline := some (w.clock + w.config.responseTimeout) }).1.pool.take addr).2)
  split
  · exact ((htaken.trans (.lease fd _ _)).trans (.putUp fd _ _ rfl)).trans (.put fd _ _)
  · split
    · exact htaken.trans (.put fd _ _)
    · rename_i up connected _
      have hput : ∀ w' : World, Frame fd w' (w'.setSlot up (.upstream fd)) :=
        fun w' => .putUp fd up w' rfl
      have hopened := ((htaken.trans (.opening fd _ up)).trans (.lease fd _ up)).trans (hput _)
      split
      · exact hopened.trans (.put fd _ _)
      · split
        · exact (hopened.trans (.lend fd _ _)).trans (.put fd _ _)
        · exact ((hopened.trans (.putUp fd up _ rfl)).trans (.sysClose fd _ up)).trans
            (.put fd _ _)

/-- A move of the exchange on one descriptor leaves every other connection, and the core around
it, alone. -/
theorem move_frame (h : Move env ans calm fd w w') : Frame fd w w' := by
  cases h with
  | put hslot hands =>
      have hquiet := hands_quiet hands
      exact (Frame.of_quiet hquiet).trans (.put fd _ _)
  | fail hslot _ status body close unsupported => exact .fail hslot status body close unsupported
  | rejected | failed => exact .of_quiet (.remember w _)
  | finish hslot => exact .finish hslot
  | handOff => exact .handOff fd w
  | preface => exact (Frame.put fd w _).trans (.handOff fd _)
  | flushDown => exact .flushDown fd w
  | flushUp => exact .flushUp fd w
  | readUp => exact .readUp fd w
  | readDown => exact .readDown fd w
  | settle => exact .settle fd w
  | @dispatched w' c c' matched framing first allowed target others hslot hands =>
      have hquiet := (hands_quiet hands).trans
        (Quiet.dispatched ans w' c' w'.routes matched framing first (target :: others) target)
      obtain ⟨_, _, _, hfields⟩ :=
        dispatched_fields ans w' c' w'.routes matched framing first (target :: others) target
      exact ((Frame.of_quiet hquiet).trans (.put fd _ _)).trans
        (.openUpstream (setClient_slot ..) (by rw [hfields]; rfl))
  | released => exact (Frame.release fd w _).trans (.put fd _ _)
  | requeued hslot hdue hheld hleft haddr huntaken =>
      exact (Frame.put fd w _).trans (.openUpstream (setClient_slot ..) haddr)
  | lost => exact (Frame.lose fd w _).trans (.put fd _ _)
  | idled => exact .close fd w ans fd
  | gone => exact .put fd w _

end Functions

end Ramjet.Engine.Worker.Frames
