/- digest: A core seen as its descriptors, and the tag of every operation in flight. -/

import Mathlib.Data.List.Count
import Ramjet.Engine.Worker.Descriptors
import Ramjet.Engine.Worker.Loop

set_option autoImplicit false
set_option relaxedAutoImplicit false

namespace Ramjet.Engine.Worker.Ownership

open Ramjet.Base.Octets
open Ramjet.Base.Net
open Ramjet.Engine.IdlePool
open Ramjet.Engine.Worker.Connection
open Ramjet.Engine.Worker.Core
open Ramjet.Engine.Worker.Descriptors

section Views

def tiesOf (c : Conn) : Ties :=
  ⟨c.phase, c.upstream, c.upBorrowed, c.reading, c.writing, c.upReading, c.upWriting, c.upReady,
    c.responseHeadSeen⟩

def roleOf : Slot → Role
  | .empty => .empty
  | .client conn => .client (tiesOf conn)
  | .upstream down => .upstream down
  | .idle addr => .idle addr
  | .abandoned => .abandoned
  | .admin conn => .admin conn.reading conn.writing

/-- Whether an operation is in flight for whoever has the descriptor now. -/
def concerns (w : World) (f : Fd) (k : Kind) (op : Op) : Bool :=
  op.fd == f && op.kind == k && op.kind != .close && op.bumps == w.bumps f

def flightOf (w : World) (f : Fd) (k : Kind) : Nat := w.ops.countP (concerns w f k)

def viewOf (w : World) : View where
  role := fun f => roleOf (w.slots f)
  opened := w.opened
  flight := flightOf w
  held := w.pool.held
  borrowed := w.borrowed
  listeners := w.intakes.map (·.fd) ++ w.admin.toList
  notify := w.notify
  draining := w.drainDeadline.isSome

end Views

/-- Every operation in flight carries the generation its descriptor had, and one that nothing has
overtaken was submitted on the descriptor as it is now. -/
structure Tagged (w : World) : Prop where
  gens : ∀ f, w.generations f = w.bumps f % GENERATIONS
  user : ∀ op ∈ w.ops, op.user = tag op.kind (op.bumps % GENERATIONS) op.fd
  bumps : ∀ op ∈ w.ops, op.bumps ≤ w.bumps op.fd
  epochs : ∀ op ∈ w.ops, op.kind ≠ .close → op.bumps = w.bumps op.fd → op.epoch = w.epochs op.fd

section Primitives

variable {w : World} {f : Fd} {ans : Answers}

theorem view_setSlot (w : World) (f : Fd) (slot : Slot) :
    viewOf (w.setSlot f slot) = (viewOf w).place f (roleOf slot) := by
  unfold viewOf World.setSlot View.place
  congr 1
  funext x
  by_cases hx : x = f
  · subst hx
    simp
  · simp [Function.update_of_ne hx]

theorem view_setClient (w : World) (f : Fd) (c : Conn) :
    viewOf (w.setClient f c) = (viewOf w).place f (.client (tiesOf c)) :=
  view_setSlot w f (.client c)

theorem flight_submit (w : World) (k k' : Kind) (f f' : Fd) (payload : Bytes) :
    flightOf (w.submit k f payload) f' k' =
      flightOf w f' k' + if f' = f ∧ k' = k ∧ k ≠ .close then 1 else 0 := by
  unfold flightOf World.submit
  rw [List.countP_append]
  congr 1
  by_cases hf : f' = f
  · subst hf
    by_cases hk : k' = k
    · subst hk
      by_cases hc : k' = .close <;> simp [concerns, hc]
    · have hk' : (k == k') = false := by simpa using Ne.symm hk
      simp [concerns, hk, hk']
  · have hf' : (f == f') = false := by simpa using Ne.symm hf
    simp [concerns, hf, hf']

theorem view_submit (w : World) {k : Kind} (hk : k ≠ .close) (f : Fd) (payload : Bytes) :
    viewOf (w.submit k f payload) =
      (viewOf w).stir f fun k' => flightOf w f k' + if k' = k then 1 else 0 := by
  unfold View.stir
  have hflight : flightOf (w.submit k f payload) =
      Function.update (flightOf w) f fun k' => flightOf w f k' + if k' = k then 1 else 0 := by
    funext x k'
    rw [flight_submit]
    by_cases hx : x = f
    · subst hx
      simp [hk]
    · simp [hx]
  show View.mk _ _ (flightOf (w.submit k f payload)) _ _ _ _ _ = _
  rw [hflight]
  rfl

/-- A generation bumped leaves nothing in flight for its descriptor. -/
theorem flight_bump (h : Tagged w) (f f' : Fd) (k : Kind) :
    flightOf (w.bumpGeneration f) f' k = if f' = f then 0 else flightOf w f' k := by
  unfold flightOf
  by_cases hf : f' = f
  · subst hf
    rw [if_pos rfl, List.countP_eq_zero]
    intro op hop
    have hle := h.bumps op hop
    by_cases hfd : op.fd = f'
    · subst hfd
      simp only [concerns, World.bumpGeneration, Function.update_self, Bool.and_eq_true, beq_iff_eq,
        not_and]
      omega
    · simp [concerns, hfd]
  · rw [if_neg hf]
    apply List.countP_congr
    intro op _
    simp [concerns, World.bumpGeneration, Function.update_of_ne hf]

theorem tagged_bump (h : Tagged w) (f : Fd) : Tagged (w.bumpGeneration f) := by
  refine ⟨?gens, h.user, ?bumps, ?epochs⟩
  case gens =>
    intro x
    by_cases hx : x = f
    · subst hx
      simp only [World.bumpGeneration, Function.update_self]
      rw [h.gens x]
      unfold GENERATIONS
      omega
    · simp only [World.bumpGeneration, Function.update_of_ne hx]
      exact h.gens x
  case bumps =>
    intro op hop
    have hle := h.bumps op hop
    by_cases hx : op.fd = f
    · subst hx
      simp only [World.bumpGeneration, Function.update_self]
      omega
    · simp only [World.bumpGeneration, Function.update_of_ne hx]
      exact hle
  case epochs =>
    intro op hop hk hb
    have hle := h.bumps op hop
    by_cases hx : op.fd = f
    · subst hx
      simp only [World.bumpGeneration, Function.update_self] at hb
      omega
    · simp only [World.bumpGeneration, Function.update_of_ne hx] at hb
      exact h.epochs op hop hk hb

theorem tagged_submit (h : Tagged w) (k : Kind) (f : Fd) (payload : Bytes) :
    Tagged (w.submit k f payload) := by
  refine ⟨h.gens, ?user, ?bumps, ?epochs⟩
  case user =>
    intro op hop
    rcases List.mem_append.mp hop with hop | hop
    · exact h.user op hop
    · rw [List.mem_singleton.mp hop, h.gens f]
  case bumps =>
    intro op hop
    rcases List.mem_append.mp hop with hop | hop
    · exact h.bumps op hop
    · rw [List.mem_singleton.mp hop]
      exact Nat.le_refl _
  case epochs =>
    intro op hop hk hb
    rcases List.mem_append.mp hop with hop | hop
    · exact h.epochs op hop hk hb
    · rw [List.mem_singleton.mp hop]
      rfl

/-- The kernel hands out a number on which nothing is in flight. -/
theorem tagged_opening (h : Tagged w) (hf : ∀ k, flightOf w f k = 0) : Tagged (w.opening f) := by
  refine ⟨h.gens, h.user, h.bumps, ?_⟩
  intro op hop hk hb
  by_cases hx : op.fd = f
  · have hzero := List.countP_eq_zero.mp (hf op.kind) op hop
    simp only [concerns, hx, beq_self_eq_true, Bool.true_and] at hzero
    have hb' : op.bumps = w.bumps f := by
      rw [← hx]
      exact hb
    simp [hk, hb'] at hzero
  · have hep := h.epochs op hop hk hb
    simp only [World.opening, Function.update_of_ne hx]
    exact hep

/-- The operations in flight without one of them. -/
theorem flight_retire {op : Op} (hop : op ∈ w.ops) (outcome : Outcome) (f' : Fd) (k : Kind) :
    flightOf (w.retire op outcome) f' k = flightOf w f' k - if concerns w f' k op then 1 else 0 := by
  unfold flightOf
  show (w.ops.erase op).countP (concerns w f' k) = _
  rw [List.countP_erase]
  simp [hop]

theorem tagged_retire (h : Tagged w) (op : Op) (outcome : Outcome) :
    Tagged (w.retire op outcome) := by
  have hsub : ∀ x ∈ (w.retire op outcome).ops, x ∈ w.ops := fun x hx => List.mem_of_mem_erase hx
  exact ⟨h.gens, fun x hx => h.user x (hsub x hx), fun x hx => h.bumps x (hsub x hx),
    fun x hx => h.epochs x (hsub x hx)⟩

/-- The view of a core is its slots, its kernel, its flights and its books. -/
theorem view_eq {w w' : World} (hslots : ∀ x, roleOf (w'.slots x) = roleOf (w.slots x))
    (hopened : w'.opened = w.opened) (hflight : flightOf w' = flightOf w)
    (hheld : w'.pool.held = w.pool.held) (hborrowed : w'.borrowed = w.borrowed)
    (hintakes : w'.intakes = w.intakes) (hadmin : w'.admin = w.admin)
    (hnotify : w'.notify = w.notify) (hdraining : w'.drainDeadline = w.drainDeadline) :
    viewOf w' = viewOf w := by
  unfold viewOf
  rw [hopened, hflight, hheld, hborrowed, hintakes, hadmin, hnotify, hdraining,
    funext hslots]

/-- A slot emptied and its generation bumped: nothing is left in flight. -/
theorem view_vacate (h : Tagged w) (f : Fd) :
    viewOf (w.vacate f) = ((viewOf w).place f .empty).shut f := by
  have hflight : flightOf (w.vacate f) = Function.update (flightOf w) f fun _ => 0 := by
    funext x k
    show flightOf (w.bumpGeneration f) x k = _
    rw [flight_bump h]
    by_cases hx : x = f
    · subst hx
      simp
    · simp [hx]
  have hrole : ∀ x, roleOf ((w.vacate f).slots x) = Function.update (viewOf w).role f .empty x :=
    congrFun (congrArg View.role (view_setSlot w f .empty))
  unfold viewOf View.shut
  rw [hflight, funext hrole]
  rfl

theorem tagged_vacate (h : Tagged w) (f : Fd) : Tagged (w.vacate f) := by
  have hb := tagged_bump h f
  exact ⟨hb.gens, hb.user, hb.bumps, hb.epochs⟩

theorem tagged_countOff (h : Tagged w) (f : Fd) : Tagged (w.countOff f) := by
  unfold World.countOff
  split
  · exact ⟨h.gens, h.user, h.bumps, h.epochs⟩
  · exact h

theorem view_countOff (w : World) (f : Fd) : viewOf (w.countOff f) = viewOf w := by
  unfold World.countOff
  split <;> rfl

/-- A descriptor closed leaves its slot empty and nothing in flight. -/
theorem view_close (h : Tagged w) (ans : Answers) (f : Fd) :
    viewOf (w.close ans f) = ((viewOf w).place f .empty).shut f := by
  have hclosed := view_vacate (tagged_countOff h f) f
  rw [view_countOff] at hclosed
  rw [← hclosed]
  unfold World.close
  dsimp only
  split
  · apply view_eq <;> try first | rfl | exact fun _ => rfl
    funext x k
    rw [flight_submit]
    simp
  · rfl

theorem tagged_close (h : Tagged w) (ans : Answers) (f : Fd) : Tagged (w.close ans f) := by
  have hclosed := tagged_vacate (tagged_countOff h f) f
  unfold World.close
  dsimp only
  split
  · exact tagged_submit hclosed .close f []
  · exact hclosed

theorem view_retire {op : Op} (hop : op ∈ w.ops) (outcome : Outcome) :
    viewOf (w.retire op outcome) = (viewOf w).stir op.fd fun k =>
      flightOf w op.fd k - if concerns w op.fd k op then 1 else 0 := by
  have hflight : flightOf (w.retire op outcome) = Function.update (flightOf w) op.fd fun k =>
      flightOf w op.fd k - if concerns w op.fd k op then 1 else 0 := by
    funext x k
    rw [flight_retire hop]
    by_cases hx : x = op.fd
    · subst hx
      simp
    · have hne : (op.fd == x) = false := by simpa using Ne.symm hx
      simp [Function.update_of_ne hx, concerns, hne]
  unfold viewOf View.stir
  rw [hflight]
  rfl

/-- An operation that concerns its descriptor is counted in its flight. -/
theorem flight_of_mem {op : Op} (hop : op ∈ w.ops) (hk : op.kind ≠ .close)
    (hb : op.bumps = w.bumps op.fd) : flightOf w op.fd op.kind ≠ 0 := by
  apply Nat.pos_iff_ne_zero.mp
  apply List.countP_pos_iff.mpr
  exact ⟨op, hop, by simp [concerns, hk, hb]⟩

end Primitives

end Ramjet.Engine.Worker.Ownership
