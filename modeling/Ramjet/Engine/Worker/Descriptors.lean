/- digest: Who owns each descriptor number of a core, and what an owner may have in flight. -/

import Mathlib.Data.List.Nodup
import Ramjet.Engine.Worker.Core

set_option autoImplicit false
set_option relaxedAutoImplicit false

namespace Ramjet.Engine.Worker.Descriptors

open Ramjet.Base.Net
open Ramjet.Engine.IdlePool
open Ramjet.Engine.Worker.Connection
open Ramjet.Engine.Worker.Core

/-- What ties a client connection to its upstream, and the operations both have in flight. -/
structure Ties where
  phase : Phase
  upstream : Option Fd
  upBorrowed : Bool
  reading : Bool
  writing : Bool
  upReading : Bool
  upWriting : Bool
  upReady : Bool
  headSeen : Bool

/-- What a slot says of its descriptor. -/
inductive Role where
  | empty
  | client (t : Ties)
  | upstream (down : Fd)
  | idle (addr : SocketAddr)
  | abandoned
  | admin (reading writing : Bool)

/-- A slot that holds no connection of its own. -/
def Role.plain : Role → Prop
  | .client _ | .admin _ _ => False
  | _ => True

/-- Whom a descriptor number belongs to. -/
inductive Owner where
  | nobody
  | fixture
  | client
  | admin
  | upstream (down : Fd)
  | idle (addr : SocketAddr)
  | borrowed
  | lost

/-- The descriptors of a core: slots, the kernel's side, the pool, the helper and what is in
flight. -/
structure View where
  role : Fd → Role
  opened : Fd → Bool
  flight : Fd → Kind → Nat
  held : List (SocketAddr × Fd)
  borrowed : List Fd
  listeners : List Fd
  notify : Fd
  draining : Bool

section Expected

/-- One where a flag is set for the kind asked about. -/
def Ties.down (t : Ties) : Kind → Nat
  | .downRead => t.reading.toNat
  | .downWrite => t.writing.toNat
  | _ => 0

def Ties.up (t : Ties) : Kind → Nat
  | .upRead => t.upReading.toNat
  | .upWrite => t.upWriting.toNat
  | _ => 0

def adminFlight (reading writing : Bool) : Kind → Nat
  | .adminRead => reading.toNat
  | .adminWrite => writing.toNat
  | _ => 0

/-- The read that watches an idle connection. -/
def parked : Kind → Nat
  | .upRead => 1
  | _ => 0

/-- What is in flight is what is expected, or less of it where a tunnel was cut off by a drain. -/
def Near (strict : Bool) (flight expected : Kind → Nat) : Prop :=
  ∀ k, flight k ≤ expected k ∧ (strict = true → flight k = expected k)

def Kind.ofListener : Kind → Prop
  | .accept | .acceptTls | .adminAccept | .intake | .intakeTls => True
  | _ => False

end Expected

/-- The phases of a connection against the state of its upstream. -/
structure Shape (t : Ties) : Prop where
  head : t.phase = .head → t.upstream = none ∧ t.upBorrowed = false ∧ t.upWriting = false ∧
    t.upReady = false ∧ t.headSeen = false
  early : t.phase = .connecting ∨ t.phase = .exchanging → t.headSeen = false
  late : t.phase = .relaying ∨ t.phase = .tunnel → t.headSeen = true
  borrowed : t.upBorrowed = true → t.upReady = false ∧ t.upReading = false ∧
    t.upWriting = false ∧ t.headSeen = false ∧ (t.phase = .connecting ∨ t.phase = .closing)
  exchanging : t.phase = .exchanging → t.upReady = false → t.upstream = none ∧ t.upWriting = false

/-- One descriptor is as its owner has it. In a core whose drain cut off a tunnel, its slot may
say less than that. -/
def Fits (strict : Bool) (v : View) (f : Fd) : Owner → Prop
  | .nobody => v.opened f = false ∧ (∀ k, v.flight f k = 0) ∧ (v.role f).plain ∧
      (strict = true → v.role f = .empty)
  | .fixture => v.opened f = true ∧
      (∀ k, v.flight f k ≠ 0 → (k = .notify ∧ f = v.notify) ∨ (Kind.ofListener k ∧ f ∈ v.listeners)) ∧
      (v.role f).plain ∧ (strict = true → v.role f = .empty)
  | .client => v.opened f = true ∧ ∃ t, v.role f = .client t ∧ ∀ k, v.flight f k = t.down k
  | .admin => v.opened f = true ∧ ∃ r w, v.role f = .admin r w ∧
      ∀ k, v.flight f k = adminFlight r w k
  | .upstream d => v.opened f = true ∧ (v.role f).plain ∧ (strict = true → v.role f = .upstream d) ∧
      ∃ t, v.role d = .client t ∧ t.upstream = some f ∧ t.upBorrowed = false ∧
        Near strict (v.flight f) t.up
  | .idle a => v.opened f = true ∧ (v.role f).plain ∧ (strict = true → v.role f = .idle a) ∧
      (a, f) ∈ v.held ∧ Near strict (v.flight f) parked
  | .borrowed => v.opened f = true ∧ (v.role f).plain ∧ (∀ k, v.flight f k = 0) ∧ f ∈ v.borrowed ∧
      (strict = true → v.role f = .abandoned ∨ ∃ d t, v.role f = .upstream d ∧ v.role d = .client t ∧
        t.upstream = some f ∧ t.upBorrowed = true)
  | .lost => strict = false ∧ v.opened f = true ∧ (v.role f).plain ∧
      ∀ k, v.flight f k ≠ 0 → k = .upRead ∨ k = .upWrite

/-- Every descriptor has one owner and is as that owner has it. -/
structure Owned (strict : Bool) (v : View) (own : Fd → Owner) : Prop where
  fits : ∀ f, Fits strict v f (own f)
  listeners : ∀ f ∈ v.listeners, own f = .fixture
  notify : own v.notify = .fixture
  held : ∀ e ∈ v.held, own e.2 = .idle e.1
  heldNodup : (v.held.map (·.2)).Nodup
  borrowed : ∀ f ∈ v.borrowed, own f = .borrowed
  borrowedNodup : v.borrowed.Nodup
  attached : ∀ d t u, v.role d = .client t → t.upstream = some u → t.upBorrowed = false →
    own u = .upstream d
  awaiting : ∀ d t u, v.role d = .client t → t.upstream = some u → t.upBorrowed = true →
    own u ≠ .client ∧ own u ≠ .admin ∧ own u ≠ .fixture ∧
      (strict = true → own u = .borrowed ∧ v.role u = .upstream d)
  named : ∀ u d, v.role u = .upstream d → own d ≠ .admin ∧ own d ≠ .fixture ∧
    (strict = true → ∃ t, v.role d = .client t) ∧
    ∀ t, v.role d = .client t → t.upstream = some u ∧ (t.upBorrowed = true → own u = .borrowed)
  shaped : ∀ d t, v.role d = .client t → Shape t
  pooled : ∀ u a, v.role u = .idle a → own u = .idle a
  draining : strict = false → v.draining = true
  drained : v.draining = true → v.listeners = []

section Views

/-- A slot is given a new content. -/
def View.place (v : View) (f : Fd) (r : Role) : View :=
  { v with role := Function.update v.role f r }

/-- A descriptor is closed: what was in flight on it no longer concerns anybody. -/
def View.shut (v : View) (f : Fd) : View :=
  { v with
    opened := Function.update v.opened f false
    flight := Function.update v.flight f fun _ => 0 }

def View.open_ (v : View) (f : Fd) : View := { v with opened := Function.update v.opened f true }

/-- What is in flight on a descriptor changes. -/
def View.stir (v : View) (f : Fd) (flight : Kind → Nat) : View :=
  { v with flight := Function.update v.flight f flight }

end Views

variable {s : Bool} {v : View} {own : Fd → Owner} {f u : Fd} {t t' : Ties}

section Owners

theorem Owned.client_owner (h : Owned s v own) (hf : v.role f = .client t) : own f = .client := by
  have hfits := h.fits f
  cases ho : own f <;> rw [ho] at hfits <;> simp_all [Fits, Role.plain]

theorem Owned.admin_owner (h : Owned s v own) {r w : Bool} (hf : v.role f = .admin r w) :
    own f = .admin := by
  have hfits := h.fits f
  cases ho : own f <;> rw [ho] at hfits <;> simp_all [Fits, Role.plain]

theorem Owned.not_client (h : Owned s v own) (hu : own u ≠ .client) (t : Ties) :
    v.role u ≠ .client t := fun e => hu (h.client_owner e)

theorem Owned.plain_role (h : Owned s v own) (hc : own u ≠ .client) (ha : own u ≠ .admin) :
    (v.role u).plain := by
  cases hr : v.role u with
  | client t => exact absurd (h.client_owner hr) hc
  | admin r w => exact absurd (h.admin_owner hr) ha
  | empty | upstream d | idle a | abandoned => trivial

theorem Owned.nobody_owner (h : Owned s v own) (hf : v.opened f = false) : own f = .nobody := by
  have hfits := h.fits f
  cases ho : own f <;> rw [ho] at hfits <;> simp_all [Fits]

/-- The kinds of operation an owner may have in flight. -/
def Owner.carries : Owner → Kind → Prop
  | .nobody, _ | .borrowed, _ => False
  | .fixture, k => k = .notify ∨ Kind.ofListener k
  | .client, k => k = .downRead ∨ k = .downWrite
  | .admin, k => k = .adminRead ∨ k = .adminWrite
  | .upstream _, k | .idle _, k | .lost, k => k = .upRead ∨ k = .upWrite

theorem carries_down {k : Kind} (h : t.down k ≠ 0) : k = .downRead ∨ k = .downWrite := by
  cases k <;> simp_all [Ties.down]

theorem carries_up {k : Kind} (h : t.up k ≠ 0) : k = .upRead ∨ k = .upWrite := by
  cases k <;> simp_all [Ties.up]

theorem carries_admin {r w : Bool} {k : Kind} (h : adminFlight r w k ≠ 0) :
    k = .adminRead ∨ k = .adminWrite := by
  cases k <;> simp_all [adminFlight]

theorem carries_parked {k : Kind} (h : parked k ≠ 0) : k = .upRead ∨ k = .upWrite := by
  cases k <;> simp_all [parked]

/-- Nothing is in flight on a descriptor but what its owner may have there. -/
theorem Owned.carries (h : Owned s v own) {k : Kind} (hf : v.flight f k ≠ 0) :
    (own f).carries k := by
  have hfits := h.fits f
  cases ho : own f with
  | nobody => exact absurd ((ho ▸ hfits).2.1 k) hf
  | borrowed => exact absurd ((ho ▸ hfits).2.2.1 k) hf
  | fixture => exact ((ho ▸ hfits).2.1 k hf).imp And.left And.left
  | client =>
      obtain ⟨-, t, -, hall⟩ := ho ▸ hfits
      exact carries_down (hall k ▸ hf)
  | admin =>
      obtain ⟨-, r, w, -, hall⟩ := ho ▸ hfits
      exact carries_admin (hall k ▸ hf)
  | upstream d =>
      obtain ⟨-, -, -, t, -, -, -, hnear⟩ := ho ▸ hfits
      have hle := (hnear k).1
      exact carries_up (t := t) (by omega)
  | idle a =>
      have hle := ((ho ▸ hfits).2.2.2.2 k).1
      exact carries_parked (by omega)
  | lost => exact (ho ▸ hfits).2.2.2 k hf

/-- What is in flight towards an upstream is in flight for an exchange, for the pool, or for
nobody any more. -/
theorem Owned.up_owner (h : Owned s v own) {k : Kind} (hk : k = .upRead ∨ k = .upWrite)
    (hf : v.flight f k ≠ 0) :
    (∃ d, own f = .upstream d) ∨ (∃ a, own f = .idle a) ∨ own f = .lost := by
  have hcarries := h.carries hf
  cases ho : own f <;> rw [ho] at hcarries <;>
    rcases hk with rfl | rfl <;> simp_all [Owner.carries, Kind.ofListener]

/-- What is in flight for a client is in flight on its own descriptor. -/
theorem Owned.down_owner (h : Owned s v own) {k : Kind} (hk : k = .downRead ∨ k = .downWrite)
    (hf : v.flight f k ≠ 0) : own f = .client := by
  have hcarries := h.carries hf
  cases ho : own f <;> rw [ho] at hcarries <;>
    rcases hk with rfl | rfl <;> simp_all [Owner.carries, Kind.ofListener]

theorem Owned.admin_flight_owner (h : Owned s v own) {k : Kind}
    (hk : k = .adminRead ∨ k = .adminWrite) (hf : v.flight f k ≠ 0) : own f = .admin := by
  have hcarries := h.carries hf
  cases ho : own f <;> rw [ho] at hcarries <;>
    rcases hk with rfl | rfl <;> simp_all [Owner.carries, Kind.ofListener]

section Updates

variable {o o' : Owner}

/-- A change of one owner leaves whole lists of other owners alone. -/
theorem all_update {fds : List Fd} (h : ∀ f ∈ fds, own f = o) (hu : own u ≠ o) :
    ∀ f ∈ fds, Function.update own u o' f = o := by
  intro f hf
  have hne : f ≠ u := by
    rintro rfl
    exact hu (h f hf)
  rw [Function.update_of_ne hne]
  exact h f hf

theorem one_update (h : own f = o) (hu : own u ≠ o) : Function.update own u o' f = o :=
  by
  apply all_update (o := o) (fun x hx => ?_) hu f (List.mem_singleton.mpr rfl)
  rw [List.mem_singleton.mp hx]
  exact h

theorem held_update {held : List (SocketAddr × Fd)} (h : ∀ e ∈ held, own e.2 = .idle e.1)
    (hu : ∀ a, own u ≠ .idle a) : ∀ e ∈ held, Function.update own u o' e.2 = .idle e.1 := by
  intro e he
  exact one_update (h e he) (hu e.1)

end Updates

/-- A descriptor that no change touches fits its owner as before. -/
theorem Fits.untouched {v' : View} {x : Fd} {o : Owner} (h : Fits s v x o)
    (hrole : v'.role x = v.role x) (hopened : v'.opened x = v.opened x)
    (hflight : v'.flight x = v.flight x)
    (hheld : ∀ a, (a, x) ∈ v.held → (a, x) ∈ v'.held)
    (hborrowed : x ∈ v.borrowed → x ∈ v'.borrowed)
    (hlisteners : x ∈ v.listeners → x ∈ v'.listeners) (hnotify : v'.notify = v.notify)
    (hties : ∀ d t, v.role d = .client t → t.upstream = some x →
      ∃ t', v'.role d = .client t' ∧ t'.upstream = some x ∧ t'.upBorrowed = t.upBorrowed ∧
        ∀ k, t'.up k = t.up k) : Fits s v' x o := by
  cases o with
  | upstream d =>
      obtain ⟨hopen, hplain, hslot, t, hd, hup, hb, hnear⟩ := h
      obtain ⟨t', hd', hup', hb', hk⟩ := hties d t hd hup
      refine ⟨hopened ▸ hopen, hrole ▸ hplain, hrole ▸ hslot, t', hd', hup', hb'.trans hb, ?_⟩
      rw [hflight]
      intro k
      rw [hk k]
      exact hnear k
  | borrowed =>
      obtain ⟨hopen, hplain, hquiet, hmem, hslot⟩ := h
      refine ⟨hopened ▸ hopen, hrole ▸ hplain, hflight ▸ hquiet, hborrowed hmem, ?_⟩
      rw [hrole]
      intro hs
      rcases hslot hs with ha | ⟨d, t, hx, hd, hup, hb⟩
      · exact Or.inl ha
      · obtain ⟨t', hd', hup', hb', -⟩ := hties d t hd hup
        exact Or.inr ⟨d, t', hx, hd', hup', hb'.trans hb⟩
  | idle a =>
      obtain ⟨hopen, hplain, hslot, hmem, hnear⟩ := h
      exact ⟨hopened ▸ hopen, hrole ▸ hplain, hrole ▸ hslot, hheld a hmem, hflight ▸ hnear⟩
  | fixture =>
      obtain ⟨hopen, hkinds, hplain, hslot⟩ := h
      refine ⟨hopened ▸ hopen, ?_, hrole ▸ hplain, hrole ▸ hslot⟩
      rw [hflight, hnotify]
      intro k hk
      exact (hkinds k hk).imp_right fun hl => ⟨hl.1, hlisteners hl.2⟩
  | nobody | client | admin | lost =>
      simp only [Fits, hrole, hopened, hflight] at h ⊢
      exact h

end Owners

section Clients

/-- The connection of a slot changes, but not its upstream. -/
theorem Owned.retie (h : Owned s v own) (hf : v.role f = .client t)
    (hup : t'.upstream = t.upstream) (hb : t'.upBorrowed = t.upBorrowed)
    (hupk : t.upstream ≠ none → ∀ k, t'.up k = t.up k) (hs : Shape t') {flight : Kind → Nat}
    (hflight : ∀ k, flight k = t'.down k) :
    Owned s ((v.stir f flight).place f (.client t')) own := by
  have hof := h.client_owner hf
  refine ⟨?fits, h.listeners, h.notify, h.held, h.heldNodup, h.borrowed, h.borrowedNodup,
    ?attached, ?awaiting, ?named, ?shaped, ?pooled, h.draining, h.drained⟩
  case fits =>
    intro x
    have hfits := h.fits x
    by_cases hx : x = f
    · subst hx
      rw [hof] at hfits ⊢
      simp only [Fits, View.place, View.stir, Function.update_self] at hfits ⊢
      exact ⟨hfits.1, t', rfl, hflight⟩
    · apply hfits.untouched <;> simp only [View.place, View.stir, Function.update_of_ne hx]
      · exact fun _ hm => hm
      · exact id
      · exact id
      · grind [Function.update_apply]
  all_goals simp only [View.place, View.stir]
  case attached =>
    have hold := h.attached
    grind [Function.update_apply]
  case awaiting =>
    have hold := h.awaiting
    grind [Function.update_apply]
  case named =>
    have hold := h.named
    grind [Function.update_apply]
  case shaped =>
    have hold := h.shaped
    grind [Function.update_apply]
  case pooled =>
    have hold := h.pooled
    grind [Function.update_apply]

/-- The operations of an exchange on its upstream change. -/
theorem Owned.stirUp (h : Owned s v own) (hf : v.role f = .client t) (hu : t.upstream = some u)
    (hb : t.upBorrowed = false) (hup : t'.upstream = some u) (hb' : t'.upBorrowed = false)
    (hdown : ∀ k, t'.down k = t.down k) (hs : Shape t') {flight : Kind → Nat}
    (hflight : Near s flight t'.up) :
    Owned s ((v.stir u flight).place f (.client t')) own := by
  have hof := h.client_owner hf
  have hou := h.attached f t u hf hu hb
  have hne : u ≠ f := by
    intro e
    rw [e, hof] at hou
    cases hou
  refine ⟨?fits, h.listeners, h.notify, h.held, h.heldNodup, h.borrowed, h.borrowedNodup,
    ?attached, ?awaiting, ?named, ?shaped, ?pooled, h.draining, h.drained⟩
  case fits =>
    intro x
    have hfits := h.fits x
    by_cases hx : x = f
    · subst hx
      rw [hof] at hfits ⊢
      simp only [Fits, View.place, View.stir, Function.update_self,
        Function.update_of_ne hne.symm] at hfits ⊢
      grind
    · by_cases hxu : x = u
      · subst hxu
        rw [hou] at hfits ⊢
        simp only [Fits, View.place, View.stir, Function.update_self, Function.update_of_ne hx]
          at hfits ⊢
        exact ⟨hfits.1, hfits.2.1, hfits.2.2.1, t', rfl, hup, hb', hflight⟩
      · apply hfits.untouched <;>
          simp only [View.place, View.stir, Function.update_of_ne hx, Function.update_of_ne hxu]
        · exact fun _ hm => hm
        · exact id
        · exact id
        · grind [Function.update_apply]
  all_goals simp only [View.place, View.stir]
  case attached =>
    have hold := h.attached
    grind [Function.update_apply]
  case awaiting =>
    have hold := h.awaiting
    grind [Function.update_apply]
  case named =>
    have hold := h.named
    grind [Function.update_apply]
  case shaped =>
    have hold := h.shaped
    grind [Function.update_apply]
  case pooled =>
    have hold := h.pooled
    grind [Function.update_apply]

/-- A connection closes the upstream it holds. -/
theorem Owned.sever (h : Owned s v own) (hf : v.role f = .client t) (hu : t.upstream = some u)
    (hb : t.upBorrowed = false) (hup : t'.upstream = none) (hdown : ∀ k, t'.down k = t.down k)
    (hs : Shape t') :
    Owned s (((v.place u .empty).shut u).place f (.client t')) (Function.update own u .nobody) := by
  have hof := h.client_owner hf
  have hou := h.attached f t u hf hu hb
  have hne : u ≠ f := by
    intro e
    rw [e, hof] at hou
    cases hou
  have hnc := h.not_client (u := u) (by simp [hou])
  refine ⟨?fits, all_update h.listeners (by simp [hou]), one_update h.notify (by simp [hou]),
    held_update h.held (by simp [hou]), h.heldNodup, all_update h.borrowed (by simp [hou]),
    h.borrowedNodup, ?attached, ?awaiting, ?named, ?shaped, ?pooled, h.draining, h.drained⟩
  case fits =>
    intro x
    have hfits := h.fits x
    by_cases hxu : x = u
    · subst hxu
      simp [Fits, View.place, View.shut, Function.update_of_ne hne, Role.plain]
    · rw [Function.update_of_ne hxu]
      by_cases hx : x = f
      · subst hx
        rw [hof] at hfits ⊢
        simp only [Fits, View.place, View.shut, Function.update_self,
          Function.update_of_ne hne.symm] at hfits ⊢
        grind
      · apply hfits.untouched <;>
          simp only [View.place, View.shut, Function.update_of_ne hx, Function.update_of_ne hxu]
        · exact fun _ hm => hm
        · exact id
        · exact id
        · grind [Function.update_apply]
  all_goals simp only [View.place, View.shut]
  case attached =>
    have hold := h.attached
    grind [Function.update_apply]
  case awaiting =>
    have hold := h.awaiting
    grind [Function.update_apply]
  case named =>
    have hold := h.named
    grind [Function.update_apply]
  case shaped =>
    have hold := h.shaped
    grind [Function.update_apply]
  case pooled =>
    have hold := h.pooled
    grind [Function.update_apply]

/-- A connection leaves the upstream it is waiting for to the helper. -/
theorem Owned.abandon (h : Owned s v own) (hf : v.role f = .client t) (hu : t.upstream = some u)
    (hb : t.upBorrowed = true) (hup : t'.upstream = none) (hdown : ∀ k, t'.down k = t.down k)
    (hs : Shape t') :
    Owned s ((v.place u .abandoned).place f (.client t')) own := by
  have hof := h.client_owner hf
  obtain ⟨hc, ha, hfix, hstrict⟩ := h.awaiting f t u hf hu hb
  have hne : u ≠ f := by
    rintro rfl
    exact hc hof
  have hnc := h.not_client hc
  refine ⟨?fits, h.listeners, h.notify, h.held, h.heldNodup, h.borrowed, h.borrowedNodup,
    ?attached, ?awaiting, ?named, ?shaped, ?pooled, h.draining, h.drained⟩
  case fits =>
    intro x
    have hfits := h.fits x
    by_cases hx : x = f
    · subst hx
      rw [hof] at hfits ⊢
      simp only [Fits, View.place, Function.update_self] at hfits ⊢
      grind
    · by_cases hxu : x = u
      · subst hxu
        cases hox : own x <;> rw [hox] at hfits <;>
          simp only [Fits, View.place, Function.update_self, Function.update_of_ne hx, Role.plain,
            hox] at hfits hstrict hc ha hfix ⊢ <;>
          grind [Function.update_apply]
      · apply hfits.untouched <;>
          simp only [View.place, Function.update_of_ne hx, Function.update_of_ne hxu]
        · exact fun _ hm => hm
        · exact id
        · exact id
        · grind [Function.update_apply]
  all_goals simp only [View.place]
  case attached =>
    have hold := h.attached
    grind [Function.update_apply]
  case awaiting =>
    have hold := h.awaiting
    grind [Function.update_apply]
  case named =>
    have hold := h.named
    grind [Function.update_apply]
  case shaped =>
    have hold := h.shaped
    grind [Function.update_apply]
  case pooled =>
    have hold := h.pooled
    grind [Function.update_apply]

/-- A connection whose upstream is gone, if it had one, leaves its slot. -/
theorem Owned.quit (h : Owned s v own) (hf : v.role f = .client t) (hu : t.upstream = none) :
    Owned s ((v.place f .empty).shut f) (Function.update own f .nobody) := by
  have hof := h.client_owner hf
  refine ⟨?fits, all_update h.listeners (by simp [hof]), one_update h.notify (by simp [hof]),
    held_update h.held (by simp [hof]), h.heldNodup, all_update h.borrowed (by simp [hof]),
    h.borrowedNodup, ?attached, ?awaiting, ?named, ?shaped, ?pooled, h.draining, h.drained⟩
  case fits =>
    intro x
    have hfits := h.fits x
    by_cases hx : x = f
    · subst hx
      simp [Fits, View.place, View.shut, Role.plain]
    · rw [Function.update_of_ne hx]
      apply hfits.untouched <;> simp only [View.place, View.shut, Function.update_of_ne hx]
      · exact fun _ hm => hm
      · exact id
      · exact id
      · grind [Function.update_apply]
  all_goals simp only [View.place, View.shut]
  case attached =>
    have hold := h.attached
    grind [Function.update_apply]
  case awaiting =>
    have hold := h.awaiting
    grind [Function.update_apply]
  case named =>
    have hold := h.named
    grind [Function.update_apply]
  case shaped =>
    have hold := h.shaped
    grind [Function.update_apply]
  case pooled =>
    have hold := h.pooled
    grind [Function.update_apply]

/-- A tunnel cut off by a drain leaves its upstream to nobody. -/
theorem Owned.cut (h : Owned false v own) (hf : v.role f = .client t) (hu : t.upstream = some u)
    (hb : t.upBorrowed = false) :
    Owned false ((v.place f .empty).shut f)
      (Function.update (Function.update own u .lost) f .nobody) := by
  have hof := h.client_owner hf
  have hou := h.attached f t u hf hu hb
  have hne : u ≠ f := by
    intro e
    rw [e, hof] at hou
    cases hou
  have hofu : Function.update own u .lost f = .client := by
    rw [Function.update_of_ne hne.symm, hof]
  refine ⟨?fits, all_update (all_update h.listeners (by simp [hou])) (by simp [hofu]),
    one_update (one_update h.notify (by simp [hou])) (by simp [hofu]),
    held_update (held_update h.held (by simp [hou])) (by simp [hofu]), h.heldNodup,
    all_update (all_update h.borrowed (by simp [hou])) (by simp [hofu]),
    h.borrowedNodup, ?attached, ?awaiting, ?named, ?shaped, ?pooled, h.draining, h.drained⟩
  case fits =>
    intro x
    have hfits := h.fits x
    by_cases hx : x = f
    · subst hx
      simp [Fits, View.place, View.shut, Role.plain]
    · rw [Function.update_of_ne hx]
      by_cases hxu : x = u
      · subst hxu
        rw [hou] at hfits
        rw [Function.update_self]
        obtain ⟨hopen, hplain, -, t1, hf1, -, -, hnear⟩ := hfits
        refine ⟨rfl, ?_, ?_, ?_⟩ <;> simp only [View.place, View.shut, Function.update_of_ne hx]
        · exact hopen
        · exact hplain
        · intro k hk
          have hle := (hnear k).1
          exact carries_up (t := t1) (by omega)
      · rw [Function.update_of_ne hxu]
        apply hfits.untouched <;> simp only [View.place, View.shut, Function.update_of_ne hx]
        · exact fun _ hm => hm
        · exact id
        · exact id
        · grind [Function.update_apply]
  all_goals simp only [View.place, View.shut]
  case attached =>
    have hold := h.attached
    grind [Function.update_apply]
  case awaiting =>
    have hold := h.awaiting
    grind [Function.update_apply]
  case named =>
    have hold := h.named
    grind [Function.update_apply]
  case shaped =>
    have hold := h.shaped
    grind [Function.update_apply]
  case pooled =>
    have hold := h.pooled
    grind [Function.update_apply]

/-- A connection just accepted takes its slot. -/
theorem Owned.begin (h : Owned s v own) (hd : v.draining = false) (hf : v.opened f = false)
    (hup : t.upstream = none) (hdown : ∀ k, t.down k = 0) (hs : Shape t) :
    Owned s ((v.open_ f).place f (.client t)) (Function.update own f .client) := by
  have hof := h.nobody_owner hf
  have hstrict : s = true := by
    cases s with
    | true => rfl
    | false => rw [h.draining rfl] at hd; cases hd
  have hquiet := h.fits f
  rw [hof] at hquiet
  refine ⟨?fits, all_update h.listeners (by simp [hof]), one_update h.notify (by simp [hof]),
    held_update h.held (by simp [hof]), h.heldNodup, all_update h.borrowed (by simp [hof]),
    h.borrowedNodup, ?attached, ?awaiting, ?named, ?shaped, ?pooled, h.draining, h.drained⟩
  case fits =>
    intro x
    have hfits := h.fits x
    by_cases hx : x = f
    · subst hx
      simp only [Fits, View.place, View.open_, Function.update_self]
      refine ⟨trivial, t, rfl, fun k => ?_⟩
      rw [hquiet.2.1 k, hdown k]
    · rw [Function.update_of_ne hx]
      have hnc := h.not_client (u := f) (by simp [hof])
      apply hfits.untouched <;> simp only [View.place, View.open_, Function.update_of_ne hx]
      · exact fun _ hm => hm
      · exact id
      · exact id
      · grind [Function.update_apply]
  all_goals simp only [View.place, View.open_]
  case attached =>
    have hold := h.attached
    grind [Function.update_apply]
  case awaiting =>
    have hold := h.awaiting
    grind [Function.update_apply]
  case named =>
    have hold := h.named
    have hnc := h.not_client (u := f) (by simp [hof])
    grind [Function.update_apply]
  case shaped =>
    have hold := h.shaped
    grind [Function.update_apply]
  case pooled =>
    have hold := h.pooled
    grind [Function.update_apply]

end Clients

section Upstreams

theorem held_notIdle {held : List (SocketAddr × Fd)} (h : ∀ e ∈ held, own e.2 = .idle e.1)
    (hu : ∀ a, own u ≠ .idle a) : u ∉ held.map (·.2) := by
  intro hm
  obtain ⟨e, he, rfl⟩ := List.mem_map.mp hm
  exact hu e.1 (h e he)

/-- A connection gives its upstream to the pool. -/
theorem Owned.park (h : Owned s v own) (hf : v.role f = .client t) (hu : t.upstream = some u)
    (hb : t.upBorrowed = false) (hup : t'.upstream = none) (hdown : ∀ k, t'.down k = t.down k)
    (hs : Shape t') {a : SocketAddr} {held : List (SocketAddr × Fd)}
    (hheld : List.Perm held ((a, u) :: v.held)) {flight : Kind → Nat}
    (hflight : Near s flight parked) :
    Owned s { ((v.place u (.idle a)).stir u flight).place f (.client t') with held := held }
      (Function.update own u (.idle a)) := by
  have hof := h.client_owner hf
  have hou := h.attached f t u hf hu hb
  have hne : u ≠ f := by
    intro e
    rw [e, hof] at hou
    cases hou
  have hnc := h.not_client (u := u) (by simp [hou])
  have hnot := held_notIdle h.held (u := u) (by simp [hou])
  refine ⟨?fits, all_update h.listeners (by simp [hou]), one_update h.notify (by simp [hou]),
    ?held, ?nodup, all_update h.borrowed (by simp [hou]), h.borrowedNodup, ?attached, ?awaiting,
    ?named, ?shaped, ?pooled, h.draining, h.drained⟩
  case held =>
    intro e he
    rcases List.mem_cons.mp (hheld.mem_iff.mp he) with rfl | he
    · exact Function.update_self ..
    · exact held_update h.held (by simp [hou]) e he
  case nodup =>
    have hperm := (hheld.map (·.2)).nodup_iff
    rw [hperm]
    exact List.nodup_cons.mpr ⟨hnot, h.heldNodup⟩
  case fits =>
    intro x
    have hfits := h.fits x
    by_cases hxu : x = u
    · subst hxu
      rw [hou] at hfits
      rw [Function.update_self]
      refine ⟨hfits.1, ?_, ?_, ?_, ?_⟩ <;>
        simp only [View.place, View.stir, Function.update_self, Function.update_of_ne hne]
      · trivial
      · exact fun _ => trivial
      · exact hheld.mem_iff.mpr List.mem_cons_self
      · exact hflight
    · rw [Function.update_of_ne hxu]
      by_cases hx : x = f
      · subst hx
        rw [hof] at hfits ⊢
        simp only [Fits, View.place, View.stir, Function.update_self,
          Function.update_of_ne hne.symm] at hfits ⊢
        grind
      · apply hfits.untouched <;>
          simp only [View.place, View.stir, Function.update_of_ne hx, Function.update_of_ne hxu]
        · exact fun b hm => hheld.mem_iff.mpr (List.mem_cons_of_mem _ hm)
        · exact id
        · exact id
        · grind [Function.update_apply]
  all_goals simp only [View.place, View.stir]
  case attached =>
    have hold := h.attached
    grind [Function.update_apply]
  case awaiting =>
    have hold := h.awaiting
    grind [Function.update_apply]
  case named =>
    have hold := h.named
    grind [Function.update_apply]
  case shaped =>
    have hold := h.shaped
    grind [Function.update_apply]
  case pooled =>
    have hold := h.pooled
    grind [Function.update_apply]

/-- A connection takes an upstream out of the pool, with the read that is parked on it. -/
theorem Owned.take (h : Owned s v own) (hf : v.role f = .client t) (hu : t.upstream = none)
    (hup : t'.upstream = some u) (hb : t'.upBorrowed = false)
    (hdown : ∀ k, t'.down k = t.down k) (hparked : ∀ k, t'.up k = parked k) (hs : Shape t')
    {a : SocketAddr} {held : List (SocketAddr × Fd)}
    (hheld : List.Perm v.held ((a, u) :: held)) :
    Owned s { (v.place u (.upstream f)).place f (.client t') with held := held }
      (Function.update own u (.upstream f)) := by
  have hof := h.client_owner hf
  have hou := h.held (a, u) (hheld.mem_iff.mpr List.mem_cons_self)
  dsimp only at hou
  have hne : u ≠ f := by
    intro e
    rw [e, hof] at hou
    cases hou
  have hnc := h.not_client (u := u) (by simp [hou])
  have hnodup := ((hheld.map (·.2)).nodup_iff.mp h.heldNodup)
  rw [List.map_cons, List.nodup_cons] at hnodup
  have hrest : ∀ e ∈ held, e ∈ v.held := fun e he =>
    hheld.mem_iff.mpr (List.mem_cons_of_mem _ he)
  refine ⟨?fits, all_update h.listeners (by simp [hou]), one_update h.notify (by simp [hou]),
    ?held, hnodup.2, all_update h.borrowed (by simp [hou]), h.borrowedNodup, ?attached, ?awaiting,
    ?named, ?shaped, ?pooled, h.draining, h.drained⟩
  case held =>
    intro e he
    have hne' : e.2 ≠ u := fun hu' => hnodup.1 (List.mem_map.mpr ⟨e, he, hu'⟩)
    rw [Function.update_of_ne hne']
    exact h.held e (hrest e he)
  case fits =>
    intro x
    have hfits := h.fits x
    by_cases hxu : x = u
    · subst hxu
      rw [hou] at hfits
      rw [Function.update_self]
      refine ⟨hfits.1, ?_, ?_, t', ?_, hup, hb, ?_⟩ <;>
        simp only [View.place, Function.update_self, Function.update_of_ne hne]
      · trivial
      · exact fun _ => trivial
      · intro k
        rw [hparked k]
        exact hfits.2.2.2.2 k
    · rw [Function.update_of_ne hxu]
      by_cases hx : x = f
      · subst hx
        rw [hof] at hfits ⊢
        simp only [Fits, View.place, Function.update_self] at hfits ⊢
        grind
      · apply hfits.untouched <;>
          simp only [View.place, Function.update_of_ne hx, Function.update_of_ne hxu]
        · intro b hm
          rcases List.mem_cons.mp (hheld.mem_iff.mp hm) with e | hm
          · exact absurd (congrArg Prod.snd e) hxu
          · exact hm
        · exact id
        · exact id
        · grind [Function.update_apply]
  all_goals simp only [View.place]
  case attached =>
    have hold := h.attached
    grind [Function.update_apply]
  case awaiting =>
    have hold := h.awaiting
    grind [Function.update_apply]
  case named =>
    have hold := h.named
    grind [Function.update_apply]
  case shaped =>
    have hold := h.shaped
    grind [Function.update_apply]
  case pooled =>
    have hold := h.pooled
    grind [Function.update_apply]

/-- A connection opens an upstream of its own. -/
theorem Owned.dial (h : Owned s v own) (hf : v.role f = .client t) (hu : t.upstream = none)
    (hopen : v.opened u = false) (hup : t'.upstream = some u) (hb : t'.upBorrowed = false)
    (hdown : ∀ k, t'.down k = t.down k) (hquiet : ∀ k, t'.up k = 0) (hs : Shape t') :
    Owned s (((v.open_ u).place u (.upstream f)).place f (.client t'))
      (Function.update own u (.upstream f)) := by
  have hof := h.client_owner hf
  have hou := h.nobody_owner hopen
  have hne : u ≠ f := by
    intro e
    rw [e, hof] at hou
    cases hou
  have hnc := h.not_client (u := u) (by simp [hou])
  refine ⟨?fits, all_update h.listeners (by simp [hou]), one_update h.notify (by simp [hou]),
    held_update h.held (by simp [hou]), h.heldNodup, all_update h.borrowed (by simp [hou]),
    h.borrowedNodup, ?attached, ?awaiting, ?named, ?shaped, ?pooled, h.draining, h.drained⟩
  case fits =>
    intro x
    have hfits := h.fits x
    by_cases hxu : x = u
    · subst hxu
      rw [hou] at hfits
      rw [Function.update_self]
      refine ⟨?_, ?_, ?_, t', ?_, hup, hb, ?_⟩ <;>
        simp only [View.place, View.open_, Function.update_self, Function.update_of_ne hne]
      · trivial
      · exact fun _ => trivial
      · intro k
        rw [hquiet k, hfits.2.1 k]
        exact ⟨Nat.le_refl 0, fun _ => rfl⟩
    · rw [Function.update_of_ne hxu]
      by_cases hx : x = f
      · subst hx
        rw [hof] at hfits ⊢
        simp only [Fits, View.place, View.open_, Function.update_self,
          Function.update_of_ne hne.symm] at hfits ⊢
        grind
      · apply hfits.untouched <;>
          simp only [View.place, View.open_, Function.update_of_ne hx, Function.update_of_ne hxu]
        · exact fun _ hm => hm
        · exact id
        · exact id
        · grind [Function.update_apply]
  all_goals simp only [View.place, View.open_]
  case attached =>
    have hold := h.attached
    grind [Function.update_apply]
  case awaiting =>
    have hold := h.awaiting
    grind [Function.update_apply]
  case named =>
    have hold := h.named
    grind [Function.update_apply]
  case shaped =>
    have hold := h.shaped
    grind [Function.update_apply]
  case pooled =>
    have hold := h.pooled
    grind [Function.update_apply]

/-- A connection opens an upstream and lends it to the helper until it is connected. -/
theorem Owned.watch (h : Owned s v own) (hf : v.role f = .client t) (hu : t.upstream = none)
    (hopen : v.opened u = false) (hup : t'.upstream = some u) (hb : t'.upBorrowed = true)
    (hdown : ∀ k, t'.down k = t.down k) (hs : Shape t') :
    Owned s { ((v.open_ u).place u (.upstream f)).place f (.client t') with
      borrowed := u :: v.borrowed } (Function.update own u .borrowed) := by
  have hof := h.client_owner hf
  have hou := h.nobody_owner hopen
  have hne : u ≠ f := by
    intro e
    rw [e, hof] at hou
    cases hou
  have hnc := h.not_client (u := u) (by simp [hou])
  have hnot : u ∉ v.borrowed := by
    intro hm
    rw [h.borrowed u hm] at hou
    cases hou
  refine ⟨?fits, all_update h.listeners (by simp [hou]), one_update h.notify (by simp [hou]),
    held_update h.held (by simp [hou]), h.heldNodup, ?borrowed,
    List.nodup_cons.mpr ⟨hnot, h.borrowedNodup⟩, ?attached, ?awaiting, ?named, ?shaped, ?pooled,
    h.draining, h.drained⟩
  case borrowed =>
    intro x hx
    rcases List.mem_cons.mp hx with rfl | hx
    · exact Function.update_self ..
    · exact all_update h.borrowed (by simp [hou]) x hx
  case fits =>
    intro x
    have hfits := h.fits x
    by_cases hxu : x = u
    · subst hxu
      rw [hou] at hfits
      rw [Function.update_self]
      refine ⟨?_, ?_, ?_, ?_, ?_⟩ <;>
        simp only [View.place, View.open_, Function.update_self, Function.update_of_ne hne]
      · trivial
      · exact hfits.2.1
      · exact List.mem_cons_self
      · exact fun _ => Or.inr ⟨f, t', rfl, Function.update_self .., hup, hb⟩
    · rw [Function.update_of_ne hxu]
      by_cases hx : x = f
      · subst hx
        rw [hof] at hfits ⊢
        simp only [Fits, View.place, View.open_, Function.update_self,
          Function.update_of_ne hne.symm] at hfits ⊢
        grind
      · apply hfits.untouched <;>
          simp only [View.place, View.open_, Function.update_of_ne hx, Function.update_of_ne hxu]
        · exact fun _ hm => hm
        · exact List.mem_cons_of_mem _
        · exact id
        · grind [Function.update_apply]
  all_goals simp only [View.place, View.open_]
  case attached =>
    have hold := h.attached
    grind [Function.update_apply]
  case awaiting =>
    have hold := h.awaiting
    grind [Function.update_apply]
  case named =>
    have hold := h.named
    grind [Function.update_apply]
  case shaped =>
    have hold := h.shaped
    grind [Function.update_apply]
  case pooled =>
    have hold := h.pooled
    grind [Function.update_apply]

/-- The connection that waits for a borrowed descriptor waits for it alone. -/
theorem Owned.waiting (h : Owned s v own) (hm : u ∈ v.borrowed) (hslot : v.role u = .upstream f)
    (hf : v.role f = .client t) : t.upstream = some u ∧ t.upBorrowed = true := by
  have hou := h.borrowed u hm
  have hup := ((h.named u f hslot).2.2.2 t hf).1
  refine ⟨hup, ?_⟩
  cases hb : t.upBorrowed with
  | true => rfl
  | false =>
      rw [h.attached f t u hf hup hb] at hou
      cases hou

/-- The helper gives a connected descriptor back to the connection that waits for it. -/
theorem Owned.wake (h : Owned s v own) (hm : u ∈ v.borrowed) (hslot : v.role u = .upstream f)
    (hf : v.role f = .client t) (hup : t'.upstream = some u) (hb : t'.upBorrowed = false)
    (hdown : ∀ k, t'.down k = t.down k) (hquiet : ∀ k, t'.up k = 0) (hs : Shape t') :
    Owned s { v.place f (.client t') with borrowed := v.borrowed.erase u }
      (Function.update own u (.upstream f)) := by
  have hof := h.client_owner hf
  have hou := h.borrowed u hm
  obtain ⟨htu, htb⟩ := h.waiting hm hslot hf
  have hne : u ≠ f := by
    intro e
    rw [e, hof] at hou
    cases hou
  have hnc := h.not_client (u := u) (by simp [hou])
  have hnodup := h.borrowedNodup
  refine ⟨?fits, all_update h.listeners (by simp [hou]), one_update h.notify (by simp [hou]),
    held_update h.held (by simp [hou]), h.heldNodup, ?borrowed, hnodup.erase u, ?attached,
    ?awaiting, ?named, ?shaped, ?pooled, h.draining, h.drained⟩
  case borrowed =>
    intro x hx
    obtain ⟨hxu, hx⟩ := (List.Nodup.mem_erase_iff hnodup).mp hx
    rw [Function.update_of_ne hxu]
    exact h.borrowed x hx
  case fits =>
    intro x
    have hfits := h.fits x
    by_cases hxu : x = u
    · subst hxu
      rw [hou] at hfits
      rw [Function.update_self]
      refine ⟨hfits.1, ?_, ?_, t', ?_, hup, hb, ?_⟩ <;>
        simp only [View.place, Function.update_self, Function.update_of_ne hne]
      · exact hfits.2.1
      · exact fun _ => hslot
      · intro k
        rw [hquiet k, hfits.2.2.1 k]
        exact ⟨Nat.le_refl 0, fun _ => rfl⟩
    · rw [Function.update_of_ne hxu]
      by_cases hx : x = f
      · subst hx
        rw [hof] at hfits ⊢
        simp only [Fits, View.place, Function.update_self] at hfits ⊢
        grind
      · apply hfits.untouched <;> simp only [View.place, Function.update_of_ne hx]
        · exact fun _ hm => hm
        · exact (List.mem_erase_of_ne hxu).mpr
        · exact id
        · grind [Function.update_apply]
  all_goals simp only [View.place]
  case attached =>
    have hold := h.attached
    grind [Function.update_apply]
  case awaiting =>
    have hold := h.awaiting
    grind [Function.update_apply]
  case named =>
    have hold := h.named
    grind [Function.update_apply]
  case shaped =>
    have hold := h.shaped
    grind [Function.update_apply]
  case pooled =>
    have hold := h.pooled
    grind [Function.update_apply]

/-- The helper gives back a descriptor that was never connected. -/
theorem Owned.miss (h : Owned s v own) (hm : u ∈ v.borrowed) (hslot : v.role u = .upstream f)
    (hf : v.role f = .client t) (hup : t'.upstream = none) (hdown : ∀ k, t'.down k = t.down k)
    (hs : Shape t') :
    Owned s { ((v.place u .empty).shut u).place f (.client t') with
      borrowed := v.borrowed.erase u } (Function.update own u .nobody) := by
  have hof := h.client_owner hf
  have hou := h.borrowed u hm
  obtain ⟨htu, htb⟩ := h.waiting hm hslot hf
  have hne : u ≠ f := by
    intro e
    rw [e, hof] at hou
    cases hou
  have hnc := h.not_client (u := u) (by simp [hou])
  have hnodup := h.borrowedNodup
  refine ⟨?fits, all_update h.listeners (by simp [hou]), one_update h.notify (by simp [hou]),
    held_update h.held (by simp [hou]), h.heldNodup, ?borrowed, hnodup.erase u, ?attached,
    ?awaiting, ?named, ?shaped, ?pooled, h.draining, h.drained⟩
  case borrowed =>
    intro x hx
    obtain ⟨hxu, hx⟩ := (List.Nodup.mem_erase_iff hnodup).mp hx
    rw [Function.update_of_ne hxu]
    exact h.borrowed x hx
  case fits =>
    intro x
    have hfits := h.fits x
    by_cases hxu : x = u
    · subst hxu
      simp [Fits, View.place, View.shut, Function.update_of_ne hne, Role.plain]
    · rw [Function.update_of_ne hxu]
      by_cases hx : x = f
      · subst hx
        rw [hof] at hfits ⊢
        simp only [Fits, View.place, View.shut, Function.update_self,
          Function.update_of_ne hne.symm] at hfits ⊢
        grind
      · apply hfits.untouched <;>
          simp only [View.place, View.shut, Function.update_of_ne hx, Function.update_of_ne hxu]
        · exact fun _ hm => hm
        · exact (List.mem_erase_of_ne hxu).mpr
        · exact id
        · grind [Function.update_apply]
  all_goals simp only [View.place, View.shut]
  case attached =>
    have hold := h.attached
    grind [Function.update_apply]
  case awaiting =>
    have hold := h.awaiting
    grind [Function.update_apply]
  case named =>
    have hold := h.named
    grind [Function.update_apply]
  case shaped =>
    have hold := h.shaped
    grind [Function.update_apply]
  case pooled =>
    have hold := h.pooled
    grind [Function.update_apply]

/-- The helper gives back a descriptor that no connection waits for. -/
theorem Owned.forsake (h : Owned s v own) (hm : u ∈ v.borrowed)
    (hslot : ∀ d t, v.role u = .upstream d → v.role d ≠ .client t) :
    Owned s { (v.place u .empty).shut u with borrowed := v.borrowed.erase u }
      (Function.update own u .nobody) := by
  have hou := h.borrowed u hm
  have hnc := h.not_client (u := u) (by simp [hou])
  have hnodup := h.borrowedNodup
  refine ⟨?fits, all_update h.listeners (by simp [hou]), one_update h.notify (by simp [hou]),
    held_update h.held (by simp [hou]), h.heldNodup, ?borrowed, hnodup.erase u, ?attached,
    ?awaiting, ?named, ?shaped, ?pooled, h.draining, h.drained⟩
  case borrowed =>
    intro x hx
    obtain ⟨hxu, hx⟩ := (List.Nodup.mem_erase_iff hnodup).mp hx
    rw [Function.update_of_ne hxu]
    exact h.borrowed x hx
  case fits =>
    intro x
    have hfits := h.fits x
    by_cases hxu : x = u
    · subst hxu
      simp [Fits, View.place, View.shut, Role.plain]
    · rw [Function.update_of_ne hxu]
      apply hfits.untouched <;> simp only [View.place, View.shut, Function.update_of_ne hxu]
      · exact fun _ hm => hm
      · exact (List.mem_erase_of_ne hxu).mpr
      · exact id
      · grind [Function.update_apply]
  all_goals simp only [View.place, View.shut]
  case attached =>
    have hold := h.attached
    grind [Function.update_apply]
  case awaiting =>
    have hold := h.awaiting
    grind [Function.update_apply]
  case named =>
    have hold := h.named
    grind [Function.update_apply]
  case shaped =>
    have hold := h.shaped
    grind [Function.update_apply]
  case pooled =>
    have hold := h.pooled
    grind [Function.update_apply]

/-- A connection leaves the pool for good. -/
theorem Owned.retire (h : Owned s v own) {a : SocketAddr} {held : List (SocketAddr × Fd)}
    (hheld : List.Perm v.held ((a, u) :: held)) :
    Owned s { (v.place u .empty).shut u with held := held } (Function.update own u .nobody) := by
  have hou := h.held (a, u) (hheld.mem_iff.mpr List.mem_cons_self)
  dsimp only at hou
  have hnc := h.not_client (u := u) (by simp [hou])
  have hnodup := ((hheld.map (·.2)).nodup_iff.mp h.heldNodup)
  rw [List.map_cons, List.nodup_cons] at hnodup
  have hrest : ∀ e ∈ held, e ∈ v.held := fun e he =>
    hheld.mem_iff.mpr (List.mem_cons_of_mem _ he)
  refine ⟨?fits, all_update h.listeners (by simp [hou]), one_update h.notify (by simp [hou]),
    ?held, hnodup.2, all_update h.borrowed (by simp [hou]), h.borrowedNodup, ?attached, ?awaiting,
    ?named, ?shaped, ?pooled, h.draining, h.drained⟩
  case held =>
    intro e he
    have hne' : e.2 ≠ u := fun hu' => hnodup.1 (List.mem_map.mpr ⟨e, he, hu'⟩)
    rw [Function.update_of_ne hne']
    exact h.held e (hrest e he)
  case fits =>
    intro x
    have hfits := h.fits x
    by_cases hxu : x = u
    · subst hxu
      simp [Fits, View.place, View.shut, Role.plain]
    · rw [Function.update_of_ne hxu]
      apply hfits.untouched <;> simp only [View.place, View.shut, Function.update_of_ne hxu]
      · intro b hm
        rcases List.mem_cons.mp (hheld.mem_iff.mp hm) with e | hm
        · exact absurd (congrArg Prod.snd e) hxu
        · exact hm
      · exact id
      · exact id
      · grind [Function.update_apply]
  all_goals simp only [View.place, View.shut]
  case attached =>
    have hold := h.attached
    grind [Function.update_apply]
  case awaiting =>
    have hold := h.awaiting
    grind [Function.update_apply]
  case named =>
    have hold := h.named
    grind [Function.update_apply]
  case shaped =>
    have hold := h.shaped
    grind [Function.update_apply]
  case pooled =>
    have hold := h.pooled
    grind [Function.update_apply]

end Upstreams

section Others

/-- The flights of a fixture change. -/
theorem Owned.stirFixture (h : Owned s v own) (hf : f ∈ v.listeners ∨ f = v.notify)
    {flight : Kind → Nat}
    (hflight : ∀ k, flight k ≠ 0 →
      (k = .notify ∧ f = v.notify) ∨ (Kind.ofListener k ∧ f ∈ v.listeners)) :
    Owned s (v.stir f flight) own := by
  have hof : own f = .fixture := by
    rcases hf with hf | rfl
    · exact h.listeners f hf
    · exact h.notify
  refine ⟨?fits, h.listeners, h.notify, h.held, h.heldNodup, h.borrowed, h.borrowedNodup,
    h.attached, h.awaiting, h.named, h.shaped, h.pooled, h.draining, h.drained⟩
  intro x
  have hfits := h.fits x
  by_cases hx : x = f
  · subst hx
    rw [hof] at hfits ⊢
    simp only [Fits, View.stir, Function.update_self] at hfits ⊢
    exact ⟨hfits.1, hflight, hfits.2.2⟩
  · apply hfits.untouched <;> simp only [View.stir, Function.update_of_ne hx]
    · exact fun _ hm => hm
    · exact id
    · exact id
    · exact fun d t hd hu => ⟨t, hd, hu, rfl, fun _ => rfl⟩

/-- A listener is closed, the core having struck it off its list. -/
theorem Owned.unlisten (h : Owned s v own) (hf : f ∈ v.listeners) (hnotify : f ≠ v.notify)
    {others : List Fd} (hothers : ∀ x ∈ others, x ∈ v.listeners ∧ x ≠ f)
    (hall : ∀ x ∈ v.listeners, x ≠ f → x ∈ others) :
    Owned s { (v.place f .empty).shut f with listeners := others }
      (Function.update own f .nobody) := by
  have hof := h.listeners f hf
  have hnc := h.not_client (u := f) (by simp [hof])
  have hdraining : v.draining = false := by
    cases hd : v.draining with
    | false => rfl
    | true =>
        rw [h.drained hd] at hf
        cases hf
  refine ⟨?fits, ?listeners, ?notify, held_update h.held (by simp [hof]), h.heldNodup,
    all_update h.borrowed (by simp [hof]), h.borrowedNodup, ?attached, ?awaiting, ?named, ?shaped, ?pooled,
    h.draining, ?drained⟩
  case listeners =>
    intro x hx
    rw [Function.update_of_ne (hothers x hx).2]
    exact h.listeners x (hothers x hx).1
  case notify =>
    exact (Function.update_of_ne hnotify.symm _ _).trans h.notify
  case drained =>
    intro hd
    rw [show v.draining = true from hd] at hdraining
    cases hdraining
  case fits =>
    intro x
    have hfits := h.fits x
    by_cases hx : x = f
    · subst hx
      simp [Fits, View.place, View.shut, Role.plain]
    · rw [Function.update_of_ne hx]
      apply hfits.untouched <;> simp only [View.place, View.shut, Function.update_of_ne hx]
      · exact fun _ hm => hm
      · exact id
      · exact fun hm => hall x hm hx
      · grind [Function.update_apply]
  all_goals simp only [View.place, View.shut]
  case attached =>
    have hold := h.attached
    grind [Function.update_apply]
  case awaiting =>
    have hold := h.awaiting
    grind [Function.update_apply]
  case named =>
    have hold := h.named
    grind [Function.update_apply]
  case shaped =>
    have hold := h.shaped
    grind [Function.update_apply]
  case pooled =>
    have hold := h.pooled
    grind [Function.update_apply]

variable {r w r' w' : Bool}

/-- An admin connection changes. -/
theorem Owned.stirAdmin (h : Owned s v own) (hf : v.role f = .admin r w) {flight : Kind → Nat}
    (hflight : ∀ k, flight k = adminFlight r' w' k) :
    Owned s ((v.stir f flight).place f (.admin r' w')) own := by
  have hof := h.admin_owner hf
  have hnc := h.not_client (u := f) (by simp [hof])
  refine ⟨?fits, h.listeners, h.notify, h.held, h.heldNodup, h.borrowed, h.borrowedNodup,
    ?attached, ?awaiting, ?named, ?shaped, ?pooled, h.draining, h.drained⟩
  case fits =>
    intro x
    have hfits := h.fits x
    by_cases hx : x = f
    · subst hx
      rw [hof] at hfits ⊢
      simp only [Fits, View.place, View.stir, Function.update_self] at hfits ⊢
      exact ⟨hfits.1, r', w', rfl, hflight⟩
    · apply hfits.untouched <;> simp only [View.place, View.stir, Function.update_of_ne hx]
      · exact fun _ hm => hm
      · exact id
      · exact id
      · grind [Function.update_apply]
  all_goals simp only [View.place, View.stir]
  case attached =>
    have hold := h.attached
    grind [Function.update_apply]
  case awaiting =>
    have hold := h.awaiting
    grind [Function.update_apply]
  case named =>
    have hold := h.named
    grind [Function.update_apply]
  case shaped =>
    have hold := h.shaped
    grind [Function.update_apply]
  case pooled =>
    have hold := h.pooled
    grind [Function.update_apply]

/-- An admin connection leaves its slot. -/
theorem Owned.quitAdmin (h : Owned s v own) (hf : v.role f = .admin r w) :
    Owned s ((v.place f .empty).shut f) (Function.update own f .nobody) := by
  have hof := h.admin_owner hf
  have hnc := h.not_client (u := f) (by simp [hof])
  refine ⟨?fits, all_update h.listeners (by simp [hof]), one_update h.notify (by simp [hof]),
    held_update h.held (by simp [hof]), h.heldNodup, all_update h.borrowed (by simp [hof]),
    h.borrowedNodup, ?attached, ?awaiting, ?named, ?shaped, ?pooled, h.draining, h.drained⟩
  case fits =>
    intro x
    have hfits := h.fits x
    by_cases hx : x = f
    · subst hx
      simp [Fits, View.place, View.shut, Role.plain]
    · rw [Function.update_of_ne hx]
      apply hfits.untouched <;> simp only [View.place, View.shut, Function.update_of_ne hx]
      · exact fun _ hm => hm
      · exact id
      · exact id
      · grind [Function.update_apply]
  all_goals simp only [View.place, View.shut]
  case attached =>
    have hold := h.attached
    grind [Function.update_apply]
  case awaiting =>
    have hold := h.awaiting
    grind [Function.update_apply]
  case named =>
    have hold := h.named
    grind [Function.update_apply]
  case shaped =>
    have hold := h.shaped
    grind [Function.update_apply]
  case pooled =>
    have hold := h.pooled
    grind [Function.update_apply]

/-- An admin connection just accepted takes its slot. -/
theorem Owned.beginAdmin (h : Owned s v own) (hd : v.draining = false) (hf : v.opened f = false) :
    Owned s ((v.open_ f).place f (.admin false false)) (Function.update own f .admin) := by
  have hof := h.nobody_owner hf
  have hstrict : s = true := by
    cases s with
    | true => rfl
    | false => rw [h.draining rfl] at hd; cases hd
  have hquiet := h.fits f
  rw [hof] at hquiet
  have hnc := h.not_client (u := f) (by simp [hof])
  refine ⟨?fits, all_update h.listeners (by simp [hof]), one_update h.notify (by simp [hof]),
    held_update h.held (by simp [hof]), h.heldNodup, all_update h.borrowed (by simp [hof]),
    h.borrowedNodup, ?attached, ?awaiting, ?named, ?shaped, ?pooled, h.draining, h.drained⟩
  case fits =>
    intro x
    have hfits := h.fits x
    by_cases hx : x = f
    · subst hx
      simp only [Fits, View.place, View.open_, Function.update_self]
      refine ⟨trivial, false, false, rfl, fun k => ?_⟩
      rw [hquiet.2.1 k]
      cases k <;> rfl
    · rw [Function.update_of_ne hx]
      apply hfits.untouched <;> simp only [View.place, View.open_, Function.update_of_ne hx]
      · exact fun _ hm => hm
      · exact id
      · exact id
      · grind [Function.update_apply]
  all_goals simp only [View.place, View.open_]
  case attached =>
    have hold := h.attached
    grind [Function.update_apply]
  case awaiting =>
    have hold := h.awaiting
    grind [Function.update_apply]
  case named =>
    have hold := h.named
    grind [Function.update_apply]
  case shaped =>
    have hold := h.shaped
    grind [Function.update_apply]
  case pooled =>
    have hold := h.pooled
    grind [Function.update_apply]

/-- A core that drains has struck every listener off its list. -/
theorem Owned.drain (h : Owned s v own) (hl : v.listeners = []) :
    Owned s { v with draining := true } own :=
  ⟨fun x => (h.fits x).untouched rfl rfl rfl (fun _ hm => hm) id id rfl
      fun _ t hd hu => ⟨t, hd, hu, rfl, fun _ => rfl⟩,
    h.listeners, h.notify, h.held, h.heldNodup, h.borrowed, h.borrowedNodup, h.attached,
    h.awaiting, h.named, h.shaped, h.pooled, fun _ => rfl, fun _ => hl⟩

/-- Every slot may say less than its owner, from here on. -/
theorem Owned.relax (h : Owned true v own) (hd : v.draining = true) : Owned false v own := by
  have hnear : ∀ {n e : Kind → Nat}, Near true n e → Near false n e := fun hn k =>
    ⟨(hn k).1, by simp⟩
  refine ⟨?fits, h.listeners, h.notify, h.held, h.heldNodup, h.borrowed, h.borrowedNodup,
    h.attached, ?awaiting, ?named, h.shaped, h.pooled, fun _ => hd, h.drained⟩
  case fits =>
    intro x
    have hfits := h.fits x
    cases ho : own x <;> rw [ho] at hfits <;> simp only [Fits] at hfits ⊢ <;> grind
  case awaiting =>
    intro d t u hd' hu hb
    have hold := h.awaiting d t u hd' hu hb
    exact ⟨hold.1, hold.2.1, hold.2.2.1, by simp⟩
  case named =>
    intro u d hu
    have hold := h.named u d hu
    exact ⟨hold.1, hold.2.1, by simp, hold.2.2.2⟩

/-- Where slots may say less, one that holds no connection may be emptied. -/
theorem Owned.clear (h : Owned false v own) (hc : ∀ t, v.role f ≠ .client t)
    (ha : own f ≠ .admin) : Owned false (v.place f .empty) own := by
  have hof : own f ≠ .client := by
    intro ho
    have hfits := h.fits f
    rw [ho] at hfits
    obtain ⟨-, t, ht, -⟩ := hfits
    exact hc t ht
  refine ⟨?fits, h.listeners, h.notify, h.held, h.heldNodup, h.borrowed, h.borrowedNodup,
    ?attached, ?awaiting, ?named, ?shaped, ?pooled, h.draining, h.drained⟩
  case fits =>
    intro x
    have hfits := h.fits x
    by_cases hx : x = f
    · subst hx
      cases ho : own x <;> rw [ho] at hfits <;>
        simp only [Fits, View.place, Function.update_self, Role.plain] at hfits ⊢ <;>
        grind [Function.update_apply]
    · apply hfits.untouched <;> simp only [View.place, Function.update_of_ne hx]
      · exact fun _ hm => hm
      · exact id
      · exact id
      · grind [Function.update_apply]
  all_goals simp only [View.place]
  case attached =>
    have hold := h.attached
    grind [Function.update_apply]
  case awaiting =>
    have hold := h.awaiting
    grind [Function.update_apply]
  case named =>
    have hold := h.named
    grind [Function.update_apply]
  case shaped =>
    have hold := h.shaped
    grind [Function.update_apply]
  case pooled =>
    have hold := h.pooled
    grind [Function.update_apply]

/-- Where slots may say less, an operation towards an upstream may end unheard. -/
theorem Owned.unheard (h : Owned false v own) (ho : (∃ d, own u = .upstream d) ∨
    (∃ a, own u = .idle a) ∨ own u = .lost) {flight : Kind → Nat}
    (hflight : ∀ k, flight k ≤ v.flight u k) : Owned false (v.stir u flight) own := by
  refine ⟨?fits, h.listeners, h.notify, h.held, h.heldNodup, h.borrowed, h.borrowedNodup,
    h.attached, h.awaiting, h.named, h.shaped, h.pooled, h.draining, h.drained⟩
  intro x
  have hfits := h.fits x
  by_cases hx : x = u
  · subst hx
    rcases ho with ⟨d, ho⟩ | ⟨a, ho⟩ | ho <;> rw [ho] at hfits ⊢ <;>
      simp only [Fits, Near, View.stir, Function.update_self] at hfits ⊢ <;> grind
  · apply hfits.untouched <;> simp only [View.stir, Function.update_of_ne hx]
    · exact fun _ hm => hm
    · exact id
    · exact id
    · exact fun d t hd hu => ⟨t, hd, hu, rfl, fun _ => rfl⟩

/-- What the pool holds, in any order. -/
theorem Owned.reheld (h : Owned s v own) {held : List (SocketAddr × Fd)}
    (hheld : List.Perm held v.held) : Owned s { v with held := held } own :=
  ⟨fun x => (h.fits x).untouched rfl rfl rfl (fun _ hm => hheld.mem_iff.mpr hm) id id rfl
      fun _ t hd hu => ⟨t, hd, hu, rfl, fun _ => rfl⟩,
    h.listeners, h.notify, fun e he => h.held e (hheld.mem_iff.mp he),
    (hheld.map (·.2)).nodup_iff.mpr h.heldNodup, h.borrowed, h.borrowedNodup, h.attached,
    h.awaiting, h.named, h.shaped, h.pooled, h.draining, h.drained⟩

end Others

def Sound (strict : Bool) (v : View) : Prop := ∃ own, Owned strict v own

end Ramjet.Engine.Worker.Descriptors
