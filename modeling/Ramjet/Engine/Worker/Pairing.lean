/- digest: Every upstream descriptor is with one client, the pool or the helper, until a drain cuts. -/

import Ramjet.Engine.Worker.Coherence

set_option autoImplicit false
set_option relaxedAutoImplicit false

namespace Ramjet.Engine.Worker.Pairing

open Ramjet.Base.Octets
open Ramjet.Base.Net
open Ramjet.Base.Machine
open Ramjet.Engine.IdlePool
open Ramjet.Engine.Worker.Connection
open Ramjet.Engine.Worker.Core
open Ramjet.Engine.Worker.Serving
open Ramjet.Engine.Worker.Handlers
open Ramjet.Engine.Worker.Loop
open Ramjet.Engine.Worker.Descriptors
open Ramjet.Engine.Worker.Ownership
open Ramjet.Engine.Worker.Moves
open Ramjet.Engine.Worker.Keeping
open Ramjet.Engine.Worker.Arrivals
open Ramjet.Engine.Worker.Coherence
open Ramjet.Router.Stats

/-- Slots and pool say of every upstream descriptor the same as its client does. -/
structure Paired (w : World) : Prop where
  attached : ∀ u d, w.slots u = .upstream d ↔ ∃ c, w.slots d = .client c ∧ c.upstream = some u
  idle : ∀ u addr, w.slots u = .idle addr ↔ (addr, u) ∈ w.pool.held
  parked : ∀ u addr, w.slots u = .idle addr →
    flightOf w u .upRead = 1 ∧ flightOf w u .upWrite = 0
  abandoned : ∀ u, w.slots u = .abandoned → u ∈ w.borrowed
  alone : ∀ u d d' c c', w.slots d = .client c → w.slots d' = .client c' →
    c.upstream = some u → c'.upstream = some u → d = d'
  apart : ∀ u addr d c, (addr, u) ∈ w.pool.held → w.slots d = .client c → c.upstream ≠ some u
  single : ∀ u addr addr', (addr, u) ∈ w.pool.held → (addr', u) ∈ w.pool.held → addr = addr'

section Owners

variable {w : World} {own : Fd → Owner} {u d : Fd} {c : Conn} {addr : SocketAddr}

/-- The descriptor a client names is its own, or one the helper still has for it. -/
private theorem named_by (ho : Owned true (viewOf w) own) (hslot : w.slots d = .client c)
    (hup : c.upstream = some u) :
    (own u = .upstream d ∨ own u = .borrowed) ∧ w.slots u = .upstream d := by
  have hrole : (viewOf w).role d = .client (tiesOf c) := congrArg roleOf hslot
  cases hlent : c.upBorrowed with
  | false =>
      have hown := ho.attached d (tiesOf c) u hrole hup hlent
      have hfits := ho.fits u
      rw [hown] at hfits
      exact ⟨.inl hown, slot_upstream (hfits.2.2.1 rfl)⟩
  | true =>
      obtain ⟨hown, hnamed⟩ := (ho.awaiting d (tiesOf c) u hrole hup hlent).2.2.2 rfl
      exact ⟨.inr hown, slot_upstream hnamed⟩

theorem paired_of_owned (ho : Owned true (viewOf w) own) : Paired w := by
  have hidle : ∀ u addr, w.slots u = .idle addr → own u = .idle addr :=
    fun u addr hslot => ho.pooled u addr (congrArg roleOf hslot)
  refine ⟨fun u d => ⟨fun hslot => ?_, fun ⟨c, hc, hup⟩ => (named_by ho hc hup).2⟩,
    fun u addr => ⟨fun hslot => ?_, fun hheld => ?_⟩, fun u addr hslot => ?_, fun u hslot => ?_,
    fun u d d' c c' hc hc' hup hup' => ?_, fun u addr d c hheld hc hup => ?_,
    fun u addr addr' hheld hheld' => ?_⟩
  · obtain ⟨-, -, hclient, hties⟩ := ho.named u d (congrArg roleOf hslot)
    obtain ⟨t, ht⟩ := hclient rfl
    obtain ⟨c, hc, rfl⟩ := slot_client ht
    exact ⟨c, hc, (hties _ ht).1⟩
  · have hfits := ho.fits u
    rw [hidle u addr hslot] at hfits
    exact hfits.2.2.2.1
  · have hfits := ho.fits u
    rw [ho.held (addr, u) hheld] at hfits
    exact slot_idle (hfits.2.2.1 rfl)
  · have hfits := ho.fits u
    rw [hidle u addr hslot] at hfits
    have hnear := hfits.2.2.2.2
    exact ⟨(hnear .upRead).2 rfl, (hnear .upWrite).2 rfl⟩
  · have hrole : (viewOf w).role u = .abandoned := congrArg roleOf hslot
    have hfits := ho.fits u
    cases hown : own u with
    | nobody =>
        rw [hown] at hfits
        rw [hfits.2.2.2 rfl] at hrole
        cases hrole
    | fixture =>
        rw [hown] at hfits
        rw [hfits.2.2.2 rfl] at hrole
        cases hrole
    | client =>
        rw [hown] at hfits
        obtain ⟨-, t, ht, -⟩ := hfits
        rw [ht] at hrole
        cases hrole
    | admin =>
        rw [hown] at hfits
        obtain ⟨-, r, w, ha, -⟩ := hfits
        rw [ha] at hrole
        cases hrole
    | upstream d =>
        rw [hown] at hfits
        rw [hfits.2.2.1 rfl] at hrole
        cases hrole
    | idle addr =>
        rw [hown] at hfits
        rw [hfits.2.2.1 rfl] at hrole
        cases hrole
    | borrowed =>
        rw [hown] at hfits
        exact hfits.2.2.2.1
    | lost =>
        rw [hown] at hfits
        cases hfits.1
  · have hslot := (named_by ho hc hup).2
    rw [(named_by ho hc' hup').2] at hslot
    exact (Slot.upstream.inj hslot).symm
  · have hown := ho.held (addr, u) hheld
    rcases (named_by ho hc hup).1 with hmine | hlent
    · rw [hown] at hmine
      cases hmine
    · rw [hown] at hlent
      cases hlent
  · have hown := ho.held (addr, u) hheld
    rw [ho.held (addr', u) hheld'] at hown
    exact (Owner.idle.inj hown).symm

end Owners

section Runs

variable {env : Outside} {m m' : Machine} {a : Act}

/-- A step that begins no drain while there is a tunnel, and whose completion comes in time. -/
def Whole (m : Machine) (a : Act) : Prop := ¬ Cuts m a ∧ OnTime m a

theorem step_whole (h : Coherent true m) (hwhole : Whole m a) (hstep : step env m a = some m') :
    Coherent true m' := by
  obtain ⟨-, s', hs', hcoherent⟩ := coherent_step h composed_free hwhole.2 hstep
  rcases hs' with rfl | hcuts
  · exact hcoherent
  · exact absurd hcuts hwhole.1

/-- In every run in which no drain begins while there is a tunnel, every descriptor has one role
and both sides of every pair agree on it. -/
theorem paired_of_whole (env : Outside) (config : Config) (fixtures : Fixtures)
    (pool : Nat × Nat) (routes : Snapshot) (routeSlots : Nat → RouteSlot) (inflight : Nat → Nat)
    (acts : List Act)
    (hwhole : Meets (step env) Whole
      (begun config fixtures pool routes routeSlots inflight) acts) :
    Always (step env) (fun m => Paired m.world)
      (begun config fixtures pool routes routeSlots inflight) acts := by
  have hpaired : ∀ m, Coherent true m → Paired m.world := by
    intro m h
    obtain ⟨own, ho⟩ := h.kept.owned
    exact paired_of_owned ho
  exact always_of_meets (fun _ _ _ => step_whole) hpaired begun_coherent hwhole

attribute [local instance] fdRoom

/-- A client asks for an upgrade, and its upstream agrees to one. -/
def upgraded : List Act :=
  let dialled := { leastAnswers with connect := some (6, true) }
  let request := ascii "GET / HTTP/1.1\r\nHost: a\r\nConnection: upgrade\r\nUpgrade: x\r\n\r\n"
  let response := ascii "HTTP/1.1 101 \r\nConnection: upgrade\r\nUpgrade: x\r\n\r\n"
  [.complete (leastOp .accept 3 0 0) (.accepted 5) leastAnswers,
    .complete (leastOp .downRead 5 1 1) (.read request) leastAnswers,
    .turn dialled, .turn leastAnswers, .turn leastAnswers, .turn leastAnswers,
    .send 6 response, .complete (leastOp .upRead 6 0 1) (.read response) leastAnswers,
    .turn leastAnswers, .turn leastAnswers, .turn leastAnswers]

/-- Whether a step begins a drain. -/
def drains : Act → Bool
  | .drain _ => true
  | _ => false

theorem paired_of_upgraded :
    Always (step leastOutside) (fun m => Paired m.world) leastCore upgraded := by
  have hcheck : ∀ m a, (!drains a && comesInTime m a) = true → Whole m a := by
    intro m a hserves
    obtain ⟨hdrains, hcomes⟩ := (Bool.and_eq_true ..).mp hserves
    refine ⟨?_, onTime_of_comes hcomes⟩
    cases a with
    | drain ans => cases hdrains
    | _ => exact id
  have hwhole : checks (step leastOutside) (fun m a => !drains a && comesInTime m a)
      leastCore upgraded = true := by
    decide +kernel
  exact paired_of_whole leastOutside leastConfig leastFixtures (1, 1) leastSnapshot (fun _ => {})
    (fun _ => 0) _ (meets_of_checks hcheck hwhole)

/-- Whether nothing is left to do and a slot says upstream where no client is behind it. -/
def forsakes (up down : Fd) (m : Machine) : Bool :=
  m.tasks.isEmpty && (match m.world.slots up with
    | .upstream d => d == down
    | _ => false) &&
  (m.world.slots down).leaves.isEmpty

theorem not_paired_of_drain :
    ∃ m, run (step leastOutside) leastCore (upgraded ++ [.stop, .drain leastAnswers]) = some m ∧
      m.tasks.isEmpty ∧ ¬ Paired m.world := by
  have hforsaken : (run (step leastOutside) leastCore
      (upgraded ++ [.stop, .drain leastAnswers])).any (forsakes 6 5) = true := by
    decide +kernel
  obtain ⟨m, hm, hforsakes⟩ := (Option.any_eq_true ..).mp hforsaken
  simp only [forsakes, Bool.and_eq_true] at hforsakes
  obtain ⟨⟨hidle, hup⟩, hdown⟩ := hforsakes
  refine ⟨m, hm, hidle, fun hpaired => ?_⟩
  split at hup
  · rename_i d hslot
    obtain ⟨c, hc, -⟩ := (hpaired.attached 6 d).mp hslot
    rw [beq_iff_eq.mp hup] at hc
    rw [hc] at hdown
    cases hdown
  · cases hup

end Runs

end Ramjet.Engine.Worker.Pairing
