/- digest: The certificate a name is given, and the virtual host a request for that name finds. -/

import Ramjet.Controller.Totality

set_option autoImplicit false
set_option relaxedAutoImplicit false

namespace Ramjet.Controller.ServedCertificates

open Ramjet.Base.Octets
open Ramjet.Base.AssocMap
open Ramjet.Router.Host
open Ramjet.Router.Rule
open Ramjet.Router.Table
open Ramjet.Router.Builder
open Ramjet.Router.Reference
open Ramjet.Router.BuiltTable
open Ramjet.Router.RoutingAgreement
open Ramjet.Controller.Registration
open Ramjet.Controller.Totality

section Slots

/-- The slot a name falls to where only some slots are taken. -/
def slotAt (taken : HostSlot → Bool) (header : Bytes) : Option HostSlot :=
  let rest := if taken .catchAll then some .catchAll else none
  match scanName header with
  | none => rest
  | some name =>
      if taken (.exact name) then some (.exact name)
      else
        match parentDomain name with
        | none => rest
        | some parent => if taken (.wildcard parent) then some (.wildcard parent) else rest

/-- The slot a request's virtual host is found at. -/
def servedSlot (t : RouteTable) (header : Bytes) : Option HostSlot :=
  slotAt (fun slot => (vhostAt t slot).isSome) header

theorem slotAt_congr {taken taken' : HostSlot → Bool} (h : ∀ slot, taken slot = taken' slot)
    (header : Bytes) : slotAt taken header = slotAt taken' header := by
  have heq : taken = taken' := funext h
  rw [heq]

/-- A scan leaves nothing too long to be folded. -/
theorem foldLower_of_scan {header name : Bytes} (h : scan header = .fold name) :
    ∃ folded, foldLower name = some folded := by
  have hlen : name.length ≤ MAX_HOST_LEN := by
    unfold scan at h
    split at h
    · cases h
    · rename_i stop upper hend
      dsimp only at h
      generalize hcut : (if 1 < stop ∧ header[stop - 1]? = some 46 then stop - 1 else stop) = cut at h
      split at h
      · cases h
      · rename_i hfits
        split at h
        · cases h
          have htake := List.length_take_le cut header
          omega
        · cases h
  exact ⟨_, if_pos hlen⟩

theorem scanName_resolve (m : SniMap) (header : Bytes) :
    m.resolve header = match scanName header with
      | some name => m.resolveNormalized name
      | none => m.default := by
  unfold SniMap.resolve scanName
  cases hscan : scan header with
  | clean name => rfl
  | invalid => rfl
  | fold name =>
      obtain ⟨folded, hfold⟩ := foldLower_of_scan hscan
      simp [hfold]

/-- What is found at the slot a name falls to: the exact name first, then the wildcard one label
up, then the catch-all. -/
theorem slotAt_bind {α β : Type} (look : HostSlot → Option α) (f : HostSlot → α → β)
    (header : Bytes) :
    ((slotAt (fun slot => (look slot).isSome) header).bind fun slot => (look slot).map (f slot)) =
      match scanName header with
      | none => (look .catchAll).map (f .catchAll)
      | some name =>
          match look (.exact name) with
          | some a => some (f (.exact name) a)
          | none =>
              match (parentDomain name).bind fun p => (look (.wildcard p)).map (f (.wildcard p)) with
              | some found => some found
              | none => (look .catchAll).map (f .catchAll) := by
  have hrest : ((if (look .catchAll).isSome then some HostSlot.catchAll else none).bind
      fun slot => (look slot).map (f slot)) = (look .catchAll).map (f .catchAll) := by
    cases h : look .catchAll <;> simp [h]
  unfold slotAt
  cases scanName header with
  | none => exact hrest
  | some name =>
      cases hexact : look (.exact name) with
      | some a => simp [hexact]
      | none =>
          cases hparent : parentDomain name with
          | none => simpa [hexact, hparent] using hrest
          | some parent =>
              cases hwild : look (.wildcard parent) with
              | some a => simp [hexact, hparent, hwild]
              | none => simpa [hexact, hparent, hwild] using hrest

/-- A certificate is the one of the slot the name falls to among those that have one. -/
theorem resolve_eq (m : SniMap) (header : Bytes) :
    m.resolve header = (slotAt (fun slot => (sniAt m slot).isSome) header).bind (sniAt m) := by
  have hbind := slotAt_bind (sniAt m) (fun _ key => key) header
  simp only [Option.map_id'] at hbind
  rw [hbind, scanName_resolve]
  cases scanName header with
  | none => rfl
  | some name =>
      dsimp only
      unfold SniMap.resolveNormalized
      cases hexact : get m.exact name with
      | some key => simp [sniAt, hexact]
      | none =>
          cases hparent : parentDomain name with
          | none => simp [sniAt, hexact]
          | some parent =>
              cases hwild : get m.wildcard parent with
              | some key => simp [sniAt, hexact, hwild]
              | none => simp [sniAt, hexact, hwild]

/-- The virtual host a header selects is the one of the slot it falls to. -/
theorem selected_servedSlot (t : RouteTable) (header : Bytes) :
    selected t header = (servedSlot t header).bind fun slot =>
      (vhostAt t slot).map fun v => (v, hostMatchOf slot) := by
  have hbind := slotAt_bind (vhostAt t) (fun slot v => (v, hostMatchOf slot)) header
  unfold servedSlot
  rw [hbind]
  unfold selected
  cases scanName header with
  | none => rfl
  | some name =>
      dsimp only
      unfold RouteTable.selectHost
      cases hexact : get t.hosts name with
      | some v => simp [vhostAt, hexact, hostMatchOf]
      | none =>
          cases hparent : parentDomain name with
          | none => simp [vhostAt, hexact, hostMatchOf]
          | some parent =>
              cases hwild : get t.wildcardHosts parent with
              | some v => simp [vhostAt, hexact, hwild, hostMatchOf]
              | none => simp [vhostAt, hexact, hwild, hostMatchOf]

end Slots

section Calls

variable (rx : RegexEngine)

/-- The certificate one call registers for a slot. -/
def certified (slot : HostSlot) : BuilderCall → Option Nat
  | .certificate host key =>
      match normalizeConfigHost host with
      | .ok s => if s = slot then some key else none
      | .error _ => none
  | .defaultCertificate key => if slot = .catchAll then some key else none
  | _ => none

/-- The certificate registered last for a slot. -/
def registered (cs : List BuilderCall) (slot : HostSlot) : Option Nat :=
  cs.reverse.findSome? (certified slot)

theorem tlsAt_call (b : RouteTableBuilder) (c : BuilderCall) (slot : HostSlot) :
    tlsAt (b.call rx c) slot = (certified slot c).or (tlsAt b slot) := by
  cases c with
  | generation n => cases slot <;> rfl
  | defaultBackend name => cases slot <;> rfl
  | backendWith name endpoints options =>
      simp only [RouteTableBuilder.call, RouteTableBuilder.attempt, RouteTableBuilder.backendWith]
      cases contains b.backendIds name <;> cases slot <;> rfl
  | routeWith host path pathType backend options =>
      simp only [RouteTableBuilder.call, RouteTableBuilder.attempt]
      cases h : b.routeWith rx host path pathType backend options with
      | error err => rfl
      | ok b' =>
          obtain ⟨d, canary, mirror, -, rfl⟩ := routeWith_spec rx h
          cases slot <;> rfl
  | certificate host key =>
      simp only [RouteTableBuilder.call, RouteTableBuilder.attempt, certified]
      rcases certificate_cases b host key with ⟨err, hhost, hcert⟩ | ⟨s, b', hhost, hcert, -, htls⟩
      · rw [hcert, hhost]
        rfl
      · rw [hcert, hhost]
        dsimp only
        rw [htls slot]
        by_cases hs : s = slot
        · rw [if_pos hs.symm, if_pos hs]
          rfl
        · rw [if_neg (Ne.symm hs), if_neg hs]
          rfl
  | defaultCertificate key => cases slot <;> rfl

theorem tlsAt_calls (b : RouteTableBuilder) (cs : List BuilderCall) (slot : HostSlot) :
    tlsAt (b.calls rx cs) slot = (registered cs slot).or (tlsAt b slot) := by
  induction cs generalizing b with
  | nil => rfl
  | cons c rest ih =>
      have hcons : b.calls rx (c :: rest) = (b.call rx c).calls rx rest := rfl
      rw [hcons, ih, tlsAt_call]
      unfold registered
      rw [List.reverse_cons, List.findSome?_append, Option.or_assoc, List.findSome?_singleton]

theorem sniAt_built {b : RouteTableBuilder} {t : RouteTable} (h : b.build = .ok t)
    (slot : HostSlot) : sniAt t.tls slot = tlsAt b slot := by
  rw [build_tls h]
  cases slot <;> rfl

theorem tlsAt_start {start : RouteTableBuilder} (h : Starts start) (slot : HostSlot) :
    tlsAt start slot = none := by
  cases h <;> cases slot <;> rfl

end Calls

section Following

variable (rx : RegexEngine)

/-- Where certificates and routes were registered for the same slots, a name is given the
certificate of the slot at which a request for it finds its virtual host. -/
theorem certificate_follows_host {start : RouteTableBuilder} (hstart : Starts start)
    (cs : List BuilderCall) {t : RouteTable} (hbuild : (start.calls rx cs).build = .ok t)
    (hsame : ∀ slot, slot ∈ (start.calls rx cs).routes.map (·.slot) ↔
      (registered cs slot).isSome = true) (name path : Bytes) :
    t.tls.resolve name = (servedSlot t name).bind (registered cs) ∧
      t.matchRequest rx name path =
        match (servedSlot t name).bind fun slot => (vhostAt t slot).map fun v => (v, slot) with
        | none => t.defaultResult
        | some (v, slot) =>
            match v.matchPath rx path with
            | some rule => t.hit rule (hostMatchOf slot)
            | none => t.defaultResult := by
  have hsni : ∀ slot, sniAt t.tls slot = registered cs slot := by
    intro slot
    rw [sniAt_built hbuild, tlsAt_calls, tlsAt_start hstart, Option.or_none]
  constructor
  · have hslots : slotAt (fun slot => (sniAt t.tls slot).isSome) name = servedSlot t name := by
      apply slotAt_congr
      intro slot
      rw [hsni slot, Bool.eq_iff_iff, ← hsame slot]
      exact (vhostAt_isSome_iff hbuild slot).symm
    have heq : sniAt t.tls = registered cs := funext hsni
    rw [resolve_eq, hslots, heq]
  · rw [matchRequest_eq, selected_servedSlot]
    cases servedSlot t name with
    | none => rfl
    | some slot =>
        dsimp only [Option.bind_some]
        cases vhostAt t slot <;> rfl

/-- One host, one wildcard and the catch-all, each spelled twice. -/
def alikeCalls : List BuilderCall :=
  [.backendWith (ascii "web") [] {},
    .routeWith (some (ascii "A.Example.com.")) (ascii "/") .prefixed (ascii "web") {},
    .routeWith (some (ascii "*.example.com")) (ascii "/") .prefixed (ascii "web") {},
    .routeWith none (ascii "/") .prefixed (ascii "web") {},
    .certificate (ascii "a.example.COM") 1, .certificate (ascii "*.Example.com.") 2,
    .defaultCertificate 3]

theorem certificate_follows_host_alike :
    ∃ t, (({} : RouteTableBuilder).calls literalEngine alikeCalls).build = .ok t ∧
      t.tls.resolve (ascii "B.example.com.:443") =
        (servedSlot t (ascii "B.example.com.:443")).bind (registered alikeCalls) := by
  have hbuild : ((({} : RouteTableBuilder).calls literalEngine alikeCalls).build).toOption.isSome
      = true := by decide +kernel
  obtain ⟨t, ht⟩ : ∃ t, (({} : RouteTableBuilder).calls literalEngine alikeCalls).build = .ok t := by
    cases h : (({} : RouteTableBuilder).calls literalEngine alikeCalls).build with
    | ok t => exact ⟨t, rfl⟩
    | error e =>
        rw [h] at hbuild
        cases hbuild
  have hslots : (({} : RouteTableBuilder).calls literalEngine alikeCalls).routes.map (·.slot) =
      [.exact (ascii "a.example.com"), .wildcard (ascii "example.com"), .catchAll] := by
    decide +kernel
  have hkeys : ∀ slot, registered alikeCalls slot =
      if slot = .catchAll then some 3 else if slot = .wildcard (ascii "example.com") then some 2
      else if slot = .exact (ascii "a.example.com") then some 1 else none := by
    intro slot
    have hexact : normalizeConfigHost (ascii "a.example.COM") = .ok (.exact (ascii "a.example.com")) := by
      decide +kernel
    have hwild : normalizeConfigHost (ascii "*.Example.com.") = .ok (.wildcard (ascii "example.com")) := by
      decide +kernel
    simp only [registered, alikeCalls, List.reverse_cons, List.reverse_nil, List.nil_append,
      List.cons_append, List.findSome?, certified, hexact, hwild]
    by_cases h : slot = .catchAll
    · simp [h]
    · by_cases h' : slot = .wildcard (ascii "example.com")
      · simp [h']
      · by_cases h'' : slot = .exact (ascii "a.example.com")
        · simp [h'']
        · simp [h, Ne.symm h', Ne.symm h'', h', h'']
  refine ⟨t, ht, (certificate_follows_host literalEngine .fresh alikeCalls ht ?_ _ (ascii "/")).1⟩
  intro slot
  rw [hslots, hkeys slot]
  simp only [List.mem_cons, List.not_mem_nil, or_false]
  by_cases h : slot = .catchAll
  · simp [h]
  · by_cases h' : slot = .wildcard (ascii "example.com")
    · simp [h']
    · by_cases h'' : slot = .exact (ascii "a.example.com") <;> simp [h, h', h'']

end Following

end Ramjet.Controller.ServedCertificates
