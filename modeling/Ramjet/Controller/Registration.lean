/- digest: What registering backends, routes and certificates does to the builder. -/

import Ramjet.Controller.Claims
import Ramjet.Controller.Translate
import Ramjet.Router.BuiltTable

set_option autoImplicit false
set_option relaxedAutoImplicit false

namespace Ramjet.Controller.Registration

open Ramjet.Base.Octets
open Ramjet.Base.Text
open Ramjet.Base.Outcome
open Ramjet.Base.AssocMap
open Ramjet.Router.Balancing
open Ramjet.Router.Rule
open Ramjet.Router.Table
open Ramjet.Router.Builder
open Ramjet.Router.BuiltTable
open Ramjet.Controller.Objects
open Ramjet.Controller.Annotations
open Ramjet.Controller.Config
open Ramjet.Controller.Endpoints
open Ramjet.Controller.Secrets
open Ramjet.Controller.Warnings
open Ramjet.Controller.Plan
open Ramjet.Controller.Translate
open Ramjet.Controller.Claims

section Hosts

/-- The host a slot was filed for. -/
def hostOfSlot : HostSlot → Option Bytes
  | .exact name => some name
  | .wildcard parent => some (ascii "*." ++ parent)
  | .catchAll => none

private theorem toAsciiLowercase_idem (c : UInt8) :
    toAsciiLowercase (toAsciiLowercase c) = toAsciiLowercase c := by
  by_cases hupper : 65 ≤ c ∧ c ≤ 90
  · have hlower : toAsciiLowercase c = c + 32 := if_pos hupper
    rw [hlower]
    refine if_neg ?_
    rintro ⟨-, hle⟩
    have h1 : 65 ≤ c.toNat := hupper.1
    have h2 : c.toNat ≤ 90 := hupper.2
    have h3 : (c + 32).toNat ≤ 90 := hle
    rw [UInt8.toNat_add] at h3
    have h32 : (32 : UInt8).toNat = 32 := rfl
    omega
  · have hsame : toAsciiLowercase c = c := if_neg hupper
    rw [hsame, hsame]

/-- A normalised host is in lower case and does not end in a dot. -/
private theorem normal_spec {h : Bytes} (hn : Normal (some h)) :
    h.map toAsciiLowercase = h ∧ h.rdropWhile (· == 46) = h := by
  obtain ⟨raw, hraw⟩ := hn
  unfold normalizeHost at hraw
  split at hraw
  · cases hraw
  · rename_i text
    dsimp only at hraw
    split at hraw
    · cases hraw
    · rename_i hne
      injection hraw with hraw
      subst hraw
      refine ⟨by simp [toAsciiLowercase_idem], ?_⟩
      rw [List.rdropWhile_eq_self_iff]
      intro hnil hdot
      have hlast := List.rdropWhile_last_not (· == 46) (trim text) (by simpa using hne)
      refine hlast ?_
      rw [List.getLast_map] at hdot
      exact beq_iff_eq.mpr (toAsciiLowercase_eq_dot (beq_iff_eq.mp hdot))

/-- The slot of a normalised host tells the host. -/
theorem hostOfSlot_draftSlot {host : Option Bytes} {slot : HostSlot} (hn : Normal host)
    (h : draftSlot host = .ok slot) : hostOfSlot slot = host := by
  cases host with
  | none =>
      cases h
      rfl
  | some name =>
      obtain ⟨hlower, hdots⟩ := normal_spec hn
      simp only [draftSlot, normalizeConfigHost, hdots] at h
      split at h
      · cases h
      split at h
      · rename_i hstar
        obtain ⟨lowered, hname, rfl⟩ := map_eq_ok.mp h
        obtain ⟨-, rfl⟩ := configName_spec hname
        obtain ⟨rest, rfl⟩ := List.isPrefixOf_iff_prefix.mp hstar
        have hrest : (ascii "*." ++ rest).drop 2 = rest := rfl
        rw [List.map_append] at hlower
        have hstars : (ascii "*.").map toAsciiLowercase = ascii "*." := rfl
        rw [hstars, List.append_cancel_left_eq] at hlower
        rw [hostOfSlot, hrest, hlower]
      · obtain ⟨lowered, hname, rfl⟩ := map_eq_ok.mp h
        obtain ⟨-, rfl⟩ := configName_spec hname
        rw [hostOfSlot, hlower]

end Hosts

section Backends

/-- A name is registered exactly when an id has been given out for it. -/
theorem get_isSome_iff_registered {b : RouteTableBuilder} (hb : BuilderOk b) (name : Bytes) :
    (get b.backendIds name).isSome = true ↔ name ∈ b.backends.map (·.name) := by
  rw [hb.ids, Option.isSome_map, List.findIdx?_isSome, List.any_eq_true, List.mem_map]
  simp

/-- What registering backends leaves behind. -/
structure Registered (c c' : Compiling) (entries : List (ServiceRef × BackendProtocol)) : Prop where
  ok : BuilderOk c'.builder
  names : c'.builder.backends.map (·.name) =
    c.builder.backends.map (·.name) ++ entries.map (·.1.backendName)
  routes : c'.builder.routes = c.builder.routes
  default : c'.builder.defaultBackend = c.builder.defaultBackend
  warnings : conflicts c'.warnings = conflicts c.warnings
  kept : ∀ w ∈ c.warnings, w ∈ c'.warnings

private theorem quiet_resolveEndpoints (index : EndpointIndex) (target : ServiceRef) :
    Quiet (resolveEndpoints index target).2 := by
  unfold resolveEndpoints
  dsimp only
  split
  · dsimp only
    split <;> rfl
  · rfl

private theorem registerBackend_iff (index : EndpointIndex) (policy : LbPolicy) {c : Compiling}
    (hc : BuilderOk c.builder) (entry : ServiceRef × BackendProtocol) :
    (entry.1.backendName ∈ c.builder.backends.map (·.name) ∧
      registerBackend index policy c entry = .error (.duplicateBackend entry.1.backendName)) ∨
    (entry.1.backendName ∉ c.builder.backends.map (·.name) ∧
      ∃ c', registerBackend index policy c entry = .ok c' ∧ Registered c c' [entry]) := by
  by_cases hmem : entry.1.backendName ∈ c.builder.backends.map (·.name)
  · left
    have hcontains : contains c.builder.backendIds entry.1.backendName = true :=
      (get_isSome_iff_registered hc _).mpr hmem
    refine ⟨hmem, ?_⟩
    simp only [registerBackend, RouteTableBuilder.backendWith, hcontains]
    rfl
  · right
    have hcontains : contains c.builder.backendIds entry.1.backendName = false := by
      rw [Bool.eq_false_iff]
      exact fun h => hmem ((get_isSome_iff_registered hc _).mp h)
    have hquiet : conflicts (resolveEndpoints index entry.1).2 = [] :=
      quiet_resolveEndpoints index entry.1
    have hbuilder : c.builder.backendWith entry.1.backendName (resolveEndpoints index entry.1).1
        ⟨policy, entry.2⟩ = .ok { c.builder with
          backendIds := insert c.builder.backendIds entry.1.backendName
            (c.builder.backends.length % U32_SIZE)
          backends := c.builder.backends ++
            [⟨entry.1.backendName, ⟨policy, entry.2⟩, (resolveEndpoints index entry.1).1⟩] } := by
      simp [RouteTableBuilder.backendWith, hcontains]
    refine ⟨hmem, ⟨{ c.builder with
          backendIds := insert c.builder.backendIds entry.1.backendName
            (c.builder.backends.length % U32_SIZE)
          backends := c.builder.backends ++
            [⟨entry.1.backendName, ⟨policy, entry.2⟩, (resolveEndpoints index entry.1).1⟩] },
        digestBackend c.digest policy entry.1 entry.2 (resolveEndpoints index entry.1).1,
        c.warnings ++ (resolveEndpoints index entry.1).2⟩, ?_, ?_⟩
    · simp only [registerBackend, hbuilder]
      rfl
    · exact ⟨builderOk_backendWith hc hbuilder, by simp, rfl, rfl, by simp [hquiet],
        fun w hw => List.mem_append_left _ hw⟩

/-- Backends of distinct new names are all registered, in order. -/
theorem registerEach_of_nodup (index : EndpointIndex) (policy : LbPolicy)
    {entries : List (ServiceRef × BackendProtocol)} {c : Compiling} (hc : BuilderOk c.builder)
    (hnodup : (c.builder.backends.map (·.name) ++ entries.map (·.1.backendName)).Nodup) :
    ∃ c', registerEach index policy entries c = .ok c' ∧ Registered c c' entries := by
  induction entries generalizing c with
  | nil => exact ⟨c, rfl, hc, by simp, rfl, rfl, rfl, fun _ => id⟩
  | cons entry rest ih =>
      have hfresh : entry.1.backendName ∉ c.builder.backends.map (·.name) := by
        intro hmem
        exact (List.nodup_append.mp hnodup).2.2 _ hmem _ (by simp) rfl
      rcases registerBackend_iff index policy hc entry with ⟨hmem, -⟩ | ⟨-, c1, hc1, hreg⟩
      · exact absurd hmem hfresh
      · have hnodup' : (c1.builder.backends.map (·.name) ++
            rest.map (·.1.backendName)).Nodup := by
          rw [hreg.names]
          simpa using hnodup
        obtain ⟨c', hc', hreg'⟩ := ih hreg.ok hnodup'
        refine ⟨c', ?_, hreg'.ok, ?_, hreg'.routes.trans hreg.routes,
          hreg'.default.trans hreg.default, hreg'.warnings.trans hreg.warnings,
          fun w hw => hreg'.kept w (hreg.kept w hw)⟩
        · simp only [registerEach, hc1]
          exact hc'
        · rw [hreg'.names, hreg.names]
          simp

/-- A name registered twice fails the whole registration. -/
theorem nodup_of_registerEach {index : EndpointIndex} {policy : LbPolicy}
    {entries : List (ServiceRef × BackendProtocol)} {c c' : Compiling} (hc : BuilderOk c.builder)
    (hnames : (c.builder.backends.map (·.name)).Nodup)
    (h : registerEach index policy entries c = .ok c') :
    (c.builder.backends.map (·.name) ++ entries.map (·.1.backendName)).Nodup := by
  induction entries generalizing c with
  | nil => simpa using hnames
  | cons entry rest ih =>
      obtain ⟨c1, hc1, hrest⟩ := bind_eq_ok.mp h
      rcases registerBackend_iff index policy hc entry with ⟨-, herr⟩ | ⟨hfresh, c2, hc2, hreg⟩
      · rw [hc1] at herr
        cases herr
      · rw [hc1] at hc2
        cases hc2
        have hone : (c1.builder.backends.map (·.name)).Nodup := by
          rw [hreg.names]
          refine List.nodup_append.mpr ⟨hnames, by simp, ?_⟩
          intro a ha b hb hab
          rw [List.map_singleton, List.mem_singleton] at hb
          exact hfresh (hb ▸ hab ▸ ha)
        have hall := ih hreg.ok hone hrest
        rw [hreg.names] at hall
        simpa using hall

end Backends

section Routes

variable (rx : RegexEngine)

/-- The draft of a planned route without its optional parts. -/
def plainDraft (plan : RoutePlan) : Except BuildError RouteDraft :=
  draft rx plan.key.host plan.key.path plan.key.pathType plan.backend.backendName

/-- The canary of a planned route, as the router takes it. -/
def draftedCanary (plan : RoutePlan) (slot : HostSlot) : Except BuildError (Option CanaryDraft) :=
  optional (fun c => canaryDraft rx (canaryRulesOf c) slot plan.key.path) plan.canary

/-- The mirror of a planned route, as the router takes it. -/
def draftedMirror (plan : RoutePlan) (slot : HostSlot) : Except BuildError (Option MirrorDraft) :=
  optional (fun m => mirrorDraft (mirrorRulesOf m) slot plan.key.path) plan.mirror

/-- The draft a planned route is registered as: both optional parts, or neither. -/
def finalDraft (plan : RoutePlan) : Option RouteDraft :=
  match plainDraft rx plan with
  | .error _ => none
  | .ok d =>
      match draftedCanary rx plan d.slot, draftedMirror plan d.slot with
      | .ok canary, .ok mirror => some { d with canary := canary, mirror := mirror }
      | _, _ => some d

private theorem optional_map {α β γ ε : Type} (f : β → Except ε γ) (g : α → β) (o : Option α) :
    optional f (o.map g) = optional (fun a => f (g a)) o := by
  cases o <;> rfl

private theorem registerPlan_full (plan : RoutePlan) (b : RouteTableBuilder) :
    registerPlan rx plan (optionsOf plan) b =
      (do
        let d ← plainDraft rx plan
        let canary ← draftedCanary rx plan d.slot
        let mirror ← draftedMirror plan d.slot
        return { b with routes := b.routes ++ [{ d with canary := canary, mirror := mirror }] }) := by
  simp only [registerPlan, RouteTableBuilder.routeWith, optionsOf, optional_map]
  rfl

private theorem registerPlan_plain (plan : RoutePlan) (b : RouteTableBuilder) :
    registerPlan rx plan {} b =
      (do
        let d ← plainDraft rx plan
        return { b with routes := b.routes ++ [{ d with canary := none, mirror := none }] }) := rfl

theorem plainDraft_spec {plan : RoutePlan} {d : RouteDraft}
    (h : plainDraft rx plan = .ok d) : d.canary = none ∧ d.mirror = none := by
  obtain ⟨slot, -, h⟩ := bind_eq_ok.mp h
  obtain ⟨regex, -, h⟩ := bind_eq_ok.mp h
  cases h
  exact ⟨rfl, rfl⟩

/-- What registering one planned route does, case by case. -/
inductive Outcome (plan : RoutePlan) (c c' : Compiling) : Prop where
  | refused (err : BuildError) (hplain : plainDraft rx plan = .error err)
      (hbuilder : c'.builder = c.builder)
      (hwarnings : c'.warnings =
        c.warnings ++ droppedWarnings plan err ++ [⟨plan.owner, .routeRefused plan.key err⟩])
  | whole (d : RouteDraft) (canary : Option CanaryDraft) (mirror : Option MirrorDraft)
      (hplain : plainDraft rx plan = .ok d)
      (hcanary : draftedCanary rx plan d.slot = .ok canary)
      (hmirror : draftedMirror plan d.slot = .ok mirror)
      (hbuilder : c'.builder = { c.builder with
        routes := c.builder.routes ++ [{ d with canary := canary, mirror := mirror }] })
      (hwarnings : c'.warnings = c.warnings)
  | stripped (d : RouteDraft) (err : BuildError) (hplain : plainDraft rx plan = .ok d)
      (hparts : draftedCanary rx plan d.slot = .error err ∨
        ∃ canary, draftedCanary rx plan d.slot = .ok canary ∧
          draftedMirror plan d.slot = .error err)
      (hbuilder : c'.builder = { c.builder with routes := c.builder.routes ++ [d] })
      (hwarnings : c'.warnings = c.warnings ++ droppedWarnings plan err)

theorem registerRoute_outcome (c : Compiling) (plan : RoutePlan) :
    Outcome rx plan c (registerRoute rx c plan) := by
  unfold registerRoute
  rw [registerPlan_full, registerPlan_plain]
  cases hplain : plainDraft rx plan with
  | error err => exact .refused err hplain rfl rfl
  | ok d =>
      obtain ⟨hnone, hnone'⟩ := plainDraft_spec rx hplain
      have hbare : { d with canary := none, mirror := none } = d := by
        rw [← hnone, ← hnone']
      cases hcanary : draftedCanary rx plan d.slot with
      | error err =>
          refine .stripped d err hplain (Or.inl hcanary) ?_ ?_
          · simp [bind, Except.bind, hcanary, pure, Except.pure, hbare]
          · simp [bind, Except.bind, hcanary, pure, Except.pure]
      | ok canary =>
          cases hmirror : draftedMirror plan d.slot with
          | error err =>
              refine .stripped d err hplain (Or.inr ⟨canary, hcanary, hmirror⟩) ?_ ?_
              · simp [bind, Except.bind, hcanary, hmirror, pure, Except.pure, hbare]
              · simp [bind, Except.bind, hcanary, hmirror, pure, Except.pure]
          | ok mirror =>
              refine .whole d canary mirror hplain hcanary hmirror ?_ ?_
              · simp [bind, Except.bind, hcanary, hmirror, pure, Except.pure]
              · simp [bind, Except.bind, hcanary, hmirror, pure, Except.pure]

private theorem Outcome.builder_eq {plan : RoutePlan} {c c' : Compiling}
    (h : Outcome rx plan c c') :
    c'.builder = { c.builder with
      routes := c.builder.routes ++ (finalDraft rx plan).toList } := by
  cases h with
  | refused err hplain hbuilder _ => simp [finalDraft, hplain, hbuilder]
  | whole d canary mirror hplain hcanary hmirror hbuilder _ =>
      simp [finalDraft, hplain, hcanary, hmirror, hbuilder]
  | stripped d err hplain hparts hbuilder _ =>
      rcases hparts with hcanary | ⟨canary, hcanary, hmirror⟩
      · simp [finalDraft, hplain, hcanary, hbuilder]
      · simp [finalDraft, hplain, hcanary, hmirror, hbuilder]

private theorem quiet_droppedWarnings (plan : RoutePlan) (err : BuildError) :
    Quiet (droppedWarnings plan err) :=
  (quiet_map (fun _ => rfl) _).append (quiet_map (fun _ => rfl) _)

private theorem Outcome.warnings_eq {plan : RoutePlan} {c c' : Compiling}
    (h : Outcome rx plan c c') : ∃ ws, c'.warnings = c.warnings ++ ws ∧ Quiet ws := by
  cases h with
  | refused err _ _ hwarnings =>
      exact ⟨droppedWarnings plan err ++ [⟨plan.owner, .routeRefused plan.key err⟩],
        by rw [hwarnings, List.append_assoc],
        (quiet_droppedWarnings plan err).append (quiet_singleton rfl)⟩
  | whole _ _ _ _ _ _ _ hwarnings => exact ⟨[], by simp [hwarnings], quiet_nil⟩
  | stripped d err _ _ _ hwarnings =>
      exact ⟨droppedWarnings plan err, hwarnings, quiet_droppedWarnings plan err⟩

/-- Registering planned routes appends their drafts, in order, and says only what it drops. -/
theorem registerPlans_spec (plans : List RoutePlan) (c : Compiling) :
    (plans.foldl (registerRoute rx) c).builder = { c.builder with
      routes := c.builder.routes ++ plans.filterMap (finalDraft rx) } ∧
    ∃ ws, (plans.foldl (registerRoute rx) c).warnings = c.warnings ++ ws ∧ Quiet ws := by
  induction plans generalizing c with
  | nil => exact ⟨by simp, [], by simp, quiet_nil⟩
  | cons plan rest ih =>
      have hone := registerRoute_outcome rx c plan
      obtain ⟨hbuilder, ws, hws, hquiet⟩ := ih (registerRoute rx c plan)
      obtain ⟨ws', hws', hquiet'⟩ := hone.warnings_eq
      refine ⟨?_, ws' ++ ws, ?_, hquiet'.append hquiet⟩
      · rw [List.foldl_cons, hbuilder, hone.builder_eq, List.filterMap_cons]
        cases finalDraft rx plan <;> simp
      · rw [List.foldl_cons, hws, hws', List.append_assoc]

/-- Somewhere in the run each planned route met its own outcome. -/
theorem registerPlans_outcome {plans : List RoutePlan} {plan : RoutePlan} (hplan : plan ∈ plans)
    (c : Compiling) :
    ∃ before after, Outcome rx plan before after ∧
      ∀ w ∈ after.warnings, w ∈ (plans.foldl (registerRoute rx) c).warnings := by
  obtain ⟨pre, post, rfl⟩ := List.append_of_mem hplan
  refine ⟨pre.foldl (registerRoute rx) c, registerRoute rx (pre.foldl (registerRoute rx) c) plan,
    registerRoute_outcome rx _ plan, fun w hw => ?_⟩
  rw [List.foldl_append, List.foldl_cons]
  obtain ⟨-, ws, hws, -⟩ := registerPlans_spec rx post
    (registerRoute rx (pre.foldl (registerRoute rx) c) plan)
  rw [hws]
  exact List.mem_append_left _ hw

end Routes

section Certificates

/-- The certificate id a builder holds for a slot. -/
def tlsAt (b : RouteTableBuilder) : HostSlot → Option Nat
  | .exact h => get b.tlsExact h
  | .wildcard parent => get b.tlsWildcard parent
  | .catchAll => b.tlsDefault

/-- What registering certificates leaves alone. -/
structure SameRoutes (b b' : RouteTableBuilder) : Prop where
  backends : b'.backends = b.backends
  ids : b'.backendIds = b.backendIds
  routes : b'.routes = b.routes
  default : b'.defaultBackend = b.defaultBackend

private theorem SameRoutes.refl (b : RouteTableBuilder) : SameRoutes b b := ⟨rfl, rfl, rfl, rfl⟩

private theorem SameRoutes.trans {b b' b'' : RouteTableBuilder} (h : SameRoutes b b')
    (h' : SameRoutes b' b'') : SameRoutes b b'' :=
  ⟨h'.backends.trans h.backends, h'.ids.trans h.ids, h'.routes.trans h.routes,
    h'.default.trans h.default⟩

theorem SameRoutes.builderOk {b b' : RouteTableBuilder} (h : SameRoutes b b')
    (hb : BuilderOk b) : BuilderOk b' :=
  ⟨by rw [h.ids, h.backends]; exact hb.ids, by rw [h.routes]; exact hb.regex,
    by rw [h.routes]; exact hb.slots⟩

theorem certificate_cases (b : RouteTableBuilder) (host : Bytes) (id : Nat) :
    (∃ err, normalizeConfigHost host = .error err ∧ b.certificate host id = .error err) ∨
    ∃ slot b', normalizeConfigHost host = .ok slot ∧ b.certificate host id = .ok b' ∧
      SameRoutes b b' ∧ ∀ s, tlsAt b' s = if s = slot then some id else tlsAt b s := by
  unfold RouteTableBuilder.certificate
  cases hslot : normalizeConfigHost host with
  | error err => exact Or.inl ⟨err, rfl, rfl⟩
  | ok slot =>
      right
      refine ⟨slot, ?_⟩
      cases slot with
      | exact h =>
          refine ⟨_, rfl, rfl, ⟨rfl, rfl, rfl, rfl⟩, fun s => ?_⟩
          cases s <;> simp [tlsAt, get_insert]
      | wildcard h =>
          refine ⟨_, rfl, rfl, ⟨rfl, rfl, rfl, rfl⟩, fun s => ?_⟩
          cases s <;> simp [tlsAt, get_insert]
      | catchAll =>
          refine ⟨_, rfl, rfl, ⟨rfl, rfl, rfl, rfl⟩, fun s => ?_⟩
          cases s <;> simp [tlsAt]

/-- What registering one certificate does. -/
inductive CertOutcome (entry : Bytes × Nat × ObjectKey) (c c' : Compiling) : Prop where
  | refused (err : BuildError) (hhost : normalizeConfigHost entry.1 = .error err)
      (hbuilder : c'.builder = c.builder)
      (hwarnings : c'.warnings = c.warnings ++ [⟨entry.2.2, .tlsHostRefused entry.1 err⟩])
  | wired (slot : HostSlot) (hhost : normalizeConfigHost entry.1 = .ok slot)
      (hsame : SameRoutes c.builder c'.builder)
      (htls : ∀ s, tlsAt c'.builder s = if s = slot then some entry.2.1 else tlsAt c.builder s)
      (hwarnings : c'.warnings = c.warnings)

theorem registerCert_outcome (c : Compiling) (entry : Bytes × Nat × ObjectKey) :
    CertOutcome entry c (registerCert c entry) := by
  obtain ⟨host, id, owner⟩ := entry
  rcases certificate_cases c.builder host id with ⟨err, hhost, hcert⟩ |
    ⟨slot, b', hhost, hcert, hsame, htls⟩
  · refine .refused err hhost ?_ ?_ <;> simp [registerCert, hcert]
  · refine .wired slot hhost ?_ ?_ ?_
    · simpa [registerCert, hcert] using hsame
    · simpa [registerCert, hcert] using htls
    · simp [registerCert, hcert]

private theorem CertOutcome.keeps {entry : Bytes × Nat × ObjectKey} {c c' : Compiling}
    (h : CertOutcome entry c c') : SameRoutes c.builder c'.builder ∧
      (∃ ws, c'.warnings = c.warnings ++ ws ∧ Quiet ws) ∧
      ∀ s, normalizeConfigHost entry.1 ≠ .ok s → tlsAt c'.builder s = tlsAt c.builder s := by
  cases h with
  | refused err hhost hbuilder hwarnings =>
      exact ⟨hbuilder ▸ .refl _, ⟨_, hwarnings, quiet_singleton rfl⟩, fun s _ => by rw [hbuilder]⟩
  | wired slot hhost hsame htls hwarnings =>
      refine ⟨hsame, ⟨[], by simp [hwarnings], quiet_nil⟩, fun s hs => ?_⟩
      rw [htls, if_neg]
      rintro rfl
      exact hs hhost

theorem registerCerts_spec (entries : List (Bytes × Nat × ObjectKey)) (c : Compiling) :
    SameRoutes c.builder (entries.foldl registerCert c).builder ∧
      (∃ ws, (entries.foldl registerCert c).warnings = c.warnings ++ ws ∧ Quiet ws) ∧
      ∀ s, (∀ entry ∈ entries, normalizeConfigHost entry.1 ≠ .ok s) →
        tlsAt (entries.foldl registerCert c).builder s = tlsAt c.builder s := by
  induction entries generalizing c with
  | nil => exact ⟨.refl _, ⟨[], by simp, quiet_nil⟩, fun _ _ => rfl⟩
  | cons entry rest ih =>
      obtain ⟨hsame, ⟨ws, hws, hquiet⟩, htls⟩ := (registerCert_outcome c entry).keeps
      obtain ⟨hsame', ⟨ws', hws', hquiet'⟩, htls'⟩ := ih (registerCert c entry)
      refine ⟨hsame.trans hsame', ⟨ws ++ ws', ?_, hquiet.append hquiet'⟩, fun s hs => ?_⟩
      · rw [List.foldl_cons, hws', hws, List.append_assoc]
      · rw [List.foldl_cons, htls' s fun e he => hs e (by simp [he]), htls s (hs entry (by simp))]

/-- Every certificate of a host of its own is wired, or reported as refused. -/
theorem registerCerts_each {entries : List (Bytes × Nat × ObjectKey)}
    (hnormal : ∀ entry ∈ entries, Normal (some entry.1)) (hnodup : (entries.map (·.1)).Nodup)
    (c : Compiling) {entry : Bytes × Nat × ObjectKey} (hentry : entry ∈ entries) :
    (∃ err, normalizeConfigHost entry.1 = .error err ∧
      ⟨entry.2.2, .tlsHostRefused entry.1 err⟩ ∈ (entries.foldl registerCert c).warnings) ∨
    ∃ slot, normalizeConfigHost entry.1 = .ok slot ∧
      tlsAt (entries.foldl registerCert c).builder slot = some entry.2.1 := by
  obtain ⟨pre, post, rfl⟩ := List.append_of_mem hentry
  rw [List.foldl_append, List.foldl_cons]
  obtain ⟨-, ⟨ws, hws, -⟩, htls⟩ := registerCerts_spec post
    (registerCert (pre.foldl registerCert c) entry)
  cases registerCert_outcome (pre.foldl registerCert c) entry with
  | refused err hhost _ hwarnings =>
      left
      refine ⟨err, hhost, ?_⟩
      rw [hws, hwarnings]
      simp
  | wired slot hhost _ hslot _ =>
      right
      refine ⟨slot, hhost, ?_⟩
      rw [htls, hslot, if_pos rfl]
      -- A later entry of the same slot would have the same host.
      intro e he hslot'
      have hsame : some e.1 = some entry.1 := by
        rw [← hostOfSlot_draftSlot (hnormal e (by simp [he])) hslot',
          ← hostOfSlot_draftSlot (hnormal entry (by simp)) hhost]
      rw [List.map_append, List.map_cons, List.nodup_append, List.nodup_cons] at hnodup
      exact hnodup.2.1.1 (Option.some.inj hsame ▸ List.mem_map_of_mem he)

private theorem quiet_append_singleton {ws : List Warning} (h : Quiet ws) {w : Warning}
    (hw : isConflict w = false) : Quiet (ws ++ [w]) := h.append (quiet_singleton hw)

/-- The certificates wired so far are filed under normalised hosts of their own. -/
structure CertOk (state : CertState) : Prop where
  nodup : (state.byHost.map (·.1)).Nodup
  normal : ∀ h v, get state.byHost h = some v → Normal (some h)
  quiet : Quiet state.warnings

private theorem certOk_claim {state : CertState} (h : CertOk state) (owner : ObjectKey) (id : Nat)
    {host : Bytes} (hhost : Normal (some host)) : CertOk (claimCert owner id state host) := by
  unfold claimCert
  split
  · exact ⟨h.nodup, h.normal, quiet_append_singleton h.quiet rfl⟩
  · refine ⟨nodup_keys_insert h.nodup _ _, fun k v hk => ?_, h.quiet⟩
    by_cases hkey : k = host
    · exact hkey ▸ hhost
    · rw [get_insert, if_neg hkey] at hk
      exact h.normal k v hk

private theorem certOk_claims (owner : ObjectKey) (id : Nat) (hosts : List Bytes)
    (hhosts : ∀ host ∈ hosts, Normal (some host)) {state : CertState} (h : CertOk state) :
    CertOk (hosts.foldl (claimCert owner id) state) := by
  induction hosts generalizing state with
  | nil => exact h
  | cons host rest ih =>
      exact ih (fun x hx => hhosts x (by simp [hx])) (certOk_claim h owner id (hhosts host (by simp)))

private theorem certOk_readTls (secrets : SecretIndex) (owner : ObjectKey) {state : CertState}
    (h : CertOk state) (entry : IngressTLS) : CertOk (readTls secrets owner state entry) := by
  unfold readTls
  dsimp only
  split
  · exact ⟨h.nodup, h.normal, quiet_append_singleton h.quiet rfl⟩
  · split
    · exact ⟨h.nodup, h.normal, quiet_append_singleton h.quiet rfl⟩
    · split
      · exact ⟨h.nodup, h.normal, quiet_append_singleton h.quiet rfl⟩
      · rename_i material _
        have hclaims := certOk_claims owner material.handleId
          ((entry.hosts.getD []).filterMap fun h => normalizeHost (some h)) (by
            intro host hmem
            obtain ⟨raw, -, hraw⟩ := List.mem_filterMap.mp hmem
            exact ⟨some raw, hraw.symm⟩) h
        exact ⟨hclaims.nodup, hclaims.normal, hclaims.quiet⟩

private theorem certOk_readTlsOf (secrets : SecretIndex) {state : CertState} (h : CertOk state)
    (ingress : Ingress) : CertOk (readTlsOf secrets state ingress) := by
  have hfold : ∀ (entries : List IngressTLS) (state : CertState), CertOk state →
      CertOk (entries.foldl (readTls secrets (.of ingress.metadata)) state) := by
    intro entries
    induction entries with
    | nil => exact fun _ => id
    | cons entry rest ih => exact fun state h => ih _ (certOk_readTls secrets _ h entry)
  exact hfold _ state h

/-- The certificates of the managed Ingresses. -/
def wiredCerts (snapshot : ClusterSnapshot) (managed : List Ingress) : CertState :=
  managed.foldl (readTlsOf (SecretIndex.new snapshot.secrets)) {}

theorem certOk_wiredCerts (snapshot : ClusterSnapshot) (managed : List Ingress) :
    CertOk (wiredCerts snapshot managed) := by
  have hfold : ∀ (ingresses : List Ingress) (state : CertState), CertOk state →
      CertOk (ingresses.foldl (readTlsOf (SecretIndex.new snapshot.secrets)) state) := by
    intro ingresses
    induction ingresses with
    | nil => exact fun _ => id
    | cons ingress rest ih => exact fun state h => ih _ (certOk_readTlsOf _ h ingress)
  exact hfold managed {} ⟨by simp, by simp, quiet_nil⟩

/-- The hosts with a certificate, in registration order. -/
def wiredEntries (snapshot : ClusterSnapshot) (managed : List Ingress) :
    List (Bytes × Nat × ObjectKey) :=
  (wiredCerts snapshot managed).byHost.insertionSort fun a b => textKey a.1 ≤ textKey b.1

private theorem mem_wiredEntries {snapshot : ClusterSnapshot} {managed : List Ingress}
    {entry : Bytes × Nat × ObjectKey} (h : entry ∈ wiredEntries snapshot managed) :
    Normal (some entry.1) := by
  have hok := certOk_wiredCerts snapshot managed
  have hmem : entry ∈ (wiredCerts snapshot managed).byHost := (List.mem_insertionSort _).mp h
  exact hok.normal entry.1 entry.2 (get_of_mem hok.nodup hmem)

private theorem nodup_wiredEntries (snapshot : ClusterSnapshot) (managed : List Ingress) :
    ((wiredEntries snapshot managed).map (·.1)).Nodup :=
  ((List.perm_insertionSort _ _).map _).nodup_iff.mpr (certOk_wiredCerts snapshot managed).nodup

private theorem normalizeConfigHost_ne_catchAll {host : Bytes} :
    normalizeConfigHost host ≠ .ok .catchAll := by
  intro h
  simp only [normalizeConfigHost] at h
  split at h
  · cases h
  split at h <;> (obtain ⟨lowered, -, h⟩ := map_eq_ok.mp h; cases h)

/-- What registering the default certificate does, if there is one. -/
private theorem registerDefaultCert_spec (secrets : SecretIndex) (reference : Bytes)
    (state : Compiling × Map Nat CertMaterial) :
    SameRoutes state.1.builder (registerDefaultCert secrets reference state).1.builder ∧
      (∃ ws, (registerDefaultCert secrets reference state).1.warnings = state.1.warnings ++ ws ∧
        Quiet ws) ∧
      ∀ s, s ≠ .catchAll → tlsAt (registerDefaultCert secrets reference state).1.builder s =
        tlsAt state.1.builder s := by
  unfold registerDefaultCert
  dsimp only
  split
  · exact ⟨.refl _, ⟨_, rfl, quiet_singleton rfl⟩, fun _ _ => rfl⟩
  · split
    · exact ⟨.refl _, ⟨_, rfl, quiet_singleton rfl⟩, fun _ _ => rfl⟩
    · refine ⟨⟨rfl, rfl, rfl, rfl⟩, ⟨[], by simp, quiet_nil⟩, fun s hs => ?_⟩
      cases s with
      | exact h => rfl
      | wildcard h => rfl
      | catchAll => exact absurd rfl hs

/-- What registering every certificate does. -/
theorem registerCertificates_spec (snapshot : ClusterSnapshot) (opts : ControllerOpts)
    (managed : List Ingress) (c : Compiling) :
    SameRoutes c.builder (registerCertificates snapshot opts managed c).1.builder ∧
      (∃ ws, (registerCertificates snapshot opts managed c).1.warnings =
        c.warnings ++ ((wiredCerts snapshot managed).warnings ++ ws) ∧
          Quiet ((wiredCerts snapshot managed).warnings ++ ws)) ∧
      ∀ entry ∈ wiredEntries snapshot managed,
        (∃ err, normalizeConfigHost entry.1 = .error err ∧
          ⟨entry.2.2, .tlsHostRefused entry.1 err⟩ ∈
            (registerCertificates snapshot opts managed c).1.warnings) ∨
        ∃ slot, normalizeConfigHost entry.1 = .ok slot ∧
          tlsAt (registerCertificates snapshot opts managed c).1.builder slot =
            some entry.2.1 := by
  let warned := c.warn (wiredCerts snapshot managed).warnings
  let wired := (wiredEntries snapshot managed).foldl registerCert warned
  have hquiet := (certOk_wiredCerts snapshot managed).quiet
  obtain ⟨hsame, ⟨ws, hws, hws'⟩, -⟩ := registerCerts_spec (wiredEntries snapshot managed) warned
  have heach : ∀ entry ∈ wiredEntries snapshot managed, _ := fun entry hentry =>
    registerCerts_each (fun e he => mem_wiredEntries he) (nodup_wiredEntries snapshot managed)
      warned hentry
  -- The default certificate comes last and touches no named host.
  have hlast : ∃ materials : Compiling × Map Nat CertMaterial,
      (registerCertificates snapshot opts managed c).1 = materials.1 ∧
      SameRoutes wired.builder materials.1.builder ∧
      (∃ ws, materials.1.warnings = wired.warnings ++ ws ∧ Quiet ws) ∧
      ∀ s, s ≠ .catchAll → tlsAt materials.1.builder s = tlsAt wired.builder s := by
    cases hdefault : opts.defaultTlsSecret with
    | none =>
        refine ⟨(wired, (wiredCerts snapshot managed).materials), ?_, .refl _,
          ⟨[], by simp, quiet_nil⟩, fun _ _ => rfl⟩
        simp only [registerCertificates, hdefault]
        rfl
    | some reference =>
        refine ⟨registerDefaultCert (SecretIndex.new snapshot.secrets) reference
          (wired, (wiredCerts snapshot managed).materials), ?_,
          registerDefaultCert_spec _ reference (wired, (wiredCerts snapshot managed).materials)⟩
        simp only [registerCertificates, hdefault]
        rfl
  obtain ⟨final, hfinal, hsame', ⟨ws', hws2, hquiet'⟩, htls⟩ := hlast
  rw [hfinal]
  refine ⟨hsame.trans hsame', ⟨ws ++ ws', ?_, hquiet.append (hws'.append hquiet')⟩,
    fun entry hentry => ?_⟩
  · rw [hws2, hws]
    simp [warned, Compiling.warn]
  · rcases heach entry hentry with ⟨err, hhost, hwarned⟩ | ⟨slot, hhost, hslot⟩
    · exact Or.inl ⟨err, hhost, by rw [hws2]; exact List.mem_append_left _ hwarned⟩
    · refine Or.inr ⟨slot, hhost, ?_⟩
      rw [htls slot, hslot]
      rintro rfl
      exact normalizeConfigHost_ne_catchAll hhost

end Certificates

end Ramjet.Controller.Registration
