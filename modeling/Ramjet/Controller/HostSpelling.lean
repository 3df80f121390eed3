/- digest: Which virtual host a rule is filed under, and what the translator takes its host to be. -/

import Ramjet.Controller.Totality

set_option autoImplicit false
set_option relaxedAutoImplicit false

namespace Ramjet.Controller.HostSpelling

open Ramjet.Base.Octets
open Ramjet.Base.Text
open Ramjet.Base.Outcome
open Ramjet.Base.AssocMap
open Ramjet.Router.Rule
open Ramjet.Router.Table
open Ramjet.Router.Builder
open Ramjet.Router.BuiltTable
open Ramjet.Router.RoutingAgreement (literalEngine)
open Ramjet.Controller.Objects
open Ramjet.Controller.Annotations
open Ramjet.Controller.Config
open Ramjet.Controller.Warnings
open Ramjet.Controller.Plan
open Ramjet.Controller.Translate
open Ramjet.Controller.Claims
open Ramjet.Controller.Registration
open Ramjet.Controller.Compiled
open Ramjet.Controller.Totality

section Hosts

/-- A host without the white space around it and the dots that end it. -/
def hostName (raw : Bytes) : Bytes := (trim raw).rdropWhile (· == 46)

theorem normalizeHost_of_named {raw : Bytes} (h : hostName raw ≠ []) :
    normalizeHost (some raw) = some ((hostName raw).map toAsciiLowercase) := by
  have hne : ¬ (hostName raw).isEmpty = true := by simpa using h
  exact if_neg hne

theorem normalizeHost_of_nameless {raw : Bytes} (h : hostName raw = []) :
    normalizeHost (some raw) = none := by
  have he : (hostName raw).isEmpty = true := by simp [h]
  exact if_pos he

/-- The builder files no host it is given under the catch-all. -/
theorem draftSlot_some_ne_catchAll {host : Bytes} {slot : HostSlot}
    (h : draftSlot (some host) = .ok slot) : slot ≠ .catchAll := by
  simp only [draftSlot, normalizeConfigHost] at h
  split at h
  · cases h
  split at h
  · obtain ⟨lowered, -, rfl⟩ := map_eq_ok.mp h
    intro hcatch
    cases hcatch
  · obtain ⟨lowered, -, rfl⟩ := map_eq_ok.mp h
    intro hcatch
    cases hcatch

end Hosts

section Filing

variable {F : Type} (fl : Floats F) (rx : RegexEngine) {snapshot : ClusterSnapshot}
  {opts : ControllerOpts} {previous : Option RouteTable} {r : Translation F}

/-- The host of a planned route: refused with a warning, or one virtual host, not the catch-all,
that the table files the route under and that the translator's own host names. -/
def HostKept (r : Translation F) (plan : RoutePlan) (host : Option Bytes) : Prop :=
  (∃ err, draftSlot plan.key.host = .error err ∧
      ⟨plan.owner, .routeRefused plan.key err⟩ ∈ r.warnings) ∨
    ∃ slot, draftSlot plan.key.host = .ok slot ∧ slot ≠ .catchAll ∧ hostOfSlot slot = host ∧
      ∀ d, plainDraft rx plan = .ok d → ∃ v rule, vhostAt r.config.table slot = some v ∧
        rule ∈ v.routes ∧ rule.path = plan.key.path ∧ rule.pathType = plan.key.pathType

theorem plainDraft_of_host_error {plan : RoutePlan} {err : BuildError}
    (h : draftSlot plan.key.host = .error err) : plainDraft rx plan = .error err := by
  unfold plainDraft draft
  rw [h]
  rfl

theorem finalDraft_of_plain {plan : RoutePlan} {d : RouteDraft} (h : plainDraft rx plan = .ok d) :
    ∃ e, finalDraft rx plan = some e ∧ e.slot = d.slot := by
  unfold finalDraft
  rw [h]
  dsimp only
  split
  · exact ⟨_, rfl, rfl⟩
  · exact ⟨d, rfl, rfl⟩

/-- A route the builder takes is in the table, under the slot of its host. -/
theorem served_under (h : translate fl rx snapshot opts previous = .ok r) {plan : RoutePlan}
    (hplan : plan ∈ plans snapshot opts) {slot : HostSlot}
    (hslot : draftSlot plan.key.host = .ok slot) {d : RouteDraft}
    (hd : plainDraft rx plan = .ok d) :
    ∃ v rule, vhostAt r.config.table slot = some v ∧ rule ∈ v.routes ∧
      rule.path = plan.key.path ∧ rule.pathType = plan.key.pathType := by
  obtain ⟨e, he, -⟩ := finalDraft_of_plain rx hd
  have hof := draftOf_finalDraft rx he
  have hsame : e.slot = slot := by
    have heq : Except.ok e.slot = (Except.ok slot : Except BuildError HostSlot) :=
      hof.slot.symm.trans hslot
    injection heq
  obtain ⟨ids, hids⟩ := served_spec fl rx h
  obtain ⟨⟨v, index, hv, hrule⟩, -⟩ := hids plan hplan e he
  exact ⟨v, _, hsame ▸ hv, hrule, hof.path, hof.pathType⟩

theorem hostKept_of_named (h : translate fl rx snapshot opts previous = .ok r) {raw : Bytes}
    {plan : RoutePlan} (hplan : plan ∈ plans snapshot opts)
    (hhost : plan.key.host = normalizeHost (some raw)) (hname : hostName raw ≠ []) :
    HostKept rx r plan (normalizeHost (some raw)) := by
  cases hslot : draftSlot plan.key.host with
  | error err =>
      have hplain := plainDraft_of_host_error rx hslot
      obtain ⟨before, after, houtcome, hkept⟩ := outcome_kept fl rx h hplan
      refine .inl ⟨err, hslot, hkept _ ?_⟩
      cases houtcome with
      | refused err' hplain' _ hwarnings =>
          rw [hplain] at hplain'
          cases hplain'
          simp [hwarnings]
      | whole _ _ _ hplain' => rw [hplain] at hplain'; cases hplain'
      | stripped _ _ hplain' => rw [hplain] at hplain'; cases hplain'
  | ok slot =>
      have hcatch : slot ≠ .catchAll := by
        rw [hhost, normalizeHost_of_named hname] at hslot
        exact draftSlot_some_ne_catchAll hslot
      have hnormal : Normal plan.key.host := ⟨some raw, hhost⟩
      refine .inr ⟨slot, hslot, hcatch, ?_, fun d hd => served_under fl rx h hplan hslot hd⟩
      rw [hostOfSlot_draftSlot hnormal hslot, hhost]

/-- A host that is only white space and dots is no host to the translator: the rule answers for
every unclaimed name. -/
theorem not_hostKept_of_nameless {raw : Bytes} {plan : RoutePlan}
    (hhost : plan.key.host = normalizeHost (some raw)) (hname : hostName raw = []) :
    ¬ HostKept rx r plan (normalizeHost (some raw)) := by
  have hslot : draftSlot plan.key.host = .ok .catchAll := by
    rw [hhost, normalizeHost_of_nameless hname]
    rfl
  rintro (⟨err, herr, -⟩ | ⟨slot, hok, hcatch, -⟩)
  · rw [hslot] at herr
    cases herr
  · rw [hslot] at hok
    cases hok
    exact hcatch rfl

/-- The host of a rule is refused or filed under the name the translator gives it exactly when it is
more than white space and final dots. -/
theorem hostKept_iff (h : translate fl rx snapshot opts previous = .ok r) {raw : Bytes}
    {plan : RoutePlan} (hplan : plan ∈ plans snapshot opts)
    (hhost : plan.key.host = normalizeHost (some raw)) :
    HostKept rx r plan (normalizeHost (some raw)) ↔ hostName raw ≠ [] := by
  constructor
  · intro hkept hname
    exact not_hostKept_of_nameless rx hhost hname hkept
  · exact hostKept_of_named fl rx h hplan hhost

end Filing

section Samples

/-- One Ingress with one rule, whose host is spelled as given. -/
def hosted (host : Bytes) : ClusterSnapshot where
  ingresses :=
    [{ metadata :=
        { name := some (ascii "shop")
          namespace_ := some (ascii "default")
          creationTimestamp := some 1
          annotations := [(ANNOTATION_LEGACY_CLASS, ascii "ramjet")] }
       spec := some
        { rules := some [⟨some host,
            some [pathTo (ascii "/") (ascii "Prefix") (ascii "web") { number := some 80 }]⟩] } }]

/-- The one route planned for `hosted`. -/
def hostedPlan (host : Option Bytes) : RoutePlan where
  key := ⟨host, ascii "/", .prefixed⟩
  backend := ⟨ascii "default", ascii "web", .number 80⟩
  owner := ⟨ascii "default", ascii "shop"⟩
  protocol := .http1
  canary := none
  mirror := none

theorem hostKept_respelled :
    ∃ r, translate noFloats literalEngine (hosted (ascii " Shop.Test. ")) {} none = .ok r ∧
      HostKept literalEngine r (hostedPlan (some (ascii "shop.test"))) (some (ascii "shop.test")) := by
  obtain ⟨r, h⟩ := (translate_ok_iff noFloats literalEngine
    (hosted (ascii " Shop.Test. ")) {} none).mpr (by decide +kernel)
  have hplan : hostedPlan (some (ascii "shop.test")) ∈ plans (hosted (ascii " Shop.Test. ")) {} := by
    decide +kernel
  have hhost : (hostedPlan (some (ascii "shop.test"))).key.host =
      normalizeHost (some (ascii " Shop.Test. ")) := by decide +kernel
  exact ⟨r, h, (hostKept_iff noFloats literalEngine h hplan hhost).mpr (by decide +kernel)⟩

/-- A rule for the host `.` is filed under the catch-all, and no warning is given. -/
theorem dot_answers_for_all :
    ascii "." ≠ [] ∧ ∃ r, translate noFloats literalEngine (hosted (ascii ".")) {} none = .ok r ∧
      hostedPlan none ∈ plans (hosted (ascii ".")) {} ∧
      (hostedPlan none).key.host = normalizeHost (some (ascii ".")) ∧
      ¬ HostKept literalEngine r (hostedPlan none) (normalizeHost (some (ascii "."))) ∧
      ∃ v rule, vhostAt r.config.table .catchAll = some v ∧ rule ∈ v.routes ∧
        rule.path = ascii "/" ∧ rule.pathType = .prefixed := by
  obtain ⟨r, h⟩ := (translate_ok_iff noFloats literalEngine
    (hosted (ascii ".")) {} none).mpr (by decide +kernel)
  have hplan : hostedPlan none ∈ plans (hosted (ascii ".")) {} := by decide +kernel
  have hhost : (hostedPlan none).key.host = normalizeHost (some (ascii ".")) := by decide +kernel
  refine ⟨by decide, r, h, hplan, hhost,
    not_hostKept_of_nameless literalEngine hhost (by decide +kernel), ?_⟩
  have hok : ∃ d, plainDraft literalEngine (hostedPlan none) = .ok d := ⟨_, rfl⟩
  obtain ⟨d, hd⟩ := hok
  have hslot : draftSlot (hostedPlan none).key.host = .ok .catchAll := rfl
  exact served_under noFloats literalEngine h hplan hslot hd

end Samples

end Ramjet.Controller.HostSpelling
