/- digest: When a translation succeeds and every refused object costs only its own part. -/

import Ramjet.Controller.Reported
import Ramjet.Router.RoutingAgreement

set_option autoImplicit false
set_option relaxedAutoImplicit false

namespace Ramjet.Controller.Totality

open Ramjet.Base.Octets
open Ramjet.Base.Outcome
open Ramjet.Base.AssocMap
open Ramjet.Router.Balancing
open Ramjet.Router.Rule
open Ramjet.Router.Table
open Ramjet.Router.Builder
open Ramjet.Router.BuiltTable
open Ramjet.Router.RoutingAgreement (literalEngine)
open Ramjet.Controller.Objects
open Ramjet.Controller.Annotations
open Ramjet.Controller.Config
open Ramjet.Controller.Endpoints
open Ramjet.Controller.Secrets
open Ramjet.Controller.Warnings
open Ramjet.Controller.Plan
open Ramjet.Controller.Translate
open Ramjet.Controller.Claims
open Ramjet.Controller.Registration
open Ramjet.Controller.Compiled
open Ramjet.Controller.Reported

section Purpose

variable {F : Type} (rx : RegexEngine) (snapshot : ClusterSnapshot) (opts : ControllerOpts)

/-- The certificate a table has for the names of a slot. -/
def sniAt (m : SniMap) : HostSlot → Option Nat
  | .exact h => get m.exact h
  | .wildcard parent => get m.wildcard parent
  | .catchAll => m.default

/-- A rule diverts as a drafted canary says, whatever id its backend was given. -/
def Diverts (rule : PathRule) (canary : Option CanaryDraft) : Prop :=
  (rule.canary.map fun c => { c with backend := 0 }) =
    canary.map fun c => CanarySpec.new 0 c.header c.cookie c.weight c.weightTotal

/-- A rule copies as a drafted mirror says, whatever id its backend was given. -/
def Copies (rule : PathRule) (mirror : Option MirrorDraft) : Prop :=
  (rule.mirror.map fun m => { m with backend := 0 }) =
    mirror.map fun m => MirrorSpec.new 0 m.percent m.host

/-- Each part of a planned route stands or falls by itself, and falls with a warning. -/
structure RouteApart (r : Translation F) (plan : RoutePlan) : Prop where
  refused : ∀ err, plainDraft rx plan = .error err →
    ⟨plan.owner, .routeRefused plan.key err⟩ ∈ r.warnings
  served : ∀ d, plainDraft rx plan = .ok d → ∃ v rule, vhostAt r.config.table d.slot = some v ∧
    rule ∈ v.routes ∧ rule.path = plan.key.path ∧ rule.pathType = plan.key.pathType ∧
      (∀ canary, draftedCanary rx plan d.slot = .ok canary → Diverts rule canary) ∧
      ∀ mirror, draftedMirror plan d.slot = .ok mirror → Copies rule mirror
  canary : ∀ d err canary, plainDraft rx plan = .ok d → plan.canary = some canary →
    draftedCanary rx plan d.slot = .error err →
      ∃ err', ⟨canary.owner, .canaryRefused err' plan.key⟩ ∈ r.warnings
  mirror : ∀ d err, plainDraft rx plan = .ok d → draftedMirror plan d.slot = .error err →
    ∃ err', ⟨plan.owner, .mirrorRefused err' plan.key⟩ ∈ r.warnings

/-- A refused object costs only its own rule, canary, mirror or certificate, with a warning. -/
structure Isolated (r : Translation F) : Prop where
  routes : ∀ plan ∈ plans snapshot opts, RouteApart rx r plan
  declared : ∀ d ∈ declared snapshot opts, ∃ plan ∈ plans snapshot opts, plan.key = d.key ∧
    (bare plan = d ∨ ⟨d.owner, .alreadyServed d.key plan.owner⟩ ∈ r.warnings)
  undeclared : ∀ ingress ∈ production snapshot opts, ∀ spec, ingress.spec = some spec →
    ∀ entry ∈ entriesOf spec, declaredEntry (originOf ingress).1 entry = none →
      Reports r.warnings (.of ingress.metadata)
  mirrors : ∀ ingress ∈ production snapshot opts, ingress.spec.isSome = true →
    (MirrorAnnotations.parse ingress.metadata.annotations).backend.isSome = true →
      (originOf ingress).1.mirror = none → Reports r.warnings (.of ingress.metadata)
  canaries : ∀ canary ∈ (planSnapshot snapshot opts).canaries, ∀ spec, canary.1.spec = some spec →
    ∀ entry ∈ entriesOf spec,
      Attaches (planSnapshot snapshot opts).routes (.of canary.1.metadata) canary.2 entry ∨
        Reports r.warnings (.of canary.1.metadata)
  hostless : ∀ ingress ∈ (planSnapshot snapshot opts).managed,
    ∀ entry ∈ (ingress.spec.bind (·.tls)).getD [], tlsHosts entry = [] →
      Reports r.warnings (.of ingress.metadata)
  certificates : ∀ ingress ∈ (planSnapshot snapshot opts).managed,
    ∀ entry ∈ (ingress.spec.bind (·.tls)).getD [], ∀ host ∈ tlsHosts entry,
      (∃ name material slot, entry.secretName = some name ∧
        (SecretIndex.new snapshot.secrets).material (ObjectKey.of ingress.metadata).namespace_ name =
          .ok material ∧
        normalizeConfigHost host = .ok slot ∧
          sniAt r.config.table.tls slot = some material.handleId) ∨
        Reports r.warnings (.of ingress.metadata)

/-- No two Service ports that are named are rendered as one backend name. -/
def Distinguished : Prop :=
  ∀ s t, References snapshot opts s → References snapshot opts t →
    s.backendName = t.backendName → s = t

/-- Where a route asks for a canary and a mirror, the router takes both or neither. -/
def Uncoupled : Prop :=
  ∀ plan ∈ plans snapshot opts, ∀ d, plainDraft rx plan = .ok d → plan.canary.isSome = true →
    plan.mirror.isSome = true →
      ((draftedCanary rx plan d.slot).isOk = true ↔ (draftedMirror plan d.slot).isOk = true)

end Purpose

section Parts

variable {F : Type} (fl : Floats F) (rx : RegexEngine) {snapshot : ClusterSnapshot}
  {opts : ControllerOpts} {previous : Option RouteTable} {r : Translation F}

private theorem diverts_frozen (ids : Map Bytes BackendId) (d : RouteDraft) (index : Nat) :
    Diverts ((frozenRule ids d).setStatsIndex index) d.canary := by
  unfold Diverts
  obtain ⟨slot, path, pathType, regex, backend, canary, mirror⟩ := d
  cases canary <;> cases mirror <;> rfl

private theorem copies_frozen (ids : Map Bytes BackendId) (d : RouteDraft) (index : Nat) :
    Copies ((frozenRule ids d).setStatsIndex index) d.mirror := by
  unfold Copies
  obtain ⟨slot, path, pathType, regex, backend, canary, mirror⟩ := d
  cases canary <;> cases mirror <;> rfl

private theorem isSome_of_diverts {rule : PathRule} {canary canary' : Option CanaryDraft}
    (h : Diverts rule canary) (h' : Diverts rule canary') : canary.isSome = canary'.isSome := by
  have hboth := congrArg Option.isSome (h.symm.trans h')
  simpa using hboth

private theorem isSome_of_copies {rule : PathRule} {mirror mirror' : Option MirrorDraft}
    (h : Copies rule mirror) (h' : Copies rule mirror') : mirror.isSome = mirror'.isSome := by
  have hboth := congrArg Option.isSome (h.symm.trans h')
  simpa using hboth

/-- The rule of a planned route in the table that was built. -/
theorem served_spec (h : translate fl rx snapshot opts previous = .ok r) :
    ∃ ids : Map Bytes BackendId, ∀ plan ∈ plans snapshot opts, ∀ d, finalDraft rx plan = some d →
      (∃ v index, vhostAt r.config.table d.slot = some v ∧
        (frozenRule ids d).setStatsIndex index ∈ v.routes) ∧
      ∀ v rule, vhostAt r.config.table d.slot = some v → rule ∈ v.routes →
        rule.path = plan.key.path → rule.pathType = plan.key.pathType →
          ∃ index, rule = (frozenRule ids d).setStatsIndex index := by
  obtain ⟨c, hreg, hbuild, -⟩ := translate_spec fl rx snapshot opts previous h
  obtain ⟨hfinished, -⟩ := finished_spec rx snapshot opts previous hreg
  refine ⟨(finished rx snapshot opts c).builder.backendIds, fun plan hplan d hd => ?_⟩
  have hmem : d ∈ (finished rx snapshot opts c).builder.routes := by
    rw [hfinished.routes]
    exact List.mem_filterMap.mpr ⟨plan, hplan, hd⟩
  refine ⟨mem_vhost_of_draft hbuild hmem, fun v rule hv hrule hpath htype => ?_⟩
  obtain ⟨e, he, hslot, index, rfl⟩ := draft_of_mem_vhost hbuild hv hrule
  have hspec := draftOf_finalDraft rx hd
  have hkey : e.key = d.key := by
    have hepath : e.path = d.path := hpath.trans hspec.path.symm
    have hetype : e.pathType = d.pathType := htype.trans hspec.pathType.symm
    rw [RouteDraft.key, RouteDraft.key, hslot, hepath, hetype]
  have hnodup : ((finished rx snapshot opts c).builder.routes.map RouteDraft.key).Nodup := by
    rw [hfinished.routes]
    exact drafts_nodup rx snapshot opts
  exact ⟨index, by rw [List.inj_on_of_nodup_map hnodup he hmem hkey]⟩

/-- What registration said of the planned routes is in the result. -/
theorem outcome_kept (h : translate fl rx snapshot opts previous = .ok r)
    {plan : RoutePlan} (hplan : plan ∈ plans snapshot opts) :
    ∃ before after, Outcome rx plan before after ∧ ∀ w ∈ after.warnings, w ∈ r.warnings := by
  obtain ⟨c, hreg, -, ws, hws, -⟩ := translate_spec fl rx snapshot opts previous h
  obtain ⟨-, -, -, -, hroutes, -⟩ := finished_spec rx snapshot opts previous hreg
  obtain ⟨before, after, houtcome, hkept⟩ := registerPlans_outcome rx hplan c
  refine ⟨before, after, houtcome, fun w hw => ?_⟩
  rw [hws]
  exact List.mem_append_left _ (hroutes w (hkept w hw))

private theorem planned_kept (h : translate fl rx snapshot opts previous = .ok r) :
    ∀ w ∈ (planSnapshot snapshot opts).warnings, w ∈ r.warnings := by
  intro w hw
  obtain ⟨c, hreg, -, ws, hws, -⟩ := translate_spec fl rx snapshot opts previous h
  obtain ⟨-, ws', hws', -⟩ := finished_spec rx snapshot opts previous hreg
  rw [hws, hws']
  exact List.mem_append_left _ (List.mem_append_left _ (hreg.kept w (List.mem_append_left _ hw)))

private theorem wired_kept (h : translate fl rx snapshot opts previous = .ok r) :
    ∀ w ∈ (wiredCerts snapshot (planSnapshot snapshot opts).managed).warnings, w ∈ r.warnings := by
  intro w hw
  obtain ⟨c, hreg, -, ws, hws, -⟩ := translate_spec fl rx snapshot opts previous h
  obtain ⟨-, -, -, -, -, hcerts⟩ := finished_spec rx snapshot opts previous hreg
  rw [hws]
  exact List.mem_append_left _ (hcerts w hw)

/-- A certificate that was wired is in the table, or its host is reported as refused. -/
private theorem wired_served (h : translate fl rx snapshot opts previous = .ok r) {host : Bytes}
    {id : Nat} {owner : ObjectKey}
    (hheld : get (wiredCerts snapshot (planSnapshot snapshot opts).managed).byHost host =
      some (id, owner)) :
    (∃ slot, normalizeConfigHost host = .ok slot ∧ sniAt r.config.table.tls slot = some id) ∨
      Reports r.warnings owner := by
  obtain ⟨c, hreg, hbuild, ws, hws, -⟩ := translate_spec fl rx snapshot opts previous h
  have hentry : (host, id, owner) ∈ wiredEntries snapshot (planSnapshot snapshot opts).managed :=
    (List.mem_insertionSort _).mpr (mem_of_get hheld)
  rcases finished_certs rx snapshot opts c _ hentry with ⟨err, -, hwarned⟩ | ⟨slot, hhost, hslot⟩
  · right
    refine ⟨⟨owner, .tlsHostRefused host err⟩, ?_, rfl⟩
    rw [hws]
    exact List.mem_append_left _ hwarned
  · refine Or.inl ⟨slot, hhost, ?_⟩
    rw [build_tls hbuild, ← hslot]
    cases slot <;> rfl

end Parts

section Whole

variable {F : Type} (fl : Floats F) (rx : RegexEngine) {snapshot : ClusterSnapshot}
  {opts : ControllerOpts} {previous : Option RouteTable} {r : Translation F}

private theorem isSome_draftedCanary {plan : RoutePlan} {slot : HostSlot}
    {canary : Option CanaryDraft} (h : draftedCanary rx plan slot = .ok canary) :
    canary.isSome = plan.canary.isSome := by
  rcases optional_eq_ok.mp h with ⟨hnone, rfl⟩ | ⟨p, d, hsome, -, rfl⟩
  · rw [hnone]
    rfl
  · rw [hsome]
    rfl

private theorem isSome_draftedMirror {plan : RoutePlan} {slot : HostSlot}
    {mirror : Option MirrorDraft} (h : draftedMirror plan slot = .ok mirror) :
    mirror.isSome = plan.mirror.isSome := by
  rcases optional_eq_ok.mp h with ⟨hnone, rfl⟩ | ⟨p, d, hsome, -, rfl⟩
  · rw [hnone]
    rfl
  · rw [hsome]
    rfl

/-- A part that was asked for nothing is taken as nothing. -/
private theorem part_none {plan : RoutePlan} {slot : HostSlot} :
    (plan.canary = none → draftedCanary rx plan slot = .ok none) ∧
      (plan.mirror = none → draftedMirror plan slot = .ok none) := by
  refine ⟨fun h => ?_, fun h => ?_⟩
  · rw [draftedCanary, h]
    rfl
  · rw [draftedMirror, h]
    rfl

/-- The final draft keeps each part the router took, if it takes both parts or neither. -/
private theorem finalDraft_parts {plan : RoutePlan} {plain : RouteDraft}
    (hplain : plainDraft rx plan = .ok plain)
    (hboth : plan.canary.isSome = true → plan.mirror.isSome = true →
      ((draftedCanary rx plan plain.slot).isOk = true ↔ (draftedMirror plan plain.slot).isOk = true)) :
    ∃ d, finalDraft rx plan = some d ∧ d.slot = plain.slot ∧ d.path = plain.path ∧
      d.pathType = plain.pathType ∧
      (∀ canary, draftedCanary rx plan plain.slot = .ok canary → d.canary = canary) ∧
      ∀ mirror, draftedMirror plan plain.slot = .ok mirror → d.mirror = mirror := by
  obtain ⟨hnone, hnone'⟩ := plainDraft_spec rx hplain
  have hok : ∀ {α : Type} {x : Except BuildError α} {a : α}, x = .ok a → x.isOk = true := by
    rintro α x a rfl
    rfl
  have herr : ∀ {α : Type} {x : Except BuildError α} {err : BuildError}, x = .error err →
      x.isOk = false := by
    rintro α x err rfl
    rfl
  cases hcanary : draftedCanary rx plan plain.slot with
  | ok canary =>
      cases hmirror : draftedMirror plan plain.slot with
      | ok mirror =>
          refine ⟨{ plain with canary := canary, mirror := mirror }, ?_, rfl, rfl, rfl, ?_, ?_⟩
          · simp only [finalDraft, hplain, hcanary, hmirror]
          · intro c hc
            cases hc
            rfl
          · intro m hm
            cases hm
            rfl
      | error err =>
          refine ⟨plain, ?_, rfl, rfl, rfl, ?_, ?_⟩
          · simp only [finalDraft, hplain, hcanary, hmirror]
          · intro c hc
            cases hc
            -- A mirror was asked for and refused, so no canary was asked for.
            have hasked : plan.mirror.isSome = true := by
              cases hm : plan.mirror with
              | none =>
                  rw [(part_none rx).2 hm] at hmirror
                  cases hmirror
              | some m => rfl
            have hunasked : plan.canary.isSome = false := by
              cases hc : plan.canary with
              | none => rfl
              | some c =>
                  have hmirrored := (hboth (by simp [hc]) hasked).mp (hok hcanary)
                  rw [herr hmirror] at hmirrored
                  cases hmirrored
            have hempty : canary = none := by
              simpa [hunasked] using isSome_draftedCanary rx hcanary
            rw [hnone, hempty]
          · intro m hm
            cases hm
  | error err =>
      refine ⟨plain, ?_, rfl, rfl, rfl, ?_, ?_⟩
      · simp only [finalDraft, hplain, hcanary]
      · intro c hc
        cases hc
      · intro m hm
        have hasked : plan.canary.isSome = true := by
          cases hc : plan.canary with
          | none =>
              rw [(part_none rx).1 hc] at hcanary
              cases hcanary
          | some c => rfl
        have hunasked : plan.mirror.isSome = false := by
          cases hmirror : plan.mirror with
          | none => rfl
          | some p =>
              have hdiverted := (hboth hasked (by simp [hmirror])).mpr (hok hm)
              rw [herr hcanary] at hdiverted
              cases hdiverted
        have hempty : m = none := by
          simpa [hunasked] using isSome_draftedMirror hm
        rw [hnone', hempty]

/-- A dropped part leaves its warning, whichever part was refused. -/
private theorem dropped_kept {plan : RoutePlan} {c c' : Compiling} (h : Outcome rx plan c c')
    {d : RouteDraft} (hplain : plainDraft rx plan = .ok d)
    (hrefused : (∃ err, draftedCanary rx plan d.slot = .error err) ∨
      ∃ err, draftedMirror plan d.slot = .error err) :
    ∃ err, ∀ w ∈ droppedWarnings plan err, w ∈ c'.warnings := by
  cases h with
  | refused err herr =>
      rw [hplain] at herr
      cases herr
  | whole d' canary mirror hplain' hcanary hmirror =>
      rw [hplain] at hplain'
      cases hplain'
      rcases hrefused with ⟨err, herr⟩ | ⟨err, herr⟩
      · rw [hcanary] at herr
        cases herr
      · rw [hmirror] at herr
        cases herr
  | stripped d' err _ _ _ hwarnings =>
      refine ⟨err, fun w hw => ?_⟩
      rw [hwarnings]
      exact List.mem_append_right _ hw

private theorem routeApart_of_uncoupled (h : translate fl rx snapshot opts previous = .ok r)
    (hboth : Uncoupled rx snapshot opts) {plan : RoutePlan} (hplan : plan ∈ plans snapshot opts) :
    RouteApart rx r plan := by
  obtain ⟨before, after, houtcome, hkept⟩ := outcome_kept fl rx h hplan
  obtain ⟨ids, hids⟩ := served_spec fl rx h
  refine ⟨fun err herr => ?_, fun plain hplain => ?_, fun plain err canary hplain hcanary herr => ?_,
    fun plain err hplain herr => ?_⟩
  · cases houtcome with
    | refused err' herr' _ hwarnings =>
        rw [herr] at herr'
        cases herr'
        refine hkept _ ?_
        rw [hwarnings]
        exact List.mem_append_right _ (List.mem_singleton_self _)
    | whole d canary mirror hplain =>
        rw [herr] at hplain
        cases hplain
    | stripped d err' hplain =>
        rw [herr] at hplain
        cases hplain
  · obtain ⟨d, hd, hslot, hpath, htype, hcanary, hmirror⟩ :=
      finalDraft_parts rx hplain (hboth plan hplan plain hplain)
    obtain ⟨⟨v, index, hv, hrule⟩, -⟩ := hids plan hplan d hd
    have hspec := draftOf_finalDraft rx hd
    refine ⟨v, _, hslot ▸ hv, hrule, hspec.path, hspec.pathType, fun canary hc => ?_,
      fun mirror hm => ?_⟩
    · rw [← hcanary canary hc]
      exact diverts_frozen ids d index
    · rw [← hmirror mirror hm]
      exact copies_frozen ids d index
  · obtain ⟨err', hdropped⟩ := dropped_kept rx houtcome hplain (Or.inl ⟨err, herr⟩)
    refine ⟨err', hkept _ (hdropped _ ?_)⟩
    simp [droppedWarnings, hcanary]
  · obtain ⟨err', hdropped⟩ := dropped_kept rx houtcome hplain (Or.inr ⟨err, herr⟩)
    refine ⟨err', hkept _ (hdropped _ ?_)⟩
    have hasked : ∃ m, plan.mirror = some m := by
      cases hm : plan.mirror with
      | none =>
          rw [(part_none rx).2 hm] at herr
          cases herr
      | some m => exact ⟨m, rfl⟩
    obtain ⟨m, hm⟩ := hasked
    simp [droppedWarnings, hm]

/-- A part that falls with the other part is in no rule of the table. -/
theorem uncoupled_of_routeApart (h : translate fl rx snapshot opts previous = .ok r)
    (hroutes : ∀ plan ∈ plans snapshot opts, RouteApart rx r plan) :
    Uncoupled rx snapshot opts := by
  intro plan hplan plain hplain hcanaried hmirrored
  obtain ⟨hnone, hnone'⟩ := plainDraft_spec rx hplain
  obtain ⟨v, rule, hv, hrule, hpath, htype, hdiverts, hcopies⟩ :=
    (hroutes plan hplan).served plain hplain
  obtain ⟨ids, hids⟩ := served_spec fl rx h
  cases hcanary : draftedCanary rx plan plain.slot with
  | ok canary =>
      cases hmirror : draftedMirror plan plain.slot with
      | ok mirror => exact ⟨fun _ => rfl, fun _ => rfl⟩
      | error err =>
          exfalso
          have hfinal : finalDraft rx plan = some plain := by
            simp only [finalDraft, hplain, hcanary, hmirror]
          obtain ⟨index, rfl⟩ := (hids plan hplan plain hfinal).2 v rule hv hrule hpath htype
          have hsome := isSome_of_diverts (diverts_frozen ids plain index) (hdiverts canary hcanary)
          rw [hnone, isSome_draftedCanary rx hcanary, hcanaried] at hsome
          cases hsome
  | error err =>
      cases hmirror : draftedMirror plan plain.slot with
      | error err' => exact Iff.rfl
      | ok mirror =>
          exfalso
          have hfinal : finalDraft rx plan = some plain := by
            simp only [finalDraft, hplain, hcanary]
          obtain ⟨index, rfl⟩ := (hids plan hplan plain hfinal).2 v rule hv hrule hpath htype
          have hsome := isSome_of_copies (copies_frozen ids plain index) (hcopies mirror hmirror)
          rw [hnone', isSome_draftedMirror hmirror, hmirrored] at hsome
          cases hsome

private theorem isolated_of_uncoupled (h : translate fl rx snapshot opts previous = .ok r)
    (hboth : Uncoupled rx snapshot opts) : Isolated rx snapshot opts r where
  routes _ hplan := routeApart_of_uncoupled fl rx h hboth hplan
  declared d hd := by
    obtain ⟨plan, hplan, hkey, hheld⟩ := planned_of_declared snapshot opts hd
    exact ⟨plan, hplan, hkey, hheld.imp_right fun hw => planned_kept fl rx h _ hw⟩
  undeclared ingress hmem spec hspec entry hentry hnone :=
    (reports_of_undeclared snapshot opts hmem hspec hentry hnone).mono (planned_kept fl rx h)
  mirrors ingress hmem hspec hasked hnone :=
    (reports_of_mirror snapshot opts hmem hspec hasked hnone).mono (planned_kept fl rx h)
  canaries canary hmem spec hspec entry hentry :=
    (attached_or_reports snapshot opts hmem hspec hentry).imp_right
      fun hreports => hreports.mono (planned_kept fl rx h)
  hostless ingress hmem entry hentry hempty :=
    ((wired_or_reports snapshot hmem hentry).1 hempty).mono (wired_kept fl rx h)
  certificates ingress hmem entry hentry host hhost := by
    rcases (wired_or_reports snapshot hmem hentry).2 host hhost with
      ⟨name, material, hname, hmaterial, hheld⟩ | hreports
    · rcases wired_served fl rx h hheld with ⟨slot, hslot, hsni⟩ | hreports
      · exact Or.inl ⟨name, material, slot, hname, hmaterial, hslot, hsni⟩
      · exact Or.inr hreports
    · exact Or.inr (hreports.mono (wired_kept fl rx h))

/-- A translation succeeds and keeps every refusal apart exactly when no two Service ports that
are named are rendered alike, and the router takes both parts of a route or neither. -/
theorem translate_total_iff (snapshot : ClusterSnapshot) (opts : ControllerOpts)
    (previous : Option RouteTable) :
    (∃ r, translate fl rx snapshot opts previous = .ok r ∧ Isolated rx snapshot opts r) ↔
      Distinguished snapshot opts ∧ Uncoupled rx snapshot opts := by
  have hnames : (∃ r, translate fl rx snapshot opts previous = .ok r) ↔
      Distinguished snapshot opts :=
    (translate_ok_iff fl rx snapshot opts previous).trans (nodup_backendNames_iff snapshot opts)
  constructor
  · rintro ⟨r, h, hisolated⟩
    exact ⟨hnames.mp ⟨r, h⟩, uncoupled_of_routeApart fl rx h hisolated.routes⟩
  · rintro ⟨hdistinct, hboth⟩
    obtain ⟨r, h⟩ := hnames.mpr hdistinct
    exact ⟨r, h, isolated_of_uncoupled fl rx h hboth⟩

end Whole

section Failures

/-- Two paths to one Service, its port once as a number and once as a name of the same digits. -/
def alikePorts : ClusterSnapshot where
  ingresses := [shopIngress (ascii "shop") 1 []
    [pathTo (ascii "/a") (ascii "Prefix") (ascii "web") { number := some 80 },
      pathTo (ascii "/b") (ascii "Prefix") (ascii "web") { name := some (ascii "80") }] none]

/-- A mirrored route, and a canary on it whose weight exceeds its total. -/
def heavyCanary : ClusterSnapshot where
  ingresses :=
    [shopIngress (ascii "shop") 1 [(ANNOTATION_MIRROR_BACKEND, ascii "shadow:80")]
        [pathTo (ascii "/") (ascii "Prefix") (ascii "web") { number := some 80 }] none,
      shopIngress (ascii "next") 2
        [(ANNOTATION_CANARY, ascii "true"), (ANNOTATION_CANARY_WEIGHT, ascii "200")]
        [pathTo (ascii "/") (ascii "Prefix") (ascii "web-next") { number := some 80 }] none]

/-- The route of `heavyCanary`: the router takes its mirror and refuses its canary. -/
private theorem heavyCanary_coupled :
    ((plans heavyCanary {}).any fun plan =>
      match plainDraft literalEngine plan with
      | .ok d => plan.canary.isSome && plan.mirror.isSome &&
          !(draftedCanary literalEngine plan d.slot).isOk && (draftedMirror plan d.slot).isOk
      | .error _ => false) = true := by
  decide +kernel

/-- Two spellings of one port fail the whole translation; a refused canary takes the mirror of
another Ingress down with it. -/
theorem translate_not_total :
    (¬ ∃ r, translate noFloats literalEngine alikePorts {} none = .ok r ∧
      Isolated literalEngine alikePorts {} r) ∧
    ¬ ∃ r, translate noFloats literalEngine heavyCanary {} none = .ok r ∧
      Isolated literalEngine heavyCanary {} r := by
  refine ⟨?_, ?_⟩
  · rintro ⟨r, h, -⟩
    have hnodup := (translate_ok_iff noFloats literalEngine alikePorts {} none).mp ⟨r, h⟩
    have htwice : ¬ (backendNames alikePorts {}).Nodup := by decide +kernel
    exact htwice hnodup
  · rintro ⟨r, h, hisolated⟩
    have hboth := uncoupled_of_routeApart noFloats literalEngine h hisolated.routes
    obtain ⟨plan, hplan, hrefused⟩ := List.any_eq_true.mp heavyCanary_coupled
    split at hrefused
    · rename_i d hd
      simp only [Bool.and_eq_true, Bool.not_eq_true'] at hrefused
      obtain ⟨⟨⟨hcanary, hmirror⟩, hno⟩, hyes⟩ := hrefused
      have hok := (hboth plan hplan d hd hcanary hmirror).mpr hyes
      rw [hno] at hok
      cases hok
    · cases hrefused

end Failures

end Ramjet.Controller.Totality
