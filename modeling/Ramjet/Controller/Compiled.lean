/- digest: What the builder holds once every planned object has been registered. -/

import Ramjet.Controller.BackendClaims
import Ramjet.Controller.Registration

set_option autoImplicit false
set_option relaxedAutoImplicit false

namespace Ramjet.Controller.Compiled

open Ramjet.Base.Octets
open Ramjet.Base.Text
open Ramjet.Base.Outcome
open Ramjet.Base.AssocMap
open Ramjet.Router.Balancing
open Ramjet.Router.Rule
open Ramjet.Router.Table
open Ramjet.Router.Builder
open Ramjet.Router.BuiltTable
open Ramjet.Controller.Objects
open Ramjet.Controller.Annotations
open Ramjet.Controller.Config
open Ramjet.Controller.Endpoints
open Ramjet.Controller.Secrets
open Ramjet.Controller.Warnings
open Ramjet.Controller.Plan
open Ramjet.Controller.Translate
open Ramjet.Controller.Claims
open Ramjet.Controller.BackendClaims (claimed_backends)
open Ramjet.Controller.Registration

section Whole

variable {F : Type} (fl : Floats F) (rx : RegexEngine)

private theorem collectPromotions_warnings (canaries : List (Ingress × CanaryAnnotations))
    (routes : Routes) (digest : Digest) (warnings : List Warning) :
    ∃ ws, (collectPromotions fl canaries routes digest warnings).2.2 = warnings ++ ws ∧
      Quiet ws := by
  have hone : ∀ (state : List (PromotionTarget F) × Digest × List Warning)
      (canary : Ingress × CanaryAnnotations), ∃ ws,
        (collectPromotion fl routes state canary).2.2 = state.2.2 ++ ws ∧ Quiet ws := by
    intro state canary
    unfold collectPromotion
    dsimp only
    split
    · split
      · exact ⟨_, rfl, quiet_map (fun _ => rfl) _⟩
      · exact ⟨_, rfl, quiet_map (fun _ => rfl) _⟩
    · exact ⟨[], by simp, quiet_nil⟩
  have hfold : ∀ (canaries : List (Ingress × CanaryAnnotations))
      (state : List (PromotionTarget F) × Digest × List Warning), ∃ ws,
        (canaries.foldl (collectPromotion fl routes) state).2.2 = state.2.2 ++ ws ∧ Quiet ws := by
    intro canaries
    induction canaries with
    | nil => exact fun state => ⟨[], by simp, quiet_nil⟩
    | cons canary rest ih =>
        intro state
        obtain ⟨ws, hws, hquiet⟩ := hone state canary
        obtain ⟨ws', hws', hquiet'⟩ := ih (collectPromotion fl routes state canary)
        exact ⟨ws ++ ws', by rw [List.foldl_cons, hws', hws, List.append_assoc],
          hquiet.append hquiet'⟩
  exact hfold canaries ([], digest, warnings)

variable (snapshot : ClusterSnapshot) (opts : ControllerOpts) (previous : Option RouteTable)

/-- The Service ports a snapshot's planned routes and default backend name. -/
def collected : Backends × List Warning :=
  collectBackends (planSnapshot snapshot opts).routes (planSnapshot snapshot opts).defaultBackend

/-- The names the collected Service ports are registered under, in registration order. -/
def backendNames : List Bytes := (sortedBackends (collected snapshot opts).1).map (·.1.backendName)

/-- Where registration starts. -/
def started : Compiling :=
  ⟨startBuilder previous, {}, (planSnapshot snapshot opts).warnings ++ (collected snapshot opts).2⟩

/-- Registration from the backends on, up to the certificates. -/
def finished (c : Compiling) : Compiling :=
  (registerCertificates snapshot opts (planSnapshot snapshot opts).managed
    (registerDefault (planSnapshot snapshot opts).defaultBackend
      (registerRoutes rx (planSnapshot snapshot opts).routes c))).1

private theorem translate_eq : translate fl rx snapshot opts previous =
    (do
      let c ← registerBackends snapshot opts (collected snapshot opts).1
        (started snapshot opts previous)
      let table ← (finished rx snapshot opts c).builder.build
      let promotions := collectPromotions fl (planSnapshot snapshot opts).canaries
        (planSnapshot snapshot opts).routes (finished rx snapshot opts c).digest
        (finished rx snapshot opts c).warnings
      return ⟨⟨table, (registerCertificates snapshot opts (planSnapshot snapshot opts).managed
          (registerDefault (planSnapshot snapshot opts).defaultBackend
            (registerRoutes rx (planSnapshot snapshot opts).routes c))).2, promotions.1,
          promotions.2.1.finish⟩, promotions.2.1.finish,
        (planSnapshot snapshot opts).managed.map fun ingress => .of ingress.metadata,
        promotions.2.2⟩) := rfl

end Whole

section Plans

variable (rx : RegexEngine) (snapshot : ClusterSnapshot) (opts : ControllerOpts)

/-- The planned routes of a snapshot, in registration order. -/
def plans : List RoutePlan := sortedPlans (planSnapshot snapshot opts).routes

theorem mem_plans_iff (plan : RoutePlan) :
    plan ∈ plans snapshot opts ↔ get (planSnapshot snapshot opts).routes plan.key = some plan := by
  unfold plans sortedPlans
  rw [List.mem_insertionSort, List.mem_map]
  constructor
  · rintro ⟨⟨k, p⟩, hmem, rfl⟩
    have hget := get_of_mem (planned_nodup snapshot opts) hmem
    rwa [(planned_spec snapshot opts hget).1]
  · exact fun h => ⟨(plan.key, plan), mem_of_get h, rfl⟩

theorem normal_of_mem_plans {plan : RoutePlan} (h : plan ∈ plans snapshot opts) :
    Normal plan.key.host :=
  (planned_spec snapshot opts ((mem_plans_iff snapshot opts plan).mp h)).2

theorem plans_nodup : ((plans snapshot opts).map (·.key)).Nodup := by
  have hperm : (plans snapshot opts).Perm ((planSnapshot snapshot opts).routes.map (·.2)) :=
    List.perm_insertionSort _ _
  rw [(hperm.map _).nodup_iff, List.map_map]
  have hkeys : ((planSnapshot snapshot opts).routes.map ((·.key) ∘ (·.2))) =
      (planSnapshot snapshot opts).routes.map (·.1) := by
    refine List.map_congr_left ?_
    rintro ⟨k, plan⟩ hmem
    exact (planned_spec snapshot opts (get_of_mem (planned_nodup snapshot opts) hmem)).1
  rw [hkeys]
  exact planned_nodup snapshot opts

/-- Two planned routes of one key are the same. -/
theorem plan_unique {plan plan' : RoutePlan} (h : plan ∈ plans snapshot opts)
    (h' : plan' ∈ plans snapshot opts) (hkey : plan.key = plan'.key) : plan = plan' :=
  List.inj_on_of_nodup_map (plans_nodup snapshot opts) h h' hkey

theorem plans_sorted :
    (plans snapshot opts).Pairwise fun a b => a.key.sortKey ≤ b.key.sortKey := by
  have htotal : Std.Total fun a b : RoutePlan => a.key.sortKey ≤ b.key.sortKey :=
    ⟨fun a b => le_total a.key.sortKey b.key.sortKey⟩
  have htrans : IsTrans RoutePlan fun a b => a.key.sortKey ≤ b.key.sortKey :=
    ⟨fun _ _ _ => le_trans⟩
  exact List.pairwise_insertionSort _ _

/-- A planned route is the first declared rule on its key, else the first fallback on it. -/
theorem plan_source {plan : RoutePlan} (h : plan ∈ plans snapshot opts) :
    ((declared snapshot opts).find? fun d => d.key = plan.key) = some (bare plan) ∨
      ((declared snapshot opts).find? fun d => d.key = plan.key) = none ∧
        ((fallbacks snapshot opts).find? fun d => d.key = plan.key) = some (bare plan) := by
  have hheld := planned_routes snapshot opts plan.key
  rw [(mem_plans_iff snapshot opts plan).mp h, Option.map_some] at hheld
  exact Option.or_eq_some_iff.mp hheld.symm

/-- A key that somebody declares, or falls back on, is planned. -/
theorem plan_of_source {d : RoutePlan}
    (h : d ∈ declared snapshot opts ∨ d ∈ fallbacks snapshot opts) :
    ∃ plan ∈ plans snapshot opts, plan.key = d.key := by
  have hfound : (holder snapshot opts d.key).isSome = true := by
    unfold holder
    rw [Option.isSome_or, Bool.or_eq_true, List.find?_isSome, List.find?_isSome]
    exact h.imp (fun h => ⟨d, h, by simp⟩) fun h => ⟨d, h, by simp⟩
  rw [← planned_routes, Option.isSome_map] at hfound
  obtain ⟨plan, hplan⟩ := Option.isSome_iff_exists.mp hfound
  have hkey := (planned_spec snapshot opts hplan).1
  exact ⟨plan, (mem_plans_iff snapshot opts plan).mpr (hkey ▸ hplan), hkey⟩

/-- What a registered draft says of the plan it came from. -/
structure DraftOf (plan : RoutePlan) (d : RouteDraft) : Prop where
  slot : draftSlot plan.key.host = .ok d.slot
  path : d.path = plan.key.path
  pathType : d.pathType = plan.key.pathType
  backend : d.backend = plan.backend.backendName
  slotOk : SlotOk d.slot
  regex : d.pathType = .implementationSpecific → d.regex = some (pathRegex d.path)

theorem draftOf_plainDraft {plan : RoutePlan} {d : RouteDraft}
    (h : plainDraft rx plan = .ok d) : DraftOf plan d := by
  obtain ⟨hslot, hpath, htype, hbackend, hregex⟩ := draft_spec rx h
  obtain ⟨slot, hdraftSlot, h⟩ := bind_eq_ok.mp h
  obtain ⟨regex, -, h⟩ := bind_eq_ok.mp h
  have hsame : d.slot = slot := by
    cases h
    rfl
  exact ⟨hsame ▸ hdraftSlot, hpath, htype, hbackend, hslot, fun hkind => by
    rw [hpath]; exact hregex (htype ▸ hkind)⟩

/-- The draft a plan is registered as: its plain draft, with parts the router took. -/
theorem finalDraft_cases {plan : RoutePlan} {d : RouteDraft} (h : finalDraft rx plan = some d) :
    ∃ plain, plainDraft rx plan = .ok plain ∧
      ((∃ canary mirror, draftedCanary rx plan plain.slot = .ok canary ∧
          draftedMirror plan plain.slot = .ok mirror ∧
            d = { plain with canary := canary, mirror := mirror }) ∨ d = plain) := by
  unfold finalDraft at h
  split at h
  · cases h
  · rename_i plain hplain
    refine ⟨plain, hplain, ?_⟩
    split at h
    · rename_i canary mirror hcanary hmirror
      cases h
      exact Or.inl ⟨canary, mirror, hcanary, hmirror, rfl⟩
    · cases h
      exact Or.inr rfl

theorem draftOf_finalDraft {plan : RoutePlan} {d : RouteDraft} (h : finalDraft rx plan = some d) :
    DraftOf plan d := by
  obtain ⟨plain, hplain, ⟨canary, mirror, -, -, rfl⟩ | rfl⟩ := finalDraft_cases rx h
  · have hplain := draftOf_plainDraft rx hplain
    exact ⟨hplain.slot, hplain.path, hplain.pathType, hplain.backend, hplain.slotOk, hplain.regex⟩
  · exact draftOf_plainDraft rx hplain

theorem draftedCanary_backend {plan : RoutePlan} {slot : HostSlot}
    {canary : Option CanaryDraft} (h : draftedCanary rx plan slot = .ok canary) {c : CanaryDraft}
    (hc : canary = some c) : ∃ p, plan.canary = some p ∧ c.backend = p.backend.backendName := by
  rcases optional_eq_ok.mp h with ⟨-, rfl⟩ | ⟨p, d, hp, hd, rfl⟩
  · cases hc
  · cases hc
    refine ⟨p, hp, ?_⟩
    unfold canaryDraft at hd
    dsimp only at hd
    generalize (if (canaryRulesOf p).weightTotal = 0 then _ else _) = total at hd
    split at hd
    · cases hd
    split at hd
    · cases hd
    obtain ⟨header, -, hd⟩ := bind_eq_ok.mp hd
    cases hd
    rfl

private theorem draftedMirror_backend {plan : RoutePlan} {slot : HostSlot}
    {mirror : Option MirrorDraft} (h : draftedMirror plan slot = .ok mirror) {m : MirrorDraft}
    (hm : mirror = some m) : ∃ p, plan.mirror = some p ∧ m.backend = p.backend.backendName := by
  rcases optional_eq_ok.mp h with ⟨-, rfl⟩ | ⟨p, d, hp, hd, rfl⟩
  · cases hm
  · cases hm
    refine ⟨p, hp, ?_⟩
    simp only [mirrorDraft] at hd
    split at hd
    · cases hd
    split at hd
    · cases hd
    cases hd
    rfl

/-- Two plans registered under one key are one plan. -/
theorem drafts_nodup :
    (((plans snapshot opts).filterMap (finalDraft rx)).map RouteDraft.key).Nodup := by
  have hplans : (plans snapshot opts).Pairwise fun a b => a.key ≠ b.key :=
    List.pairwise_map.mp (plans_nodup snapshot opts)
  unfold List.Nodup
  rw [List.pairwise_map, List.pairwise_filterMap]
  refine hplans.imp_of_mem ?_
  intro a b ha hb hne d hd e he heq
  have hda := draftOf_finalDraft rx hd
  have heb := draftOf_finalDraft rx he
  simp only [RouteDraft.key, Prod.mk.injEq] at heq
  obtain ⟨hslot, hpath, htype⟩ := heq
  have hhost : a.key.host = b.key.host := by
    rw [← hostOfSlot_draftSlot (normal_of_mem_plans snapshot opts ha) hda.slot,
      ← hostOfSlot_draftSlot (normal_of_mem_plans snapshot opts hb) heb.slot, hslot]
  refine hne ?_
  have hkeys : ∀ k k' : RouteKey, k.host = k'.host → k.path = k'.path →
      k.pathType = k'.pathType → k = k' := by
    rintro ⟨_, _, _⟩ ⟨_, _, _⟩ rfl rfl rfl
    rfl
  exact hkeys _ _ hhost (by rw [← hda.path, ← heb.path, hpath])
    (by rw [← hda.pathType, ← heb.pathType, htype])

theorem nodup_collected : ((collected snapshot opts).1.map (·.1)).Nodup := by
  have hclaimed : (((((plans snapshot opts).flatMap claimsOf).foldl claimBackend
      ([], [])).1).map (·.1)).Nodup := by
    rw [claimed_backends]
    exact nodup_keys_claimEach _ _ _ List.nodup_nil
  unfold collected collectBackends
  dsimp only
  split
  · exact hclaimed
  · split
    · exact hclaimed
    · exact nodup_keys_insert hclaimed _ _

/-- A Service port that a planned route, canary or mirror names, or the default backend. -/
def References (target : ServiceRef) : Prop :=
  (∃ plan ∈ plans snapshot opts, ∃ c ∈ claimsOf plan, c.target = target) ∨
    (planSnapshot snapshot opts).defaultBackend = some target

theorem collected_iff (target : ServiceRef) :
    (get (collected snapshot opts).1 target).isSome = true ↔ References snapshot opts target := by
  have hclaimed : (get (((plans snapshot opts).flatMap claimsOf).foldl claimBackend ([], [])).1
      target).isSome = true ↔ ∃ plan ∈ plans snapshot opts, ∃ c ∈ claimsOf plan, c.target = target := by
    rw [claimed_backends, get_claimEach, get_nil, Option.none_or, Option.isSome_map,
      List.find?_isSome]
    constructor
    · rintro ⟨c, hc, htarget⟩
      obtain ⟨plan, hplan, hc⟩ := List.mem_flatMap.mp hc
      exact ⟨plan, hplan, c, hc, of_decide_eq_true htarget⟩
    · rintro ⟨plan, hplan, c, hc, rfl⟩
      exact ⟨c, List.mem_flatMap.mpr ⟨plan, hplan, hc⟩, by simp⟩
  unfold References
  rw [← hclaimed]
  have hplans : sortedPlans (planSnapshot snapshot opts).routes = plans snapshot opts := rfl
  unfold collected collectBackends
  rw [hplans]
  cases (planSnapshot snapshot opts).defaultBackend with
  | none => simp
  | some default =>
      dsimp only
      split
      · rename_i hheld
        constructor
        · exact Or.inl
        · rintro (h | h)
          · exact h
          · cases h
            exact hheld
      · rw [get_insert]
        by_cases htarget : target = default
        · simp [htarget]
        · simp [htarget, Ne.symm htarget]

/-- Every Service port that is named is registered. -/
theorem mem_backendNames {target : ServiceRef} (h : References snapshot opts target) :
    target.backendName ∈ backendNames snapshot opts := by
  obtain ⟨protocol, hget⟩ :=
    Option.isSome_iff_exists.mp ((collected_iff snapshot opts target).mpr h)
  exact List.mem_map.mpr ⟨(target, protocol),
    (List.mem_insertionSort _).mpr (mem_of_get hget), rfl⟩

/-- The names are distinct exactly when no two Service ports are rendered alike. -/
theorem nodup_backendNames_iff :
    (backendNames snapshot opts).Nodup ↔ ∀ s t, References snapshot opts s →
      References snapshot opts t → s.backendName = t.backendName → s = t := by
  have hkeys : ((collected snapshot opts).1.map (·.1)).Nodup := nodup_collected snapshot opts
  have hperm : (backendNames snapshot opts).Perm
      (((collected snapshot opts).1.map (·.1)).map ServiceRef.backendName) := by
    rw [List.map_map]
    exact (List.perm_insertionSort _ _).map _
  have hmem : ∀ target, target ∈ (collected snapshot opts).1.map (·.1) ↔
      References snapshot opts target := by
    intro target
    rw [← get_isSome_iff, collected_iff]
  rw [hperm.nodup_iff]
  constructor
  · intro hnodup s t hs ht heq
    exact List.inj_on_of_nodup_map hnodup ((hmem s).mpr hs) ((hmem t).mpr ht) heq
  · intro hdistinct
    refine List.Nodup.map_on ?_ hkeys
    intro s hs t ht heq
    exact hdistinct s t ((hmem s).mp hs) ((hmem t).mp ht) heq

end Plans

section Result

variable {F : Type} (fl : Floats F) (rx : RegexEngine) (snapshot : ClusterSnapshot)
  (opts : ControllerOpts) (previous : Option RouteTable)

private theorem collectBackends_warnings (routes : Routes) (target : Option ServiceRef) :
    Quiet (collectBackends routes target).2 := by
  have hone : ∀ (s : Backends × List Warning) (c : BackendClaim), Quiet s.2 →
      Quiet (claimBackend s c).2 := by
    intro s c hs
    unfold claimBackend
    split
    · exact hs
    · split
      · exact hs
      · exact hs.append (quiet_singleton rfl)
  have hfold : ∀ (claims : List BackendClaim) (s : Backends × List Warning), Quiet s.2 →
      Quiet (claims.foldl claimBackend s).2 := by
    intro claims
    induction claims with
    | nil => exact fun _ => id
    | cons c rest ih => exact fun s hs => ih _ (hone s c hs)
  have hclaims := hfold ((sortedPlans routes).flatMap claimsOf) ([], []) quiet_nil
  unfold collectBackends
  dsimp only
  split
  · exact hclaims
  · split
    · exact hclaims
    · exact hclaims

/-- The builder a translation freezes. -/
structure Finished (b : RouteTableBuilder) : Prop where
  ok : BuilderOk b
  routes : b.routes = (plans snapshot opts).filterMap (finalDraft rx)
  names : b.backends.map (·.name) = backendNames snapshot opts
  default : b.defaultBackend = (planSnapshot snapshot opts).defaultBackend.map (·.backendName)

private theorem started_builder : BuilderOk (started snapshot opts previous).builder ∧
    (started snapshot opts previous).builder.backends = [] ∧
    (started snapshot opts previous).builder.routes = [] ∧
    (started snapshot opts previous).builder.defaultBackend = none := by
  cases previous with
  | none => exact ⟨builderOk_fresh, rfl, rfl, rfl⟩
  | some table => exact ⟨builderOk_fromPrevious table, rfl, rfl, rfl⟩

private theorem registerDefault_builder (target : Option ServiceRef) (c : Compiling)
    (hnone : c.builder.defaultBackend = none) :
    (registerDefault target c).builder = { c.builder with
      defaultBackend := target.map (·.backendName) } ∧
      (registerDefault target c).warnings = c.warnings := by
  cases target with
  | none =>
      refine ⟨?_, rfl⟩
      rw [Option.map_none, ← hnone]
      rfl
  | some target => exact ⟨rfl, rfl⟩

private theorem builderOk_routes {b : RouteTableBuilder} (hb : BuilderOk b)
    (target : Option Bytes) :
    BuilderOk { b with
      routes := (plans snapshot opts).filterMap (finalDraft rx), defaultBackend := target } := by
  have hdraft : ∀ d ∈ (plans snapshot opts).filterMap (finalDraft rx), ∃ plan, DraftOf plan d := by
    intro d hd
    obtain ⟨plan, -, hplan⟩ := List.mem_filterMap.mp hd
    exact ⟨plan, draftOf_finalDraft rx hplan⟩
  refine ⟨hb.ids, fun d hd => ?_, fun d hd => ?_⟩
  · obtain ⟨plan, hplan⟩ := hdraft d hd
    exact hplan.regex
  · obtain ⟨plan, hplan⟩ := hdraft d hd
    exact hplan.slotOk

/-- What registration leaves to be frozen once every backend is in. -/
theorem finished_spec {c : Compiling}
    (h : Registered (started snapshot opts previous) c (sortedBackends (collected snapshot opts).1)) :
    Finished rx snapshot opts (finished rx snapshot opts c).builder ∧
      ∃ ws, (finished rx snapshot opts c).warnings = c.warnings ++ ws ∧ Quiet ws ∧
        (∀ w ∈ ((plans snapshot opts).foldl (registerRoute rx) c).warnings,
          w ∈ (finished rx snapshot opts c).warnings) ∧
        ∀ w ∈ (wiredCerts snapshot (planSnapshot snapshot opts).managed).warnings,
          w ∈ (finished rx snapshot opts c).warnings := by
  obtain ⟨-, hbackends, hroutes, hdefault⟩ := started_builder snapshot opts previous
  have hnone : c.builder.routes = [] := h.routes.trans hroutes
  obtain ⟨hplans, ws, hws, hquiet⟩ := registerPlans_spec rx (plans snapshot opts) c
  have hrouted : (registerRoutes rx (planSnapshot snapshot opts).routes c).builder =
      { c.builder with routes := (plans snapshot opts).filterMap (finalDraft rx) } := by
    rw [hnone, List.nil_append] at hplans
    exact hplans
  obtain ⟨hnamed, hnamedws⟩ := registerDefault_builder (planSnapshot snapshot opts).defaultBackend
    (registerRoutes rx (planSnapshot snapshot opts).routes c) (by
      rw [hrouted]
      exact h.default.trans hdefault)
  obtain ⟨hsame, ⟨ws', hws', hquiet'⟩, -⟩ := registerCertificates_spec snapshot opts
    (planSnapshot snapshot opts).managed (registerDefault (planSnapshot snapshot opts).defaultBackend
      (registerRoutes rx (planSnapshot snapshot opts).routes c))
  rw [hrouted] at hnamed
  rw [hnamed] at hsame
  have hall : (finished rx snapshot opts c).warnings =
      ((plans snapshot opts).foldl (registerRoute rx) c).warnings ++
        ((wiredCerts snapshot (planSnapshot snapshot opts).managed).warnings ++ ws') := by
    rw [finished, hws', hnamedws]
    rfl
  refine ⟨⟨?_, hsame.routes, ?_, hsame.default⟩,
    ws ++ ((wiredCerts snapshot (planSnapshot snapshot opts).managed).warnings ++ ws'), ?_,
    hquiet.append hquiet', fun w hw => ?_, fun w hw => ?_⟩
  · exact hsame.builderOk (builderOk_routes rx snapshot opts h.ok _)
  · have hnames := h.names
    rw [hbackends, List.map_nil, List.nil_append] at hnames
    exact (congrArg (List.map (·.name)) hsame.backends).trans hnames
  · rw [hall, hws, List.append_assoc]
  · rw [hall]
    exact List.mem_append_left _ hw
  · rw [hall]
    exact List.mem_append_right _ (List.mem_append_left _ hw)

/-- The certificates of a finished builder: wired under their hosts, or reported. -/
theorem finished_certs (c : Compiling) :
    ∀ entry ∈ wiredEntries snapshot (planSnapshot snapshot opts).managed,
      (∃ err, normalizeConfigHost entry.1 = .error err ∧
        ⟨entry.2.2, .tlsHostRefused entry.1 err⟩ ∈ (finished rx snapshot opts c).warnings) ∨
      ∃ slot, normalizeConfigHost entry.1 = .ok slot ∧
        tlsAt (finished rx snapshot opts c).builder slot = some entry.2.1 :=
  (registerCertificates_spec snapshot opts (planSnapshot snapshot opts).managed _).2.2

theorem resolved_finished {b : RouteTableBuilder} (hb : Finished rx snapshot opts b) :
    ∀ d ∈ b.routes, Resolved b.backendIds d := by
  intro d hd
  rw [hb.routes] at hd
  obtain ⟨plan, hplan, hdraft⟩ := List.mem_filterMap.mp hd
  have hknown : ∀ claim ∈ claimsOf plan, (get b.backendIds claim.target.backendName).isSome = true := by
    intro claim hclaim
    rw [get_isSome_iff_registered hb.ok, hb.names]
    exact mem_backendNames snapshot opts (Or.inl ⟨plan, hplan, claim, hclaim, rfl⟩)
  have hbackend : (get b.backendIds d.backend).isSome = true := by
    rw [(draftOf_finalDraft rx hdraft).backend]
    exact hknown ⟨plan.backend, plan.protocol, plan.owner⟩ (by simp [claimsOf])
  obtain ⟨plain, hplain, ⟨canary, mirror, hcanary, hmirror, rfl⟩ | rfl⟩ := finalDraft_cases rx hdraft
  · refine ⟨hbackend, fun c hc => ?_, fun m hm => ?_⟩
    · obtain ⟨p, hp, hname⟩ := draftedCanary_backend rx hcanary hc
      rw [hname]
      exact hknown ⟨p.backend, p.protocol, p.owner⟩ (by simp [claimsOf, hp])
    · obtain ⟨p, hp, hname⟩ := draftedMirror_backend hmirror hm
      rw [hname]
      exact hknown ⟨p.backend, p.protocol, plan.owner⟩ (by simp [claimsOf, hp])
  · obtain ⟨hnone, hnone'⟩ := plainDraft_spec rx hplain
    refine ⟨hbackend, fun c hc => ?_, fun m hm => ?_⟩
    · rw [hnone] at hc
      cases hc
    · rw [hnone'] at hm
      cases hm

/-- Once every backend is registered nothing can stop the table from being built. -/
theorem build_finished {b : RouteTableBuilder} (hb : Finished rx snapshot opts b) :
    ∃ t, b.build = .ok t := by
  refine build_of_resolved ?_ (resolved_finished rx snapshot opts hb) ?_
  · rw [hb.routes]
    exact drafts_nodup rx snapshot opts
  · intro name hname
    rw [hb.default] at hname
    obtain ⟨target, htarget, rfl⟩ := Option.map_eq_some_iff.mp hname
    rw [get_isSome_iff_registered hb.ok, hb.names]
    exact mem_backendNames snapshot opts (Or.inr htarget)

/-- A translation succeeds exactly when no two Service ports are rendered alike. -/
theorem translate_ok_iff :
    (∃ r, translate fl rx snapshot opts previous = .ok r) ↔ (backendNames snapshot opts).Nodup := by
  obtain ⟨hok, hbackends, -, -⟩ := started_builder snapshot opts previous
  have hnames : ((started snapshot opts previous).builder.backends.map (·.name) ++
      (sortedBackends (collected snapshot opts).1).map (·.1.backendName)) =
        backendNames snapshot opts := by
    rw [hbackends]
    rfl
  rw [translate_eq]
  constructor
  · rintro ⟨r, hr⟩
    obtain ⟨c, hc, -⟩ := bind_eq_ok.mp hr
    rw [← hnames]
    exact nodup_of_registerEach hok (by simp [hbackends]) hc
  · intro hnodup
    obtain ⟨c, hc, hreg⟩ := registerEach_of_nodup
      (EndpointIndex.new snapshot.services snapshot.endpointSlices) opts.lbPolicy hok
      (hnames ▸ hnodup)
    obtain ⟨t, ht⟩ := build_finished rx snapshot opts (finished_spec rx snapshot opts previous hreg).1
    exact ⟨_, bind_eq_ok.mpr ⟨c, hc, bind_eq_ok.mpr ⟨t, ht, rfl⟩⟩⟩

/-- Where the parts of a translation come from. -/
theorem translate_spec {r : Translation F} (h : translate fl rx snapshot opts previous = .ok r) :
    ∃ c, Registered (started snapshot opts previous) c (sortedBackends (collected snapshot opts).1) ∧
      (finished rx snapshot opts c).builder.build = .ok r.config.table ∧
      ∃ ws, r.warnings = (finished rx snapshot opts c).warnings ++ ws ∧ Quiet ws := by
  have hnodup := (translate_ok_iff fl rx snapshot opts previous).mp ⟨r, h⟩
  obtain ⟨hok, hbackends, -, -⟩ := started_builder snapshot opts previous
  have hnames : ((started snapshot opts previous).builder.backends.map (·.name) ++
      (sortedBackends (collected snapshot opts).1).map (·.1.backendName)).Nodup := by
    rw [hbackends]
    exact hnodup
  obtain ⟨c, hc, hreg⟩ := registerEach_of_nodup
    (EndpointIndex.new snapshot.services snapshot.endpointSlices) opts.lbPolicy hok hnames
  rw [translate_eq] at h
  obtain ⟨c', hc', h⟩ := bind_eq_ok.mp h
  obtain rfl : c = c' := by
    have heq : Except.ok c = (Except.ok c' : Except BuildError Compiling) := hc.symm.trans hc'
    injection heq
  obtain ⟨t, ht, h⟩ := bind_eq_ok.mp h
  cases h
  exact ⟨c, hreg, ht, collectPromotions_warnings fl _ _ _ _⟩

/-- The conflicts a translation reports are those of the planning. -/
theorem translate_conflicts {r : Translation F}
    (h : translate fl rx snapshot opts previous = .ok r) :
    conflicts r.warnings = conflicts (planSnapshot snapshot opts).warnings := by
  obtain ⟨c, hreg, -, ws, hws, hquiet⟩ := translate_spec fl rx snapshot opts previous h
  obtain ⟨-, ws', hws', hquiet', -⟩ := finished_spec rx snapshot opts previous hreg
  have hcollected : conflicts (collected snapshot opts).2 = [] := collectBackends_warnings _ _
  have h1 : conflicts ws = [] := hquiet
  have h2 : conflicts ws' = [] := hquiet'
  rw [hws, hws', conflicts_append, conflicts_append, h1, h2, List.append_nil, List.append_nil,
    hreg.warnings]
  simp [started, hcollected]

end Result

section Samples

/-- Thresholds nobody asks for. -/
def noFloats : Floats Unit :=
  ⟨fun _ => none, fun _ => true, fun _ _ => true, (), (), (), (), fun _ => []⟩

/-- A path of type `pathType` that leads to a Service port. -/
def pathTo (path pathType service : Bytes) (port : ServiceBackendPort) : HTTPIngressPath :=
  ⟨some path, pathType, ⟨some ⟨service, some port⟩⟩⟩

/-- An Ingress of the class `ramjet` for the host `shop.test`, created at a given second. -/
def shopIngress (name : Bytes) (created : Int) (annotations : Annotations)
    (paths : List HTTPIngressPath) (default : Option IngressBackend) : Ingress where
  metadata :=
    { name := some name
      namespace_ := some (ascii "default")
      creationTimestamp := some created
      annotations := (ANNOTATION_LEGACY_CLASS, ascii "ramjet") :: annotations }
  spec := some
    { rules := some [⟨some (ascii "shop.test"), some paths⟩]
      defaultBackend := default }

end Samples

end Ramjet.Controller.Compiled
