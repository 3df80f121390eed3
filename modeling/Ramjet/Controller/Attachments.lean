/- digest: When canaries and mirrors cost neither production nor each other. -/

import Ramjet.Controller.Pruning
import Ramjet.Controller.Totality

set_option autoImplicit false
set_option relaxedAutoImplicit false

namespace Ramjet.Controller.Attachments

open Ramjet.Base.Octets
open Ramjet.Base.Outcome
open Ramjet.Base.AssocMap
open Ramjet.Router.Balancing
open Ramjet.Router.Rule
open Ramjet.Router.Table
open Ramjet.Router.Builder
open Ramjet.Router.BuiltTable
open Ramjet.Router.RoutingAgreement (literalEngine)
open Ramjet.Controller.Objects
open Ramjet.Controller.Annotations
open Ramjet.Controller.Config
open Ramjet.Controller.Plan
open Ramjet.Controller.Translate
open Ramjet.Controller.Claims
open Ramjet.Controller.Registration
open Ramjet.Controller.Compiled
open Ramjet.Controller.Pruning
open Ramjet.Controller.Totality (Distinguished heavyCanary)

section Purpose

/-- The rule a table has for a route. -/
structure RouteAt (t : RouteTable) (slot : HostSlot) (path : Bytes) (pathType : PathType)
    (rule : PathRule) : Prop where
  filed : ∃ v, vhostAt t slot = some v ∧ rule ∈ v.routes
  path : rule.path = path
  pathType : rule.pathType = pathType

/-- The backend an id leads to; a backend is one Service port, known by its name. -/
def nameAt (t : RouteTable) (id : BackendId) : Option Bytes := (t.backends[id]?).map (·.name)

/-- What a rule does, its backends by name. -/
structure Shown where
  backend : Option Bytes
  canary : Option (CanarySpec × Option Bytes)
  mirror : Option (MirrorSpec × Option Bytes)
  deriving DecidableEq

def shown (t : RouteTable) (rule : PathRule) : Shown where
  backend := nameAt t rule.backend
  canary := rule.canary.map fun c => ({ c with backend := 0 }, nameAt t c.backend)
  mirror := rule.mirror.map fun m => ({ m with backend := 0 }, nameAt t m.backend)

/-- Every route one table has with a part, another has with the same. -/
def Keeps {α : Type} (part : Shown → Option α) (t t' : RouteTable) : Prop :=
  ∀ slot path pathType rule, RouteAt t slot path pathType rule →
    (part (shown t rule)).isSome = true →
      ∃ rule', RouteAt t' slot path pathType rule' ∧ part (shown t' rule') = part (shown t rule)

variable {F : Type} (fl : Floats F) (rx : RegexEngine) (snapshot : ClusterSnapshot)
  (opts : ControllerOpts) (previous : Option RouteTable)

/-- What the routes of a pruned snapshot have, those of the whole snapshot have as well. -/
def Stays (canaries mirrors : Bool) {α : Type} (part : Shown → Option α) : Prop :=
  ∀ r, translate fl rx (pruned canaries mirrors snapshot) opts previous = .ok r →
    ∃ r', translate fl rx snapshot opts previous = .ok r' ∧
      Keeps part r.config.table r'.config.table

/-- Production is there as without canaries and mirrors, a mirror as without canaries, and a
canary as without mirrors. -/
structure Unharmed : Prop where
  production : Stays fl rx snapshot opts previous false false Shown.backend
  mirrors : Stays fl rx snapshot opts previous false true Shown.mirror
  canaries : Stays fl rx snapshot opts previous true false Shown.canary

/-- The router accepts the canary of every accepted route that has a mirror too. -/
def Spared : Prop :=
  ∀ plan ∈ plans snapshot opts, ∀ d, plainDraft rx plan = .ok d → plan.canary.isSome = true →
    plan.mirror.isSome = true → (draftedCanary rx plan d.slot).isOk = true

/-- The name found where a name is registered, ids having 32 bits. -/
def landing (names : List Bytes) (name : Bytes) : Option Bytes :=
  (names.findIdx? fun n => decide (n = name)).bind fun i => names[i % U32_SIZE]?

/-- The backends of a pruned snapshot and of the whole one send an id of this name to one place. -/
def Settles (canaries mirrors : Bool) (target : ServiceRef) : Prop :=
  landing (backendNames snapshot opts) target.backendName =
    landing (backendNames (pruned canaries mirrors snapshot) opts) target.backendName

/-- The backends that canaries and mirrors add move no id past 32 bits onto another backend. -/
structure Steady : Prop where
  production : ∀ plan ∈ plans snapshot opts, ∀ d, plainDraft rx plan = .ok d →
    Settles snapshot opts false false plan.backend
  mirrors : ∀ plan ∈ plans snapshot opts, ∀ d m, plainDraft rx plan = .ok d →
    plan.mirror = some m → Settles snapshot opts false true m.backend
  canaries : ∀ plan ∈ plans snapshot opts, ∀ d c, plainDraft rx plan = .ok d →
    plan.canary = some c → (draftedCanary rx plan d.slot).isOk = true →
      Settles snapshot opts true false c.backend

end Purpose

section Landing

theorem landing_isSome {names : List Bytes} {name : Bytes} (h : name ∈ names) :
    (landing names name).isSome = true := by
  obtain ⟨i, hi⟩ := Option.isSome_iff_exists.mp
    (show (names.findIdx? fun n => decide (n = name)).isSome = true by
      rw [List.findIdx?_isSome, List.any_eq_true]
      exact ⟨name, h, by simp⟩)
  obtain ⟨hlt, -⟩ := List.findIdx?_eq_some_iff_getElem.mp hi
  have hmod : i % U32_SIZE < names.length := lt_of_le_of_lt (Nat.mod_le _ _) hlt
  rw [landing, hi, Option.bind_some, List.getElem?_eq_getElem hmod]
  rfl

/-- Where every backend has an id of its own, an id leads to its backend. -/
theorem landing_of_room {names : List Bytes} {name : Bytes} (hroom : names.length ≤ U32_SIZE)
    (h : name ∈ names) : landing names name = some name := by
  obtain ⟨i, hi⟩ := Option.isSome_iff_exists.mp
    (show (names.findIdx? fun n => decide (n = name)).isSome = true by
      rw [List.findIdx?_isSome, List.any_eq_true]
      exact ⟨name, h, by simp⟩)
  obtain ⟨hlt, hname, -⟩ := List.findIdx?_eq_some_iff_getElem.mp hi
  rw [landing, hi, Option.bind_some, Nat.mod_eq_of_lt (lt_of_lt_of_le hlt hroom),
    List.getElem?_eq_getElem hlt]
  exact congrArg some (of_decide_eq_true hname)

variable (rx : RegexEngine) (snapshot : ClusterSnapshot) (opts : ControllerOpts)

theorem length_backendNames_pruned (canaries mirrors : Bool) :
    (backendNames (pruned canaries mirrors snapshot) opts).length ≤
      (backendNames snapshot opts).length := by
  have hlength : ∀ s : ClusterSnapshot, (backendNames s opts).length =
      ((collected s opts).1.map (·.1)).length := fun s => by
    simp [backendNames, sortedBackends]
  rw [hlength, hlength]
  refine (List.subperm_of_subset (nodup_collected _ opts) fun target htarget => ?_).length_le
  rw [← get_isSome_iff, collected_iff] at htarget ⊢
  exact references_of_pruned canaries mirrors snapshot opts htarget

/-- A table of at most 2^32 backends is steady. -/
theorem steady_of_room (hroom : (backendNames snapshot opts).length ≤ U32_SIZE) :
    Steady rx snapshot opts := by
  have hsettles : ∀ canaries mirrors target,
      References (pruned canaries mirrors snapshot) opts target →
        Settles snapshot opts canaries mirrors target := by
    intro canaries mirrors target href
    have hwhole := references_of_pruned canaries mirrors snapshot opts href
    rw [Settles, landing_of_room hroom (mem_backendNames snapshot opts hwhole),
      landing_of_room ((length_backendNames_pruned snapshot opts canaries mirrors).trans hroom)
        (mem_backendNames _ opts href)]
  have hclaimed : ∀ canaries mirrors, ∀ plan ∈ plans snapshot opts,
      ∀ claim ∈ claimsOf (prunePlan canaries mirrors plan),
        Settles snapshot opts canaries mirrors claim.target := by
    intro canaries mirrors plan hplan claim hclaim
    exact hsettles _ _ _ (Or.inl ⟨_, (mem_plans_pruned canaries mirrors snapshot opts _).mpr
      ⟨plan, hplan, rfl⟩, claim, hclaim, rfl⟩)
  refine ⟨fun plan hplan _ _ => ?_, fun plan hplan _ m _ hm => ?_, fun plan hplan _ c _ hc _ => ?_⟩
  · exact hclaimed false false plan hplan ⟨plan.backend, plan.protocol, plan.owner⟩
      (by simp [claimsOf, prunePlan])
  · exact hclaimed false true plan hplan ⟨m.backend, m.protocol, plan.owner⟩
      (by simp [claimsOf, prunePlan, hm])
  · exact hclaimed true false plan hplan ⟨c.backend, c.protocol, c.owner⟩
      (by simp [claimsOf, prunePlan, hc])

end Landing

section Drafts

variable (rx : RegexEngine) {snapshot : ClusterSnapshot} {opts : ControllerOpts}

/-- The mirror of a planned route is in range, and names a backend. -/
private theorem mirror_in_range {plan : RoutePlan} (hplan : plan ∈ plans snapshot opts)
    {m : MirrorPlan} (hm : plan.mirror = some m) : m.percent ≤ 100 := by
  have horigin : ∀ ingress : Ingress, (originOf ingress).1.mirror = some m → m.percent ≤ 100 := by
    intro ingress h
    simp only [originOf, mirrorPlan] at h
    split at h
    · cases h
    · split at h
      · cases h
        exact mirrorPercent_le _
      · cases h
  have hsource : bare plan ∈ declared snapshot opts ∨ bare plan ∈ fallbacks snapshot opts := by
    rcases plan_source snapshot opts hplan with h | ⟨-, h⟩
    · exact Or.inl (List.mem_of_find?_eq_some h)
    · exact Or.inr (List.mem_of_find?_eq_some h)
  have hbare : (bare plan).mirror = some m := hm
  rcases hsource with h | h
  · obtain ⟨ingress, -, hd⟩ := List.mem_flatMap.mp h
    unfold declaredBy at hd
    split at hd
    · cases hd
    · obtain ⟨entry, -, hentry⟩ := List.mem_filterMap.mp hd
      obtain ⟨read, -, hread⟩ := Option.map_eq_some_iff.mp hentry
      rw [← hread] at hbare
      exact horigin ingress hbare
  · obtain ⟨ingress, -, hd⟩ := List.mem_flatMap.mp h
    unfold fallbacksBy at hd
    split at hd
    · cases hd
    · split at hd
      · cases hd
      · dsimp only at hd
        split at hd
        · cases hd
        · obtain ⟨host, -, hread⟩ := List.mem_map.mp hd
          rw [← hread] at hbare
          exact horigin ingress hbare

/-- The router never refuses a planned mirror. -/
theorem draftedMirror_eq {plan : RoutePlan} (hplan : plan ∈ plans snapshot opts)
    (slot : HostSlot) : draftedMirror plan slot =
      .ok (plan.mirror.map fun m => ⟨m.backend.backendName, m.percent, m.host⟩) := by
  unfold draftedMirror
  cases hm : plan.mirror with
  | none => rfl
  | some m =>
      have hname : (mirrorRulesOf m).backend.isEmpty = false := by
        simp [mirrorRulesOf, ServiceRef.backendName, ascii]
      have hpercent : ¬ MIRROR_PERCENT_TOTAL < (mirrorRulesOf m).percent := by
        have hle := mirror_in_range hplan hm
        exact not_lt.mpr hle
      have hdraft : mirrorDraft (mirrorRulesOf m) slot plan.key.path =
          .ok ⟨m.backend.backendName, m.percent, m.host⟩ := by
        rw [mirrorDraft, hname, if_neg (by simp), if_neg hpercent]
        rfl
      simp only [Base.Outcome.optional, hdraft]
      rfl

/-- A planned route is registered with all its parts, or bare where its canary is refused. -/
theorem finalDraft_eq {plan : RoutePlan} (hplan : plan ∈ plans snapshot opts) {d : RouteDraft}
    (hd : plainDraft rx plan = .ok d) :
    finalDraft rx plan = some (match draftedCanary rx plan d.slot with
      | .ok canary =>
          { d with
            canary := canary
            mirror := plan.mirror.map fun m => ⟨m.backend.backendName, m.percent, m.host⟩ }
      | .error _ => d) := by
  unfold finalDraft
  rw [hd]
  dsimp only
  rw [draftedMirror_eq hplan]
  cases draftedCanary rx plan d.slot <;> rfl

end Drafts

section Tables

/-- What a rule frozen from a draft shows in a table of these backends. -/
def promised (names : List Bytes) (d : RouteDraft) : Shown where
  backend := landing names d.backend
  canary := d.canary.map fun c =>
    (CanarySpec.new 0 c.header c.cookie c.weight c.weightTotal, landing names c.backend)
  mirror := d.mirror.map fun m => (MirrorSpec.new 0 m.percent m.host, landing names m.backend)

private theorem nameAt_built {b : RouteTableBuilder} {t : RouteTable} (hb : BuilderOk b)
    (hbackends : t.backends = builtBackends b.backends) {name : Bytes}
    (hknown : (get b.backendIds name).isSome = true) :
    nameAt t ((get b.backendIds name).getD 0) = landing (b.backends.map (·.name)) name := by
  obtain ⟨id, hid⟩ := Option.isSome_iff_exists.mp hknown
  have hid' := hid
  rw [hb.ids, Option.map_eq_some_iff] at hid'
  obtain ⟨i, hfind, rfl⟩ := hid'
  have hnames : ((b.backends.map (·.name)).findIdx? fun n => decide (n = name)) = some i := by
    rw [List.findIdx?_map]
    exact hfind
  rw [hid, Option.getD_some, landing, hnames, Option.bind_some, nameAt, hbackends, builtBackends,
    List.getElem?_map, List.getElem?_map, List.getElem?_zipIdx, Option.map_map, Option.map_map]
  rfl

variable {F : Type} (fl : Floats F) (rx : RegexEngine) {snapshot : ClusterSnapshot}
  {opts : ControllerOpts} {previous : Option RouteTable} {r : Translation F}

private theorem frozen_parts (ids : Map Bytes BackendId) (d : RouteDraft) (index : Nat) :
    ((frozenRule ids d).setStatsIndex index).canary = (d.canary.map fun c =>
      CanarySpec.new ((get ids c.backend).getD 0) c.header c.cookie c.weight c.weightTotal) ∧
    ((frozenRule ids d).setStatsIndex index).mirror = d.mirror.map fun m =>
      MirrorSpec.new ((get ids m.backend).getD 0) m.percent m.host := by
  obtain ⟨slot, path, pathType, regex, backend, canary, mirror⟩ := d
  cases canary <;> cases mirror <;> exact ⟨rfl, rfl⟩

private theorem shown_frozen {b : RouteTableBuilder} {t : RouteTable} (hb : BuilderOk b)
    (hbackends : t.backends = builtBackends b.backends) {d : RouteDraft}
    (hresolved : Resolved b.backendIds d) (index : Nat) :
    shown t ((frozenRule b.backendIds d).setStatsIndex index) =
      promised (b.backends.map (·.name)) d := by
  obtain ⟨hcanary, hmirror⟩ := frozen_parts b.backendIds d index
  have hname : nameAt t ((frozenRule b.backendIds d).setStatsIndex index).backend =
      landing (b.backends.map (·.name)) d.backend := nameAt_built hb hbackends hresolved.backend
  rw [shown, promised, hname, hcanary, hmirror, Option.map_map, Option.map_map]
  congr 1
  · refine Option.map_congr fun c hc => ?_
    exact congrArg (Prod.mk _) (nameAt_built hb hbackends (hresolved.canary c hc))
  · refine Option.map_congr fun m hm => ?_
    exact congrArg (Prod.mk _) (nameAt_built hb hbackends (hresolved.mirror m hm))

/-- The routes of a table are those planned, each with what its draft promised. -/
theorem routeAt_translated (h : translate fl rx snapshot opts previous = .ok r) :
    (∀ plan ∈ plans snapshot opts, ∀ d, finalDraft rx plan = some d →
      (∃ rule, RouteAt r.config.table d.slot plan.key.path plan.key.pathType rule) ∧
      ∀ rule, RouteAt r.config.table d.slot plan.key.path plan.key.pathType rule →
        shown r.config.table rule = promised (backendNames snapshot opts) d) ∧
    ∀ slot path pathType rule, RouteAt r.config.table slot path pathType rule →
      ∃ plan ∈ plans snapshot opts, ∃ d, finalDraft rx plan = some d ∧ d.slot = slot ∧
        plan.key.path = path ∧ plan.key.pathType = pathType := by
  obtain ⟨c, hreg, hbuild, -⟩ := translate_spec fl rx snapshot opts previous h
  obtain ⟨hfinished, -⟩ := finished_spec rx snapshot opts previous hreg
  have hresolved := resolved_finished rx snapshot opts hfinished
  have hbackends := (build_ok hbuild).1
  refine ⟨fun plan hplan d hd => ⟨?_, fun rule hrule => ?_⟩, fun slot path pathType rule hrule => ?_⟩
  · have hmem : d ∈ (finished rx snapshot opts c).builder.routes := by
      rw [hfinished.routes]
      exact List.mem_filterMap.mpr ⟨plan, hplan, hd⟩
    obtain ⟨v, index, hv, hmemv⟩ := mem_vhost_of_draft hbuild hmem
    have hspec := draftOf_finalDraft rx hd
    exact ⟨_, ⟨v, hv, hmemv⟩, hspec.path, hspec.pathType⟩
  · obtain ⟨⟨v, hv, hmemv⟩, hpath, htype⟩ := hrule
    obtain ⟨e, he, hslot, index, rfl⟩ := draft_of_mem_vhost hbuild hv hmemv
    have hmem : d ∈ (finished rx snapshot opts c).builder.routes := by
      rw [hfinished.routes]
      exact List.mem_filterMap.mpr ⟨plan, hplan, hd⟩
    have hspec := draftOf_finalDraft rx hd
    have hkey : e.key = d.key := by
      have hepath : e.path = d.path := hpath.trans hspec.path.symm
      have hetype : e.pathType = d.pathType := htype.trans hspec.pathType.symm
      rw [RouteDraft.key, RouteDraft.key, hslot, hepath, hetype]
    have hnodup : ((finished rx snapshot opts c).builder.routes.map RouteDraft.key).Nodup := by
      rw [hfinished.routes]
      exact drafts_nodup rx snapshot opts
    obtain rfl := List.inj_on_of_nodup_map hnodup he hmem hkey
    rw [shown_frozen hfinished.ok hbackends (hresolved e he), hfinished.names]
  · obtain ⟨⟨v, hv, hmemv⟩, hpath, htype⟩ := hrule
    obtain ⟨e, he, hslot, index, rfl⟩ := draft_of_mem_vhost hbuild hv hmemv
    rw [hfinished.routes] at he
    obtain ⟨plan, hplan, hd⟩ := List.mem_filterMap.mp he
    have hspec := draftOf_finalDraft rx hd
    exact ⟨plan, hplan, e, hd, hslot, hspec.path.symm.trans hpath, hspec.pathType.symm.trans htype⟩

variable (canaries mirrors : Bool)

/-- Two tables keep a part apart exactly where some draft of theirs does. -/
private theorem keeps_iff {α : Type} {part : Shown → Option α} {r' : Translation F}
    (h : translate fl rx (pruned canaries mirrors snapshot) opts previous = .ok r)
    (h' : translate fl rx snapshot opts previous = .ok r') :
    Keeps part r.config.table r'.config.table ↔
      ∀ plan ∈ plans snapshot opts, ∀ d d',
        finalDraft rx (prunePlan canaries mirrors plan) = some d → finalDraft rx plan = some d' →
          (part (promised (backendNames (pruned canaries mirrors snapshot) opts) d)).isSome = true →
            part (promised (backendNames snapshot opts) d') =
              part (promised (backendNames (pruned canaries mirrors snapshot) opts) d) := by
  obtain ⟨hserved, hsource⟩ := routeAt_translated fl rx h
  obtain ⟨hserved', -⟩ := routeAt_translated fl rx h'
  have hslots : ∀ plan d d', finalDraft rx (prunePlan canaries mirrors plan) = some d →
      finalDraft rx plan = some d' → d.slot = d'.slot := by
    intro plan d d' hd hd'
    have hslot := (draftOf_finalDraft rx hd).slot
    have hslot' := (draftOf_finalDraft rx hd').slot
    have heq := hslot.symm.trans hslot'
    injection heq
  constructor
  · intro hkeeps plan hplan d d' hd hd' hsome
    have hpruned := (mem_plans_pruned canaries mirrors snapshot opts _).mpr ⟨plan, hplan, rfl⟩
    obtain ⟨⟨rule, hrule⟩, hshown⟩ := hserved _ hpruned d hd
    have hpromised := hshown rule hrule
    obtain ⟨rule', hrule', hsame⟩ := hkeeps _ _ _ rule hrule (by rw [hpromised]; exact hsome)
    rw [hslots plan d d' hd hd'] at hrule'
    rw [hpromised, (hserved' plan hplan d' hd').2 rule' hrule'] at hsame
    exact hsame
  · intro hparts slot path pathType rule hrule hsome
    obtain ⟨plan', hplan', d, hd, rfl, rfl, rfl⟩ := hsource slot path pathType rule hrule
    obtain ⟨plan, hplan, rfl⟩ := (mem_plans_pruned canaries mirrors snapshot opts plan').mp hplan'
    obtain ⟨plain, hplain, -⟩ := finalDraft_cases rx hd
    obtain ⟨d', hd'⟩ : ∃ d', finalDraft rx plan = some d' := ⟨_, finalDraft_eq rx hplan hplain⟩
    have hpromised := (hserved _ hplan' d hd).2 rule hrule
    obtain ⟨⟨rule', hrule'⟩, hshown'⟩ := hserved' plan hplan d' hd'
    rw [← hslots plan d d' hd hd'] at hrule' hshown'
    refine ⟨rule', hrule', ?_⟩
    rw [hshown' rule' hrule', hpromised]
    rw [hpromised] at hsome
    exact hparts plan hplan d d' hd hd' hsome

end Tables

section Whole

variable {F : Type} (fl : Floats F) (rx : RegexEngine) {snapshot : ClusterSnapshot}
  {opts : ControllerOpts} {previous : Option RouteTable}

private theorem promised_backend {names : List Bytes} {plan : RoutePlan} {d : RouteDraft}
    (hd : finalDraft rx plan = some d) :
    (promised names d).backend = landing names plan.backend.backendName :=
  congrArg (landing names) (draftOf_finalDraft rx hd).backend

private theorem promised_mirror {names : List Bytes} {plan : RoutePlan} {plain d : RouteDraft}
    (hplan : plan ∈ plans snapshot opts) (hplain : plainDraft rx plan = .ok plain)
    (hd : finalDraft rx plan = some d) :
    (promised names d).mirror =
      if (draftedCanary rx plan plain.slot).isOk then plan.mirror.map fun m =>
        (MirrorSpec.new 0 m.percent m.host, landing names m.backend.backendName)
      else none := by
  rw [finalDraft_eq rx hplan hplain] at hd
  obtain rfl := Option.some.inj hd
  cases draftedCanary rx plan plain.slot with
  | ok canary => simp [promised, Except.isOk, Except.toBool, Option.map_map, Function.comp_def]
  | error err => simp [promised, Except.isOk, Except.toBool, (plainDraft_spec rx hplain).2]

private theorem promised_canary (names : List Bytes) {plan : RoutePlan} {plain d : RouteDraft}
    (hplan : plan ∈ plans snapshot opts) (hplain : plainDraft rx plan = .ok plain)
    (hd : finalDraft rx plan = some d) :
    (promised names d).canary =
      ((draftedCanary rx plan plain.slot).toOption.getD none).map fun c =>
        (CanarySpec.new 0 c.header c.cookie c.weight c.weightTotal, landing names c.backend) := by
  rw [finalDraft_eq rx hplan hplain] at hd
  obtain rfl := Option.some.inj hd
  cases draftedCanary rx plan plain.slot with
  | ok canary => rfl
  | error err => simp [promised, Except.toOption, (plainDraft_spec rx hplain).1]

/-- A draft with and without its parts, of one planned route. -/
private theorem exists_drafts (canaries mirrors : Bool) {plan : RoutePlan} {plain : RouteDraft}
    (hplan : plan ∈ plans snapshot opts) (hplain : plainDraft rx plan = .ok plain) :
    ∃ d d', finalDraft rx (prunePlan canaries mirrors plan) = some d ∧
      finalDraft rx plan = some d' := by
  have hpruned := (mem_plans_pruned canaries mirrors snapshot opts _).mpr ⟨plan, hplan, rfl⟩
  have hplain' : plainDraft rx (prunePlan canaries mirrors plan) = .ok plain := hplain
  exact ⟨_, _, finalDraft_eq rx hpruned hplain', finalDraft_eq rx hplan hplain⟩

variable {r r' : Translation F}

private theorem keeps_backend_iff
    (h : translate fl rx (pruned false false snapshot) opts previous = .ok r)
    (h' : translate fl rx snapshot opts previous = .ok r') :
    Keeps Shown.backend r.config.table r'.config.table ↔
      ∀ plan ∈ plans snapshot opts, ∀ d, plainDraft rx plan = .ok d →
        Settles snapshot opts false false plan.backend := by
  rw [keeps_iff fl rx false false h h']
  constructor
  · intro hkeeps plan hplan plain hplain
    obtain ⟨d, d', hd, hd'⟩ := exists_drafts rx false false hplan hplain
    have hpruned := (mem_plans_pruned false false snapshot opts _).mpr ⟨plan, hplan, rfl⟩
    have hsame := hkeeps plan hplan d d' hd hd'
    rw [promised_backend rx hd, promised_backend rx hd'] at hsame
    refine hsame (landing_isSome (mem_backendNames _ opts (Or.inl ⟨_, hpruned, ?_⟩)))
    exact ⟨⟨plan.backend, plan.protocol, plan.owner⟩, by simp [claimsOf, prunePlan], rfl⟩
  · intro hsettles plan hplan d d' hd hd' _
    obtain ⟨plain, hplain, -⟩ := finalDraft_cases rx hd'
    rw [promised_backend rx hd, promised_backend rx hd']
    exact hsettles plan hplan plain hplain

private theorem keeps_mirror_iff
    (h : translate fl rx (pruned false true snapshot) opts previous = .ok r)
    (h' : translate fl rx snapshot opts previous = .ok r') :
    Keeps Shown.mirror r.config.table r'.config.table ↔
      ∀ plan ∈ plans snapshot opts, ∀ d m, plainDraft rx plan = .ok d → plan.mirror = some m →
        (draftedCanary rx plan d.slot).isOk = true ∧ Settles snapshot opts false true m.backend := by
  rw [keeps_iff fl rx false true h h']
  have hshown : ∀ plan ∈ plans snapshot opts, ∀ plain d, plainDraft rx plan = .ok plain →
      finalDraft rx (prunePlan false true plan) = some d →
        (promised (backendNames (pruned false true snapshot) opts) d).mirror =
          plan.mirror.map fun m => (MirrorSpec.new 0 m.percent m.host,
            landing (backendNames (pruned false true snapshot) opts) m.backend.backendName) := by
    intro plan hplan plain d hplain hd
    have hpruned := (mem_plans_pruned false true snapshot opts _).mpr ⟨plan, hplan, rfl⟩
    have hplain' : plainDraft rx (prunePlan false true plan) = .ok plain := hplain
    rw [promised_mirror rx hpruned hplain' hd]
    rfl
  constructor
  · intro hkeeps plan hplan plain m hplain hm
    obtain ⟨d, d', hd, hd'⟩ := exists_drafts rx false true hplan hplain
    have hsame := hkeeps plan hplan d d' hd hd'
    rw [hshown plan hplan plain d hplain hd, promised_mirror rx hplan hplain hd', hm] at hsame
    have hboth := hsame rfl
    by_cases hok : (draftedCanary rx plan plain.slot).isOk = true
    · rw [if_pos hok, Option.map_some, Option.map_some, Option.some.injEq, Prod.mk.injEq] at hboth
      exact ⟨hok, hboth.2⟩
    · rw [if_neg hok] at hboth
      cases hboth
  · intro hparts plan hplan d d' hd hd' hsome
    obtain ⟨plain, hplain, -⟩ := finalDraft_cases rx hd'
    rw [hshown plan hplan plain d hplain hd] at hsome ⊢
    rw [promised_mirror rx hplan hplain hd']
    cases hm : plan.mirror with
    | none =>
        rw [hm] at hsome
        cases hsome
    | some m =>
        obtain ⟨hok, hsettles⟩ := hparts plan hplan plain m hplain hm
        have hlands : landing (backendNames snapshot opts) m.backend.backendName = _ := hsettles
        rw [if_pos hok, Option.map_some, Option.map_some, hlands]

private theorem keeps_canary_iff
    (h : translate fl rx (pruned true false snapshot) opts previous = .ok r)
    (h' : translate fl rx snapshot opts previous = .ok r') :
    Keeps Shown.canary r.config.table r'.config.table ↔
      ∀ plan ∈ plans snapshot opts, ∀ d c, plainDraft rx plan = .ok d → plan.canary = some c →
        (draftedCanary rx plan d.slot).isOk = true →
          Settles snapshot opts true false c.backend := by
  rw [keeps_iff fl rx true false h h']
  have hshown : ∀ plan ∈ plans snapshot opts, ∀ plain d, plainDraft rx plan = .ok plain →
      finalDraft rx (prunePlan true false plan) = some d →
        (promised (backendNames (pruned true false snapshot) opts) d).canary =
          ((draftedCanary rx plan plain.slot).toOption.getD none).map fun c =>
            (CanarySpec.new 0 c.header c.cookie c.weight c.weightTotal,
              landing (backendNames (pruned true false snapshot) opts) c.backend) := by
    intro plan hplan plain d hplain hd
    have hpruned := (mem_plans_pruned true false snapshot opts _).mpr ⟨plan, hplan, rfl⟩
    have hplain' : plainDraft rx (prunePlan true false plan) = .ok plain := hplain
    have hcanary := promised_canary rx
      (backendNames (pruned true false snapshot) opts) hpruned hplain' hd
    exact hcanary
  constructor
  · intro hkeeps plan hplan plain c hplain hc hok
    obtain ⟨d, d', hd, hd'⟩ := exists_drafts rx true false hplan hplain
    have hsame := hkeeps plan hplan d d' hd hd'
    rw [hshown plan hplan plain d hplain hd, promised_canary rx _ hplan hplain hd'] at hsame
    cases hdrafted : draftedCanary rx plan plain.slot with
    | error err =>
        rw [hdrafted] at hok
        cases hok
    | ok canary =>
        have hsome : canary.isSome = true := by
          rcases optional_eq_ok.mp hdrafted with ⟨hnone, -⟩ | ⟨_, _, -, -, rfl⟩
          · rw [hc] at hnone
            cases hnone
          · rfl
        obtain ⟨drafted, rfl⟩ := Option.isSome_iff_exists.mp hsome
        obtain ⟨p, hp, hname⟩ := draftedCanary_backend rx hdrafted rfl
        obtain rfl : c = p := Option.some.inj (hc.symm.trans hp)
        rw [hdrafted] at hsame
        have hboth := hsame rfl
        simp only [Except.toOption, Option.getD_some, Option.map_some, Option.some.injEq,
          Prod.mk.injEq, true_and, hname] at hboth
        exact hboth
  · intro hparts plan hplan d d' hd hd' hsome
    obtain ⟨plain, hplain, -⟩ := finalDraft_cases rx hd'
    rw [hshown plan hplan plain d hplain hd, promised_canary rx _ hplan hplain hd']
    refine Option.map_congr fun drafted hdrafted => ?_
    cases hok : draftedCanary rx plan plain.slot with
    | error err =>
        rw [hok] at hdrafted
        cases hdrafted
    | ok canary =>
        rw [hok] at hdrafted
        have hcanary : canary = some drafted := hdrafted
        obtain ⟨p, hp, hname⟩ := draftedCanary_backend rx hok hcanary
        have hsettles := hparts plan hplan plain p hplain hp (by rw [hok]; rfl)
        rw [hname]
        exact congrArg (Prod.mk _) hsettles

private theorem translates_iff (previous : Option RouteTable) (snapshot : ClusterSnapshot) :
    (∃ r, translate fl rx snapshot opts previous = .ok r) ↔ Distinguished snapshot opts :=
  (translate_ok_iff fl rx snapshot opts previous).trans (nodup_backendNames_iff snapshot opts)

/-- The fewer parts a snapshot has, the fewer backends are named. -/
private theorem distinguished_bare (canaries mirrors : Bool)
    (h : Distinguished (pruned canaries mirrors snapshot) opts) :
    Distinguished (pruned false false snapshot) opts := by
  have hfewer : ∀ target, References (pruned false false snapshot) opts target →
      References (pruned canaries mirrors snapshot) opts target := by
    rintro target (⟨plan', hplan', claim, hclaim, htarget⟩ | hdefault)
    · obtain ⟨plan, hplan, rfl⟩ := (mem_plans_pruned false false snapshot opts plan').mp hplan'
      refine Or.inl ⟨prunePlan canaries mirrors plan,
        (mem_plans_pruned canaries mirrors snapshot opts _).mpr ⟨plan, hplan, rfl⟩, claim, ?_,
        htarget⟩
      have hroute : claim = ⟨plan.backend, plan.protocol, plan.owner⟩ := by
        simpa [claimsOf, prunePlan] using hclaim
      rw [hroute]
      exact List.mem_cons_self
    · refine Or.inr ?_
      rw [(planSnapshot_pruned false false snapshot opts).2] at hdefault
      rwa [(planSnapshot_pruned canaries mirrors snapshot opts).2]
  exact fun s t hs ht heq => h s t (hfewer s hs) (hfewer t ht) heq

private theorem spared_of_unharmed (h : Unharmed fl rx snapshot opts previous)
    (hbare : Distinguished (pruned false false snapshot) opts) :
    Distinguished snapshot opts ∧ Spared rx snapshot opts ∧ Steady rx snapshot opts := by
  obtain ⟨r₀, hr₀⟩ := (translates_iff fl rx previous _).mpr hbare
  obtain ⟨r, hr, hproduction⟩ := h.production r₀ hr₀
  have hdistinct := (translates_iff fl rx previous _).mp ⟨r, hr⟩
  have hpruned : ∀ canaries mirrors,
      ∃ r₁, translate fl rx (pruned canaries mirrors snapshot) opts previous = .ok r₁ := by
    intro canaries mirrors
    refine (translates_iff fl rx previous _).mpr fun s t hs ht heq => ?_
    exact hdistinct s t (references_of_pruned canaries mirrors snapshot opts hs)
      (references_of_pruned canaries mirrors snapshot opts ht) heq
  obtain ⟨r₁, hr₁⟩ := hpruned false true
  obtain ⟨r₂, hr₂⟩ := hpruned true false
  have hsame : ∀ r', translate fl rx snapshot opts previous = .ok r' → r = r' := by
    intro r' hr'
    have heq := hr.symm.trans hr'
    injection heq
  obtain ⟨r', hr', hmirrors⟩ := h.mirrors r₁ hr₁
  obtain rfl := hsame r' hr'
  obtain ⟨r', hr'', hcanaries⟩ := h.canaries r₂ hr₂
  obtain rfl := hsame r' hr''
  rw [keeps_backend_iff fl rx hr₀ hr] at hproduction
  rw [keeps_mirror_iff fl rx hr₁ hr] at hmirrors
  rw [keeps_canary_iff fl rx hr₂ hr] at hcanaries
  refine ⟨hdistinct, fun plan hplan d hd _ hmirror => ?_, hproduction,
    fun plan hplan d m hd hm => (hmirrors plan hplan d m hd hm).2, hcanaries⟩
  obtain ⟨m, hm⟩ := Option.isSome_iff_exists.mp hmirror
  exact (hmirrors plan hplan d m hd hm).1

/-- Canaries and mirrors cost nothing but themselves exactly when the backends they name collide
with no other, and the router accepts every canary whose route has a mirror too. -/
theorem unharmed_iff (snapshot : ClusterSnapshot) (opts : ControllerOpts)
    (previous : Option RouteTable) :
    Unharmed fl rx snapshot opts previous ↔
      (Distinguished (pruned false false snapshot) opts →
        Distinguished snapshot opts ∧ Spared rx snapshot opts ∧ Steady rx snapshot opts) := by
  constructor
  · exact fun h hbare => spared_of_unharmed fl rx h hbare
  · intro h
    have hwhole : ∀ canaries mirrors r₀,
        translate fl rx (pruned canaries mirrors snapshot) opts previous = .ok r₀ →
          (∃ r, translate fl rx snapshot opts previous = .ok r) ∧ Spared rx snapshot opts ∧
            Steady rx snapshot opts := by
      intro canaries mirrors r₀ hr₀
      have hdistinct := (translates_iff fl rx previous _).mp ⟨r₀, hr₀⟩
      obtain ⟨hdistinct', hspared, hsteady⟩ := h (distinguished_bare canaries mirrors hdistinct)
      exact ⟨(translates_iff fl rx previous _).mpr hdistinct', hspared, hsteady⟩
    refine ⟨fun r₀ hr₀ => ?_, fun r₀ hr₀ => ?_, fun r₀ hr₀ => ?_⟩
    · obtain ⟨⟨r, hr⟩, -, hsteady⟩ := hwhole false false r₀ hr₀
      exact ⟨r, hr, (keeps_backend_iff fl rx hr₀ hr).mpr hsteady.production⟩
    · obtain ⟨⟨r, hr⟩, hspared, hsteady⟩ := hwhole false true r₀ hr₀
      refine ⟨r, hr, (keeps_mirror_iff fl rx hr₀ hr).mpr fun plan hplan d m hd hm => ?_⟩
      refine ⟨?_, hsteady.mirrors plan hplan d m hd hm⟩
      cases hcanary : plan.canary with
      | none =>
          rw [draftedCanary, hcanary]
          rfl
      | some c => exact hspared plan hplan d hd (by rw [hcanary]; rfl) (by rw [hm]; rfl)
    · obtain ⟨⟨r, hr⟩, -, hsteady⟩ := hwhole true false r₀ hr₀
      exact ⟨r, hr, (keeps_canary_iff fl rx hr₀ hr).mpr hsteady.canaries⟩

end Whole

section Failures

/-- Of `heavyCanary`: its names without parts, and its route, whose canary the router refuses. -/
private theorem heavyCanary_refused :
    (backendNames (pruned false false heavyCanary) {}).Nodup ∧
      ((plans heavyCanary {}).any fun plan =>
        (plainDraft literalEngine plan).toOption.any fun d => plan.canary.isSome &&
          plan.mirror.isSome && !(draftedCanary literalEngine plan d.slot).isOk) = true := by
  decide +kernel

/-- The mirror of a production Ingress goes with the canary of another that the router refuses. -/
theorem mirror_lost_with_canary : ¬ Unharmed noFloats literalEngine heavyCanary {} none := by
  intro h
  obtain ⟨hnames, hrefused⟩ := heavyCanary_refused
  obtain ⟨-, hspared, -⟩ := spared_of_unharmed noFloats literalEngine h
    ((nodup_backendNames_iff _ _).mp hnames)
  obtain ⟨plan, hplan, hparts⟩ := List.any_eq_true.mp hrefused
  obtain ⟨d, hd, hparts⟩ := (Option.any_eq_true ..).mp hparts
  simp only [Bool.and_eq_true, Bool.not_eq_true'] at hparts
  obtain ⟨⟨hcanary, hmirror⟩, hno⟩ := hparts
  have hplain : plainDraft literalEngine plan = .ok d := by
    cases hcase : plainDraft literalEngine plan with
    | ok d' =>
        rw [hcase] at hd
        exact congrArg Except.ok (Option.some.inj hd)
    | error err =>
        rw [hcase] at hd
        cases hd
  have hyes := hspared plan hplan d hplain hcanary hmirror
  rw [hno] at hyes
  cases hyes

end Failures

end Ramjet.Controller.Attachments
