/- digest: What a built table files under each virtual host, for every sequence of builder calls. -/

import Ramjet.Router.PathOrder

set_option autoImplicit false
set_option relaxedAutoImplicit false

namespace Ramjet.Router.BuiltTable

open Ramjet.Base.Octets
open Ramjet.Base.Outcome
open Ramjet.Base.AssocMap
open Ramjet.Router.Host
open Ramjet.Router.Balancing
open Ramjet.Router.Rule
open Ramjet.Router.Table
open Ramjet.Router.Builder
open Ramjet.Router.Reference
open Ramjet.Router.PathOrder

section Calls

/-- A bucket the builder can have filed a rule under. -/
def SlotOk : HostSlot → Prop
  | .exact h => h ≠ [46]
  | .wildcard parent => parent ≠ []
  | .catchAll => True

/-- What every sequence of calls keeps of a builder. -/
structure BuilderOk (b : RouteTableBuilder) : Prop where
  ids : ∀ name, get b.backendIds name =
    (b.backends.findIdx? fun d => decide (d.name = name)).map (· % U32_SIZE)
  regex : ∀ d ∈ b.routes, d.pathType = .implementationSpecific → d.regex = some (pathRegex d.path)
  slots : ∀ d ∈ b.routes, SlotOk d.slot

theorem toAsciiLowercase_eq_dot {c : UInt8} (h : toAsciiLowercase c = 46) : c = 46 := by
  unfold toAsciiLowercase at h
  split at h
  · rename_i hupper
    have h1 : 65 ≤ c.toNat := hupper.1
    have h2 : c.toNat ≤ 90 := hupper.2
    have hsum := congrArg UInt8.toNat h
    rw [UInt8.toNat_add] at hsum
    have h32 : (32 : UInt8).toNat = 32 := rfl
    have h46 : (46 : UInt8).toNat = 46 := rfl
    omega
  · exact h

theorem configName_spec {host name lowered : Bytes} (h : configName host name = .ok lowered) :
    name ≠ [] ∧ lowered = name.map toAsciiLowercase := by
  simp only [configName] at h
  split at h
  · split at h <;> cases h
  split at h
  · cases h
  rename_i hname
  cases h
  exact ⟨by simpa using hname, rfl⟩

theorem slotOk_of_normalizeConfigHost {host : Bytes} {slot : HostSlot}
    (h : normalizeConfigHost host = .ok slot) : SlotOk slot := by
  simp only [normalizeConfigHost] at h
  split at h
  · cases h
  split at h
  · obtain ⟨lowered, hname, rfl⟩ := map_eq_ok.mp h
    obtain ⟨hne, rfl⟩ := configName_spec hname
    simpa [SlotOk] using hne
  · obtain ⟨lowered, hname, rfl⟩ := map_eq_ok.mp h
    obtain ⟨hne, rfl⟩ := configName_spec hname
    -- A lone dot would have been trimmed away before.
    intro hdot
    obtain ⟨c, hc⟩ := List.length_eq_one_iff.mp (by simpa using congrArg List.length hdot)
    rw [hc, List.map_singleton, List.singleton_inj] at hdot
    have hlast := List.rdropWhile_last_not (· == 46) host hne
    refine hlast ?_
    simp [hc, toAsciiLowercase_eq_dot hdot]

variable (rx : RegexEngine)

theorem draft_spec {host : Option Bytes} {path backend : Bytes} {pathType : PathType}
    {d : RouteDraft} (h : draft rx host path pathType backend = .ok d) :
    SlotOk d.slot ∧ d.path = path ∧ d.pathType = pathType ∧ d.backend = backend ∧
      (pathType = .implementationSpecific → d.regex = some (pathRegex path)) := by
  obtain ⟨slot, hslot, h⟩ := bind_eq_ok.mp h
  obtain ⟨regex, hregex, h⟩ := bind_eq_ok.mp h
  cases h
  refine ⟨?_, rfl, rfl, rfl, ?_⟩
  · cases host with
    | none =>
        cases hslot
        trivial
    | some host => exact slotOk_of_normalizeConfigHost hslot
  · rintro rfl
    simp only [draftRegex] at hregex
    split at hregex
    · cases hregex
      rfl
    · cases hregex

theorem routeWith_spec {b b' : RouteTableBuilder} {host : Option Bytes} {path backend : Bytes}
    {pathType : PathType} {options : RouteOptions}
    (h : b.routeWith rx host path pathType backend options = .ok b') :
    ∃ d canary mirror, draft rx host path pathType backend = .ok d ∧
      b' = { b with routes := b.routes ++ [{ d with canary := canary, mirror := mirror }] } := by
  obtain ⟨d, hd, h⟩ := bind_eq_ok.mp h
  obtain ⟨canary, -, h⟩ := bind_eq_ok.mp h
  obtain ⟨mirror, -, h⟩ := bind_eq_ok.mp h
  cases h
  exact ⟨d, canary, mirror, hd, rfl⟩

theorem builderOk_backendWith {b b' : RouteTableBuilder} (hb : BuilderOk b)
    {name : Bytes} {endpoints : List Endpoint} {options : BackendOptions}
    (h : b.backendWith name endpoints options = .ok b') : BuilderOk b' := by
  simp only [RouteTableBuilder.backendWith] at h
  split at h
  · cases h
  rename_i hnew
  cases h
  refine ⟨fun other => ?_, hb.regex, hb.slots⟩
  have hfresh : get b.backendIds name = none := by
    simpa [contains] using hnew
  rw [get_insert, List.findIdx?_append]
  by_cases hother : other = name
  · subst hother
    rw [hb.ids, Option.map_eq_none_iff] at hfresh
    simp [hfresh]
  · rw [if_neg hother, hb.ids]
    cases hfind : b.backends.findIdx? fun d => decide (d.name = other) with
    | some i => rfl
    | none => simp [Ne.symm hother]

/-- One call, whether it succeeds or fails, keeps what the builder has checked. -/
theorem builderOk_call {b : RouteTableBuilder} (hb : BuilderOk b) (c : BuilderCall) :
    BuilderOk (b.call rx c) := by
  simp only [RouteTableBuilder.call]
  split
  · rename_i b' h
    cases c with
    | generation n =>
        cases h
        exact ⟨hb.ids, hb.regex, hb.slots⟩
    | backendWith name endpoints options => exact builderOk_backendWith hb h
    | defaultBackend name =>
        cases h
        exact ⟨hb.ids, hb.regex, hb.slots⟩
    | routeWith host path pathType backend options =>
        obtain ⟨d, canary, mirror, hd, rfl⟩ := routeWith_spec rx h
        obtain ⟨hslot, hpath, htype, -, hregex⟩ := draft_spec rx hd
        refine ⟨hb.ids, ?_, ?_⟩
        · intro e he
          rcases List.mem_append.mp he with he | he
          · exact hb.regex e he
          · rw [List.mem_singleton] at he
            subst he
            intro hkind
            exact hpath ▸ hregex (htype ▸ hkind)
        · intro e he
          rcases List.mem_append.mp he with he | he
          · exact hb.slots e he
          · rw [List.mem_singleton] at he
            subst he
            exact hslot
    | certificate host key =>
        simp only [RouteTableBuilder.attempt, RouteTableBuilder.certificate] at h
        split at h <;> cases h <;> exact ⟨hb.ids, hb.regex, hb.slots⟩
    | defaultCertificate key =>
        cases h
        exact ⟨hb.ids, hb.regex, hb.slots⟩
  · exact hb

theorem builderOk_calls {b : RouteTableBuilder} (hb : BuilderOk b) (cs : List BuilderCall) :
    BuilderOk (b.calls rx cs) := by
  induction cs generalizing b with
  | nil => exact hb
  | cons c cs ih => exact ih (builderOk_call rx hb c)

theorem calls_append (b : RouteTableBuilder) (cs ds : List BuilderCall) :
    b.calls rx (cs ++ ds) = (b.calls rx cs).calls rx ds := List.foldl_append

theorem builderOk_fresh : BuilderOk {} := ⟨fun _ => rfl, by simp, by simp⟩

theorem builderOk_fromPrevious (previous : RouteTable) :
    BuilderOk (RouteTableBuilder.fromPrevious previous) := ⟨fun _ => rfl, by simp [
      RouteTableBuilder.fromPrevious], by simp [RouteTableBuilder.fromPrevious]⟩

end Calls

section Grouping

variable {ids : Map Bytes BackendId}

/-- The rule a draft freezes into when every backend it names is registered. -/
def frozenRule (ids : Map Bytes BackendId) (d : RouteDraft) : PathRule :=
  PathRule.new d.path d.pathType d.regex ((get ids d.backend).getD 0)
    (RuleExtras.build
      (d.canary.map fun c =>
        CanarySpec.new ((get ids c.backend).getD 0) c.header c.cookie c.weight c.weightTotal)
      (d.mirror.map fun m => MirrorSpec.new ((get ids m.backend).getD 0) m.percent m.host))

private theorem resolveBackend_ok {name path : Bytes} {slot : HostSlot} {id : BackendId}
    (h : resolveBackend ids name slot path = .ok id) : get ids name = some id := by
  simp only [resolveBackend] at h
  split at h
  · cases h
    assumption
  · cases h

theorem freezeRule_ok {d : RouteDraft} {rule : PathRule} (h : freezeRule ids d = .ok rule) :
    rule = frozenRule ids d ∧ get ids d.backend = some rule.backend := by
  obtain ⟨id, hid, h⟩ := bind_eq_ok.mp h
  obtain ⟨canary, hcanary, h⟩ := bind_eq_ok.mp h
  obtain ⟨mirror, hmirror, h⟩ := bind_eq_ok.mp h
  cases h
  have hget := resolveBackend_ok hid
  refine ⟨?_, hget⟩
  have hc : canary = d.canary.map fun c =>
      CanarySpec.new ((get ids c.backend).getD 0) c.header c.cookie c.weight c.weightTotal := by
    rcases optional_eq_ok.mp hcanary with ⟨hnone, rfl⟩ | ⟨c, spec, hsome, hspec, rfl⟩
    · simp [hnone]
    · obtain ⟨cid, hcid, hspec⟩ := bind_eq_ok.mp hspec
      cases hspec
      simp [hsome, resolveBackend_ok hcid]
  have hm : mirror = d.mirror.map fun m =>
      MirrorSpec.new ((get ids m.backend).getD 0) m.percent m.host := by
    rcases optional_eq_ok.mp hmirror with ⟨hnone, rfl⟩ | ⟨m, spec, hsome, hspec, rfl⟩
    · simp [hnone]
    · obtain ⟨mid, hmid, hspec⟩ := bind_eq_ok.mp hspec
      cases hspec
      simp [hsome, resolveBackend_ok hmid]
  rw [frozenRule, hc, hm, hget, Option.getD_some]

theorem freezes_frozenRule (ids : Map Bytes BackendId) (d : RouteDraft) :
    Freezes d (frozenRule ids d) := ⟨rfl, rfl, rfl, rfl⟩

/-- The bucket a slot has once `drafts` have been added to what it held. -/
def bucketAfter (ids : Map Bytes BackendId) (drafts : List RouteDraft) (slot : HostSlot)
    (held : Option (List PathRule)) : Option (List PathRule) :=
  match drafts.filter fun d => d.slot = slot with
  | [] => held
  | ds => some (held.getD [] ++ ds.map (frozenRule ids))

/-- Grouping files each draft under its own slot, in order, and resolves its backend. -/
theorem groupRoutes_ok {drafts : List RouteDraft} {g g' : Grouping}
    (h : groupRoutes ids drafts g = .ok g') (hnodup : (g.buckets.map (·.1)).Nodup) :
    (g'.buckets.map (·.1)).Nodup ∧
      (∀ slot, get g'.buckets slot = bucketAfter ids drafts slot (get g.buckets slot)) ∧
      ∀ d ∈ drafts, get ids d.backend = some (frozenRule ids d).backend := by
  induction drafts generalizing g with
  | nil =>
      cases h
      exact ⟨hnodup, fun slot => rfl, by simp⟩
  | cons d ds ih =>
      obtain ⟨g1, hg1, h⟩ := bind_eq_ok.mp h
      simp only [groupRoute] at hg1
      split at hg1
      · cases hg1
      obtain ⟨rule, hrule, hg1⟩ := bind_eq_ok.mp hg1
      cases hg1
      obtain ⟨rfl, hbackend⟩ := freezeRule_ok hrule
      obtain ⟨hnodup', hbuckets, hids⟩ := ih h (nodup_keys_insert hnodup _ _)
      refine ⟨hnodup', fun slot => ?_, ?_⟩
      · rw [hbuckets, get_insert]
        simp only [bucketAfter, List.filter_cons]
        by_cases hslot : d.slot = slot
        · subst hslot
          simp only [decide_true, if_true, Option.getD_some, List.map_cons]
          cases hds : ds.filter fun e => decide (e.slot = d.slot) <;> simp
        · simp [hslot, Ne.symm hslot]
      · intro e he
        rcases List.mem_cons.mp he with rfl | he
        · exact hbackend
        · exact hids e he

end Grouping

section Filing

/-- The virtual host a table holds under a slot. -/
def vhostAt (t : RouteTable) : HostSlot → Option VirtualHost
  | .exact h => get t.hosts h
  | .wildcard parent => get t.wildcardHosts parent
  | .catchAll => t.catchAll

theorem vhostAt_file (t : RouteTable) (slot other : HostSlot) (v : VirtualHost) :
    vhostAt (file t slot v) other = if other = slot then some v else vhostAt t other := by
  cases slot <;> cases other <;> simp [file, vhostAt, get_insert]

/-- Every bucket ends under its own slot, sorted and numbered from somewhere. -/
theorem vhostAt_fileBuckets (backends : List Backend) {buckets : Map HostSlot (List PathRule)}
    (hnodup : (buckets.map (·.1)).Nodup) (t : RouteTable) (slot : HostSlot) :
    match get buckets slot with
    | some rules => ∃ base, vhostAt (fileBuckets backends buckets t) slot =
        some ⟨freezeBucket base rules⟩
    | none => vhostAt (fileBuckets backends buckets t) slot = vhostAt t slot := by
  induction buckets generalizing t with
  | nil => rfl
  | cons bucket rest ih =>
      obtain ⟨first, rules⟩ := bucket
      rw [List.map_cons, List.nodup_cons] at hnodup
      have hrest := ih hnodup.2 (file { t with identities := t.identities ++
        (freezeBucket t.identities.length rules).map (ruleIdentity backends first) } first
          ⟨freezeBucket t.identities.length rules⟩)
      simp only [fileBuckets, Base.AssocMap.get]
      by_cases hslot : first = slot
      · subst hslot
        have habsent : get rest first = none := by
          rw [← Option.not_isSome_iff_eq_none, get_isSome_iff]
          exact hnodup.1
        rw [habsent] at hrest
        simp only [if_true]
        refine ⟨t.identities.length, ?_⟩
        rw [hrest, vhostAt_file, if_pos rfl]
      · rw [if_neg hslot]
        cases hget : get rest slot with
        | some held => simpa [hget] using hrest
        | none =>
            simp only [hget] at hrest
            rw [hrest, vhostAt_file, if_neg (Ne.symm hslot)]
            cases slot <;> rfl

/-- Numbering the sorted rules only touches their counter index. -/
theorem find?_freezeBucket {p : PathRule → Bool}
    (hp : ∀ rule index, p (rule.setStatsIndex index) = p rule) (base : Nat)
    (rules : List PathRule) :
    ∃ index, (freezeBucket base rules).find? p =
      ((rules.insertionSort fun a b => a.sortKey ≤ b.sortKey).find? p).map
        (·.setStatsIndex index) := by
  have hnumbered : ∀ (sorted : List PathRule) (base : Nat), ∃ index,
      ((sorted.zipIdx base).map fun q => q.1.setStatsIndex (q.2 % U32_SIZE)).find? p =
        (sorted.find? p).map (·.setStatsIndex index) := by
    intro sorted
    induction sorted with
    | nil => exact fun _ => ⟨0, rfl⟩
    | cons rule rest ih =>
        intro base
        by_cases hhit : p rule = true
        · exact ⟨base % U32_SIZE, by simp [hp, hhit]⟩
        · obtain ⟨index, hindex⟩ := ih (base + 1)
          refine ⟨index, ?_⟩
          simpa [hp, hhit] using hindex
  exact hnumbered _ base

end Filing

section Backends

variable {b : RouteTableBuilder}

/-- An id given out is an index of a backend, kept in 32 bits. -/
theorem lt_of_get (hb : BuilderOk b) {name : Bytes} {id : BackendId}
    (hid : get b.backendIds name = some id) :
    ∃ i, i < b.backends.length ∧ id = i % U32_SIZE := by
  rw [hb.ids, Option.map_eq_some_iff] at hid
  obtain ⟨i, hfind, rfl⟩ := hid
  obtain ⟨hlt, -⟩ := List.findIdx?_eq_some_iff_getElem.mp hfind
  exact ⟨i, hlt, rfl⟩

/-- An id given out leads back to the backend declared under that name. -/
theorem builtBackends_of_get (hb : BuilderOk b) (hcount : b.backends.length ≤ U32_SIZE)
    {name : Bytes} {id : BackendId} (hid : get b.backendIds name = some id) :
    ∃ d index, RouteTableBuilder.declared b name = some d ∧
      (builtBackends b.backends)[id]? =
        some (Backend.new d.name d.endpoints d.options.policy d.options.protocol index) := by
  rw [hb.ids, Option.map_eq_some_iff] at hid
  obtain ⟨i, hfind, rfl⟩ := hid
  obtain ⟨hlt, hname, hfirst⟩ := List.findIdx?_eq_some_iff_getElem.mp hfind
  have hmod : i % U32_SIZE = i := Nat.mod_eq_of_lt (lt_of_lt_of_le hlt hcount)
  refine ⟨b.backends[i], i % U32_SIZE, ?_, ?_⟩
  · rw [RouteTableBuilder.declared, List.find?_eq_some_iff_getElem]
    refine ⟨hname, i, hlt, rfl, fun j hj => ?_⟩
    simpa using hfirst j hj
  · rw [hmod, builtBackends, List.getElem?_map, List.getElem?_zipIdx,
      List.getElem?_eq_getElem hlt]
    simp [hmod]

/-- What a successful build has checked, and the table it makes of it. -/
theorem build_ok {t : RouteTable} (h : b.build = .ok t) :
    t.backends = builtBackends b.backends ∧
      (∀ slot, ∃ base, vhostAt t slot =
        match rulesOf b slot with
        | [] => none
        | ds => some ⟨freezeBucket base (ds.map (frozenRule b.backendIds))⟩) ∧
      (∀ d ∈ b.routes, get b.backendIds d.backend = some (frozenRule b.backendIds d).backend) ∧
      t.defaultBackend = b.defaultBackend.bind (get b.backendIds) ∧
      ∀ name, b.defaultBackend = some name → (get b.backendIds name).isSome = true := by
  obtain ⟨g, hg, h⟩ := bind_eq_ok.mp h
  obtain ⟨fallback, hfallback, h⟩ := bind_eq_ok.mp h
  cases h
  obtain ⟨hnodup, hbuckets, hids⟩ := groupRoutes_ok hg (by simp)
  refine ⟨rfl, fun slot => ?_, hids, ?_⟩
  · have hfiled := vhostAt_fileBuckets (builtBackends b.backends) hnodup {} slot
    have hvhost : ∀ t' : RouteTable, vhostAt { t' with
        defaultBackend := fallback
        backends := builtBackends b.backends
        statsSpecs := b.backends.map fun d => (d.name, d.endpoints.map (·.addr))
        tls := ⟨b.tlsExact, b.tlsWildcard, b.tlsDefault⟩
        generation := b.generation } slot = vhostAt t' slot := by
      intro t'
      cases slot <;> rfl
    rw [hvhost]
    have hrulesOf : (b.routes.filter fun d => decide (d.slot = slot)) = rulesOf b slot := rfl
    rw [hbuckets, bucketAfter, hrulesOf] at hfiled
    cases hrules : rulesOf b slot with
    | nil =>
        simp only [hrules, get_nil] at hfiled
        refine ⟨0, ?_⟩
        rw [hfiled]
        cases slot <;> rfl
    | cons d ds =>
        simp only [hrules, get_nil, Option.getD_none, List.nil_append] at hfiled
        exact hfiled
  · rcases optional_eq_ok.mp hfallback with ⟨hnone, rfl⟩ | ⟨name, id, hsome, hid, rfl⟩
    · simp [hnone]
    · have hget : get b.backendIds name = some id := by
        simp only [resolveDefault] at hid
        split at hid
        · cases hid
          assumption
        · cases hid
      refine ⟨by simp [hsome, hget], ?_⟩
      rintro other hother
      rw [hsome] at hother
      cases hother
      simp [hget]

private theorem mem_rulesOf {slot : HostSlot} {d : RouteDraft} :
    d ∈ rulesOf b slot ↔ d ∈ b.routes ∧ d.slot = slot := by
  simp [rulesOf]

/-- Every rule of a built virtual host is a frozen draft of its slot. -/
theorem draft_of_mem_vhost {t : RouteTable} (h : b.build = .ok t) {slot : HostSlot}
    {v : VirtualHost} (hv : vhostAt t slot = some v) {rule : PathRule} (hrule : rule ∈ v.routes) :
    ∃ d ∈ b.routes, d.slot = slot ∧
      ∃ index, rule = (frozenRule b.backendIds d).setStatsIndex index := by
  obtain ⟨base, hslot⟩ := (build_ok h).2.1 slot
  have hroutes : v.routes = freezeBucket base ((rulesOf b slot).map (frozenRule b.backendIds)) := by
    rw [hv] at hslot
    cases hcase : rulesOf b slot with
    | nil => simp [hcase] at hslot
    | cons d ds =>
        rw [hcase] at hslot
        exact congrArg VirtualHost.routes (Option.some.inj hslot)
  rw [hroutes, freezeBucket, List.mem_map] at hrule
  obtain ⟨⟨frozen, i⟩, hzip, rfl⟩ := hrule
  have hfrozen : frozen ∈ (rulesOf b slot).map (frozenRule b.backendIds) :=
    (List.mem_insertionSort _).mp (List.fst_mem_of_mem_zipIdx hzip)
  obtain ⟨d, hd, rfl⟩ := List.mem_map.mp hfrozen
  obtain ⟨hmem, hdslot⟩ := mem_rulesOf.mp hd
  exact ⟨d, hmem, hdslot, _, rfl⟩

/-- Every draft of a built table is filed, frozen, under its slot. -/
theorem mem_vhost_of_draft {t : RouteTable} (h : b.build = .ok t) {d : RouteDraft}
    (hd : d ∈ b.routes) :
    ∃ v index, vhostAt t d.slot = some v ∧
      (frozenRule b.backendIds d).setStatsIndex index ∈ v.routes := by
  obtain ⟨base, hslot⟩ := (build_ok h).2.1 d.slot
  have hmem : d ∈ rulesOf b d.slot := mem_rulesOf.mpr ⟨hd, rfl⟩
  have hv : vhostAt t d.slot =
      some ⟨freezeBucket base ((rulesOf b d.slot).map (frozenRule b.backendIds))⟩ := by
    rw [hslot]
    cases hcase : rulesOf b d.slot with
    | nil =>
        rw [hcase] at hmem
        cases hmem
    | cons _ _ => rfl
  have hsorted : frozenRule b.backendIds d ∈
      ((rulesOf b d.slot).map (frozenRule b.backendIds)).insertionSort
        fun a b => a.sortKey ≤ b.sortKey :=
    (List.mem_insertionSort _).mpr (List.mem_map_of_mem hmem)
  obtain ⟨i, hi, hget⟩ := List.mem_iff_getElem.mp hsorted
  refine ⟨_, (base + i) % U32_SIZE, hv, ?_⟩
  rw [freezeBucket, List.mem_map]
  refine ⟨(frozenRule b.backendIds d, base + i), ?_, rfl⟩
  rw [List.mem_iff_getElem]
  refine ⟨i, by simpa using hi, ?_⟩
  rw [List.getElem_zipIdx, hget]

end Backends

section Buildable

/-- Every backend a draft names has been given an id. -/
structure Resolved (ids : Map Bytes BackendId) (d : RouteDraft) : Prop where
  backend : (get ids d.backend).isSome = true
  canary : ∀ c, d.canary = some c → (get ids c.backend).isSome = true
  mirror : ∀ m, d.mirror = some m → (get ids m.backend).isSome = true

private theorem resolveBackend_of_isSome {ids : Map Bytes BackendId} {name : Bytes}
    (slot : HostSlot) (path : Bytes) (h : (get ids name).isSome = true) :
    ∃ id, resolveBackend ids name slot path = .ok id := by
  obtain ⟨id, hid⟩ := Option.isSome_iff_exists.mp h
  exact ⟨id, by simp [resolveBackend, hid]⟩

private theorem freezeRule_of_resolved {ids : Map Bytes BackendId} {d : RouteDraft}
    (h : Resolved ids d) : ∃ rule, freezeRule ids d = .ok rule := by
  obtain ⟨id, hid⟩ := resolveBackend_of_isSome d.slot d.path h.backend
  have hcanary : ∃ canary, optional (fun c => do
      let id ← resolveBackend ids c.backend d.slot d.path
      return CanarySpec.new id c.header c.cookie c.weight c.weightTotal) d.canary = .ok canary := by
    cases hc : d.canary with
    | none => exact ⟨none, rfl⟩
    | some c =>
        obtain ⟨cid, hcid⟩ := resolveBackend_of_isSome d.slot d.path
          (h.canary c hc)
        exact ⟨some _, optional_eq_ok.mpr (Or.inr ⟨c, _, rfl, bind_eq_ok.mpr ⟨cid, hcid, rfl⟩, rfl⟩)⟩
  have hmirror : ∃ mirror, optional (fun m => do
      let id ← resolveBackend ids m.backend d.slot d.path
      return MirrorSpec.new id m.percent m.host) d.mirror = .ok mirror := by
    cases hm : d.mirror with
    | none => exact ⟨none, rfl⟩
    | some m =>
        obtain ⟨mid, hmid⟩ := resolveBackend_of_isSome d.slot d.path
          (h.mirror m hm)
        exact ⟨some _, optional_eq_ok.mpr (Or.inr ⟨m, _, rfl, bind_eq_ok.mpr ⟨mid, hmid, rfl⟩, rfl⟩)⟩
  obtain ⟨canary, hcanary⟩ := hcanary
  obtain ⟨mirror, hmirror⟩ := hmirror
  refine ⟨PathRule.new d.path d.pathType d.regex id (RuleExtras.build canary mirror), ?_⟩
  rw [freezeRule, hid]
  exact bind_eq_ok.mpr ⟨id, rfl, bind_eq_ok.mpr ⟨canary, hcanary, bind_eq_ok.mpr
    ⟨mirror, hmirror, rfl⟩⟩⟩

private theorem groupRoutes_of_resolved {ids : Map Bytes BackendId} {drafts : List RouteDraft}
    {g : Grouping} (hkeys : (drafts.map RouteDraft.key).Nodup)
    (hseen : ∀ d ∈ drafts, d.key ∉ g.seen) (hresolved : ∀ d ∈ drafts, Resolved ids d) :
    ∃ g', groupRoutes ids drafts g = .ok g' := by
  induction drafts generalizing g with
  | nil => exact ⟨g, rfl⟩
  | cons d ds ih =>
      rw [List.map_cons, List.nodup_cons] at hkeys
      obtain ⟨rule, hrule⟩ := freezeRule_of_resolved (hresolved d (by simp))
      have hfresh : g.seen.contains d.key = false := by
        simpa using hseen d (by simp)
      have hgroup : groupRoute ids g d = .ok { seen := d.key :: g.seen
                                               buckets := insert g.buckets d.slot
                                                ((get g.buckets d.slot).getD [] ++ [rule]) } := by
        simp only [groupRoute, hfresh, hrule]
        rfl
      obtain ⟨g', hg'⟩ := ih (g := { seen := d.key :: g.seen
                                     buckets := insert g.buckets d.slot
                                      ((get g.buckets d.slot).getD [] ++ [rule]) }) hkeys.2 (by
        intro e he
        rw [List.mem_cons, not_or]
        refine ⟨fun heq => hkeys.1 ?_, hseen e (by simp [he])⟩
        exact heq ▸ List.mem_map_of_mem he) fun e he => hresolved e (by simp [he])
      exact ⟨g', bind_eq_ok.mpr ⟨_, hgroup, hg'⟩⟩

/-- A builder whose drafts do not collide and name known backends builds. -/
theorem build_of_resolved {b : RouteTableBuilder} (hkeys : (b.routes.map RouteDraft.key).Nodup)
    (hresolved : ∀ d ∈ b.routes, Resolved b.backendIds d)
    (hdefault : ∀ name, b.defaultBackend = some name → (get b.backendIds name).isSome = true) :
    ∃ t, b.build = .ok t := by
  obtain ⟨g, hg⟩ := groupRoutes_of_resolved (g := {}) hkeys (by simp) hresolved
  have hfallback : ∃ id, optional (resolveDefault b.backendIds) b.defaultBackend = .ok id := by
    cases hname : b.defaultBackend with
    | none => exact ⟨none, rfl⟩
    | some name =>
        obtain ⟨id, hid⟩ := Option.isSome_iff_exists.mp (hdefault name hname)
        exact ⟨some id, optional_eq_ok.mpr
          (Or.inr ⟨name, id, rfl, by simp [resolveDefault, hid], rfl⟩)⟩
  obtain ⟨fallback, hfallback⟩ := hfallback
  exact ⟨_, bind_eq_ok.mpr ⟨g, hg, bind_eq_ok.mpr ⟨fallback, hfallback, rfl⟩⟩⟩

theorem build_tls {b : RouteTableBuilder} {t : RouteTable} (h : b.build = .ok t) :
    t.tls = ⟨b.tlsExact, b.tlsWildcard, b.tlsDefault⟩ := by
  obtain ⟨g, -, h⟩ := bind_eq_ok.mp h
  obtain ⟨fallback, -, h⟩ := bind_eq_ok.mp h
  cases h
  rfl

end Buildable

end Ramjet.Router.BuiltTable
