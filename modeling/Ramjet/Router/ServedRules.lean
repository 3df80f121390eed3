/- digest: What a built table serves under each slot, with rules and certificates told apart. -/

import Ramjet.Router.RouteNumbers
import Ramjet.Router.RoutingAgreement

set_option autoImplicit false
set_option relaxedAutoImplicit false

namespace Ramjet.Router.ServedRules

open Ramjet.Base.Octets
open Ramjet.Base.Outcome
open Ramjet.Base.AssocMap
open Ramjet.Router.Balancing
open Ramjet.Router.Rule
open Ramjet.Router.Table
open Ramjet.Router.Builder
open Ramjet.Router.Reference
open Ramjet.Router.BuiltTable
open Ramjet.Router.RoutingAgreement
open Ramjet.Router.Stats
open Ramjet.Router.RouteNumbers

variable (rx : RegexEngine)

/-- A table that some sequence of calls on a builder freezes into. -/
def Built (t : RouteTable) : Prop :=
  ∃ start cs, Starts start ∧ (start.calls rx cs).build = .ok t

/-- The rule a table serves on a path of a type, under a slot. -/
def ruleAt (t : RouteTable) (slot : HostSlot) (path : Bytes) (pathType : PathType) :
    Option PathRule :=
  (vhostAt t slot).bind fun v => v.routes.find? fun rule =>
    rule.path = path ∧ rule.pathType = pathType

section Hosts

/-- Each name is filed once. -/
def Filed (t : RouteTable) : Prop :=
  (t.hosts.map (·.1)).Nodup ∧ (t.wildcardHosts.map (·.1)).Nodup

theorem filed_file {t : RouteTable} (h : Filed t) (slot : HostSlot) (v : VirtualHost) :
    Filed (file t slot v) := by
  cases slot with
  | exact name => exact ⟨nodup_keys_insert h.1 name v, h.2⟩
  | wildcard parent => exact ⟨h.1, nodup_keys_insert h.2 parent v⟩
  | catchAll => exact h

theorem filed_fileBuckets (backends : List Backend) (buckets : Map HostSlot (List PathRule))
    {t : RouteTable} (h : Filed t) : Filed (fileBuckets backends buckets t) := by
  induction buckets generalizing t with
  | nil => exact h
  | cons bucket rest ih =>
      apply ih
      apply filed_file
      exact h

theorem filed_build {b : RouteTableBuilder} {t : RouteTable} (h : b.build = .ok t) : Filed t := by
  obtain ⟨g, -, h⟩ := bind_eq_ok.mp h
  obtain ⟨fallback, -, h⟩ := bind_eq_ok.mp h
  cases h
  exact filed_fileBuckets _ g.buckets (t := {}) ⟨List.nodup_nil, List.nodup_nil⟩

theorem mem_virtualHosts {t : RouteTable} (h : Filed t) {host : RouteHost} {v : VirtualHost} :
    (host, v) ∈ virtualHosts t ↔ ∃ slot, hostOf slot = host ∧ vhostAt t slot = some v := by
  unfold virtualHosts
  simp only [List.mem_append, List.mem_map, Option.mem_toList, Prod.mk.injEq]
  constructor
  · rintro ((⟨⟨name, w⟩, he, rfl, rfl⟩ | ⟨⟨parent, w⟩, he, rfl, rfl⟩) | ⟨w, hw, rfl, rfl⟩)
    · exact ⟨.exact name, rfl, get_of_mem h.1 he⟩
    · exact ⟨.wildcard parent, rfl, get_of_mem h.2 he⟩
    · exact ⟨.catchAll, rfl, hw⟩
  · rintro ⟨slot, rfl, hv⟩
    cases slot with
    | exact name => exact .inl (.inl ⟨(name, v), mem_of_get hv, rfl, rfl⟩)
    | wildcard parent => exact .inl (.inr ⟨(parent, v), mem_of_get hv, rfl, rfl⟩)
    | catchAll => exact .inr ⟨v, hv, rfl, rfl⟩

theorem mem_routes {t : RouteTable} (h : Filed t) {host : RouteHost} {rule : PathRule} :
    (host, rule) ∈ routes t ↔
      ∃ slot v, hostOf slot = host ∧ vhostAt t slot = some v ∧ rule ∈ v.routes := by
  unfold routes
  rw [List.mem_flatMap]
  constructor
  · rintro ⟨⟨host', v⟩, he, hrule⟩
    obtain ⟨rule', hmem, heq⟩ := List.mem_map.mp hrule
    cases heq
    obtain ⟨slot, hslot, hv⟩ := (mem_virtualHosts h).mp he
    exact ⟨slot, v, hslot, hv, hmem⟩
  · rintro ⟨slot, v, hslot, hv, hmem⟩
    refine ⟨(host, v), (mem_virtualHosts h).mpr ⟨slot, hslot, hv⟩, ?_⟩
    exact List.mem_map.mpr ⟨rule, hmem, rfl⟩

end Hosts

section Keys

variable {rx}

theorem Built.filed {t : RouteTable} (h : Built rx t) : Filed t := by
  obtain ⟨start, cs, -, hbuild⟩ := h
  exact filed_build hbuild

/-- A slot that serves rules is not an exact name with a star in it. -/
theorem Built.starless {t : RouteTable} (h : Built rx t) {slot : HostSlot} {v : VirtualHost}
    (hv : vhostAt t slot = some v) : ∀ name, slot = .exact name → (42 : UInt8) ∉ name := by
  obtain ⟨start, cs, hstart, hbuild⟩ := h
  have hmem : slot ∈ (start.calls rx cs).routes.map (·.slot) :=
    (vhostAt_isSome_iff hbuild slot).mp (by rw [hv]; rfl)
  obtain ⟨d, hd, rfl⟩ := List.mem_map.mp hmem
  have hfresh : ∀ d ∈ start.routes, Starless d := by
    cases hstart <;> exact fun d hd => by cases hd
  exact starless_calls rx hfresh cs d hd

/-- A bucket freezes into its own rules, but for where each is counted. -/
theorem map_freezeBucket {α : Type} {f : PathRule → α}
    (hf : ∀ rule index, f (rule.setStatsIndex index) = f rule) (base : Nat)
    (rules : List PathRule) : List.Perm ((freezeBucket base rules).map f) (rules.map f) := by
  have hzip : (freezeBucket base rules).map f =
      (rules.insertionSort fun a b => a.sortKey ≤ b.sortKey).map f := by
    rw [freezeBucket, List.map_map]
    generalize rules.insertionSort (fun a b => a.sortKey ≤ b.sortKey) = sorted
    induction sorted generalizing base with
    | nil => rfl
    | cons rule rest ih =>
        rw [List.zipIdx_cons, List.map_cons, List.map_cons, ih (base + 1)]
        exact congrArg (· :: _) (hf rule _)
  rw [hzip]
  exact (List.perm_insertionSort _ rules).map _

/-- What a virtual host serves is the frozen rules of its slot. -/
theorem routes_built {b : RouteTableBuilder} {t : RouteTable} (h : b.build = .ok t)
    {slot : HostSlot} {v : VirtualHost} (hv : vhostAt t slot = some v) :
    ∃ base, v.routes = freezeBucket base ((rulesOf b slot).map (frozenRule b.backendIds)) := by
  obtain ⟨base, hslot⟩ := (build_ok h).2.1 slot
  refine ⟨base, ?_⟩
  rw [hv] at hslot
  cases hcase : rulesOf b slot with
  | nil => simp [hcase] at hslot
  | cons d ds =>
      rw [hcase] at hslot
      exact congrArg VirtualHost.routes (Option.some.inj hslot)

/-- A Prefix rule compares no more of its path than is left without trailing slashes. -/
theorem Built.matchLen_le {t : RouteTable} (h : Built rx t) {slot : HostSlot} {v : VirtualHost}
    (hv : vhostAt t slot = some v) {rule : PathRule} (hrule : rule ∈ v.routes)
    (htype : rule.pathType = .prefixed) : rule.matchLen ≤ (trimSlashes rule.path).length := by
  obtain ⟨start, cs, -, hbuild⟩ := h
  obtain ⟨base, hroutes⟩ := routes_built hbuild hv
  have hperm := map_freezeBucket (f := fun r => (r.path, r.pathType, r.matchLen))
    (fun _ _ => rfl) base ((rulesOf (start.calls rx cs) slot).map
      (frozenRule (start.calls rx cs).backendIds))
  rw [← hroutes, List.map_map] at hperm
  have hmem := hperm.subset (List.mem_map.mpr ⟨rule, hrule, rfl⟩)
  obtain ⟨d, -, heq⟩ := List.mem_map.mp hmem
  simp only [Function.comp_apply, frozenRule, PathRule.new, Prod.mk.injEq] at heq
  obtain ⟨hpath, hdtype, hlen⟩ := heq
  rw [← hdtype] at htype
  rw [htype] at hlen
  rw [← hlen, ← hpath]
  exact Nat.mod_le _ _

/-- The rules of one virtual host differ in path or in type. -/
theorem Built.keys_nodup {t : RouteTable} (h : Built rx t) {slot : HostSlot} {v : VirtualHost}
    (hv : vhostAt t slot = some v) :
    (v.routes.map fun rule => (rule.path, rule.pathType)).Nodup := by
  obtain ⟨start, cs, -, hbuild⟩ := h
  obtain ⟨base, hroutes⟩ := routes_built hbuild hv
  obtain ⟨g, hg, -⟩ := bind_eq_ok.mp hbuild
  obtain ⟨hkeys, -⟩ := groupRoutes_keys hg
  have hperm := map_freezeBucket (f := fun rule => (rule.path, rule.pathType)) (fun _ _ => rfl) base
    ((rulesOf (start.calls rx cs) slot).map (frozenRule (start.calls rx cs).backendIds))
  rw [hroutes, hperm.nodup_iff, List.map_map, List.Nodup, List.pairwise_map]
  have hfilter : ((rulesOf (start.calls rx cs) slot).map RouteDraft.key).Nodup :=
    hkeys.sublist (List.filter_sublist.map _)
  rw [List.Nodup, List.pairwise_map] at hfilter
  refine hfilter.imp_of_mem ?_
  intro d e hd he hne heq
  have hdslot : d.slot = slot := by simpa using (List.mem_filter.mp hd).2
  have heslot : e.slot = slot := by simpa using (List.mem_filter.mp he).2
  have hpath : d.path = e.path := congrArg Prod.fst heq
  have htype : d.pathType = e.pathType := congrArg Prod.snd heq
  exact hne (by rw [RouteDraft.key, RouteDraft.key, hdslot, heslot, hpath, htype])

theorem Built.rule_unique {t : RouteTable} (h : Built rx t) {slot : HostSlot} {v : VirtualHost}
    (hv : vhostAt t slot = some v) {rule rule' : PathRule} (hrule : rule ∈ v.routes)
    (hrule' : rule' ∈ v.routes) (hpath : rule.path = rule'.path)
    (htype : rule.pathType = rule'.pathType) : rule = rule' :=
  List.inj_on_of_nodup_map (h.keys_nodup hv) hrule hrule' (by rw [hpath, htype])

theorem Built.ruleAt_iff {t : RouteTable} (h : Built rx t) {slot : HostSlot} {path : Bytes}
    {pathType : PathType} {rule : PathRule} :
    ruleAt t slot path pathType = some rule ↔ ∃ v, vhostAt t slot = some v ∧ rule ∈ v.routes ∧
      rule.path = path ∧ rule.pathType = pathType := by
  unfold ruleAt
  rw [Option.bind_eq_some_iff]
  constructor
  · rintro ⟨v, hv, hfind⟩
    have hkey := List.find?_some hfind
    simp only [decide_eq_true_eq] at hkey
    exact ⟨v, hv, List.mem_of_find?_eq_some hfind, hkey.1, hkey.2⟩
  · rintro ⟨v, hv, hrule, rfl, rfl⟩
    refine ⟨v, hv, ?_⟩
    have hsome : (v.routes.find? fun r =>
        r.path = rule.path ∧ r.pathType = rule.pathType).isSome := by
      rw [List.find?_isSome]
      exact ⟨rule, hrule, by simp⟩
    obtain ⟨found, hfound⟩ := Option.isSome_iff_exists.mp hsome
    have hkey := List.find?_some hfound
    simp only [decide_eq_true_eq] at hkey
    rw [hfound, h.rule_unique hv (List.mem_of_find?_eq_some hfound) hrule hkey.1 hkey.2]

end Keys

section Certificates

/-- Certificates are filed once under each name, and no exact name holds a star. -/
structure Named (m : SniMap) : Prop where
  exact : (m.exact.map (·.1)).Nodup
  wildcard : (m.wildcard.map (·.1)).Nodup
  starless : ∀ name ∈ m.exact.map (·.1), (42 : UInt8) ∉ name

def sniOf (b : RouteTableBuilder) : SniMap := ⟨b.tlsExact, b.tlsWildcard, b.tlsDefault⟩

theorem named_call {b : RouteTableBuilder} (h : Named (sniOf b)) (c : BuilderCall) :
    Named (sniOf (b.call rx c)) := by
  simp only [RouteTableBuilder.call]
  split
  · rename_i b' hb'
    cases c with
    | generation n =>
        cases hb'
        exact h
    | defaultBackend name =>
        cases hb'
        exact h
    | defaultCertificate key =>
        cases hb'
        exact ⟨h.exact, h.wildcard, h.starless⟩
    | backendWith name endpoints options =>
        simp only [RouteTableBuilder.attempt, RouteTableBuilder.backendWith] at hb'
        split at hb'
        · cases hb'
        · cases hb'
          exact h
    | routeWith host path pathType backend options =>
        obtain ⟨d, canary, mirror, -, rfl⟩ := routeWith_spec rx hb'
        exact h
    | certificate host key =>
        simp only [RouteTableBuilder.attempt, RouteTableBuilder.certificate] at hb'
        split at hb'
        · cases hb'
        · rename_i name hslot
          cases hb'
          refine ⟨nodup_keys_insert h.exact name key, h.wildcard, ?_⟩
          intro other hother
          rw [← get_isSome_iff] at hother
          have hget : (get (insert b.tlsExact name key) other).isSome = true := hother
          rw [get_insert] at hget
          by_cases heq : other = name
          · rw [heq]
            exact normalizeConfigHost_starless hslot
          · rw [if_neg heq, get_isSome_iff] at hget
            exact h.starless other hget
        · rename_i parent hslot
          cases hb'
          exact ⟨h.exact, nodup_keys_insert h.wildcard parent key, h.starless⟩
        · cases hb'
          exact ⟨h.exact, h.wildcard, h.starless⟩
  · exact h

theorem named_calls {b : RouteTableBuilder} (h : Named (sniOf b)) (cs : List BuilderCall) :
    Named (sniOf (b.calls rx cs)) := by
  induction cs generalizing b with
  | nil => exact h
  | cons c rest ih => exact ih (named_call rx h c)

variable {rx} in
theorem Built.named {t : RouteTable} (h : Built rx t) : Named t.tls := by
  obtain ⟨start, cs, hstart, hbuild⟩ := h
  rw [build_tls hbuild]
  have hfresh : Named (sniOf start) := by
    cases hstart <;> exact ⟨List.nodup_nil, List.nodup_nil, fun name hname => by cases hname⟩
  exact named_calls rx hfresh cs

end Certificates

end Ramjet.Router.ServedRules
