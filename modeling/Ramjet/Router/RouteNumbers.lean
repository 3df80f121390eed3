/- digest: The counter index each rule of a built table carries, and the identity it stands for. -/

import Mathlib.Data.List.Nodup
import Mathlib.Data.List.Perm.Basic
import Ramjet.Router.BuiltTable
import Ramjet.Router.Stats

set_option autoImplicit false
set_option relaxedAutoImplicit false

namespace Ramjet.Router.RouteNumbers

open Ramjet.Base.Octets
open Ramjet.Base.Outcome
open Ramjet.Base.AssocMap
open Ramjet.Router.Balancing
open Ramjet.Router.Rule
open Ramjet.Router.Table
open Ramjet.Router.Builder
open Ramjet.Router.BuiltTable
open Ramjet.Router.Stats

/-- The virtual host a bucket is filed as. -/
def hostOf : HostSlot → RouteHost
  | .exact h => .exact h
  | .wildcard parent => .wildcard parent
  | .catchAll => .catchAll

/-- How a virtual host is spelled in a route's identity. -/
def spelledHost : RouteHost → Bytes
  | .exact h => h
  | .wildcard parent => ascii "*." ++ parent
  | .catchAll => ascii "*"

theorem spelledHost_hostOf (slot : HostSlot) : spelledHost (hostOf slot) = slot.spelled := by
  cases slot with
  | exact h => rfl
  | wildcard parent => rfl
  | catchAll => rfl

/-- The identity of a route served by a table. -/
def identityOf (backends : List Backend) (e : RouteHost × PathRule) : RouteIdentity :=
  ⟨spelledHost e.1, e.2.path, e.2.pathType,
    match backends[e.2.backend]? with
    | some b => b.name
    | none => []⟩

theorem identityOf_hostOf (backends : List Backend) (slot : HostSlot) (rule : PathRule) :
    identityOf backends (hostOf slot, rule) = ruleIdentity backends slot rule := by
  cases slot with
  | exact h => rfl
  | wildcard parent => rfl
  | catchAll => rfl

section Filing

theorem insert_of_absent {κ ν : Type} [DecidableEq κ] {m : Map κ ν} {k : κ} (h : get m k = none)
    (v : ν) : insert m k v = m ++ [(k, v)] := by
  induction m with
  | nil => rfl
  | cons e rest ih =>
      simp only [Base.AssocMap.get] at h
      split at h
      · cases h
      · rename_i hne
        simp only [Base.AssocMap.insert, if_neg hne, ih h, List.cons_append]

/-- A bucket filed for the first time adds its rules and leaves the others. -/
theorem routes_file {t : RouteTable} {slot : HostSlot} (habsent : vhostAt t slot = none)
    (v : VirtualHost) :
    (routes (file t slot v)).Perm (routes t ++ v.routes.map fun rule => (hostOf slot, rule)) := by
  cases slot with
  | exact h =>
      have hinsert := insert_of_absent habsent v
      simp only [file, routes, virtualHosts, hinsert, List.map_append, List.map_cons, List.map_nil,
        List.flatMap_append, List.flatMap_cons, List.flatMap_nil, List.append_nil, hostOf,
        List.append_assoc]
      refine List.Perm.append_left _ ?_
      exact List.perm_append_comm.trans (List.Perm.of_eq (List.append_assoc _ _ _))
  | wildcard parent =>
      have hinsert := insert_of_absent habsent v
      simp only [file, routes, virtualHosts, hinsert, List.map_append, List.map_cons, List.map_nil,
        List.flatMap_append, List.flatMap_cons, List.flatMap_nil, List.append_nil, hostOf,
        List.append_assoc]
      refine List.Perm.append_left _ (List.Perm.append_left _ ?_)
      exact List.perm_append_comm
  | catchAll =>
      have hnone : t.catchAll = none := habsent
      simp only [file, routes, virtualHosts, hnone, Option.toList_none, Option.toList_some,
        List.map_cons, List.map_nil, List.flatMap_append, List.flatMap_cons, List.flatMap_nil,
        List.append_nil, hostOf]
      exact List.Perm.refl _

end Filing

section Numbering

theorem freezeBucket_indices (base : Nat) (rules : List PathRule) :
    (freezeBucket base rules).map (·.statsIndex) =
      (List.range' base rules.length).map (· % U32_SIZE) := by
  have hlen := List.length_insertionSort (fun a b => a.sortKey ≤ b.sortKey) rules
  rw [freezeBucket, List.map_map, ← hlen]
  generalize rules.insertionSort (fun a b => a.sortKey ≤ b.sortKey) = sorted
  induction sorted generalizing base with
  | nil => rfl
  | cons rule rest ih =>
      rw [List.zipIdx_cons, List.map_cons, ih, List.length_cons, List.range'_succ, List.map_cons]
      rfl

/-- Numbering leaves what a route is identified by. -/
theorem freezeBucket_identities (backends : List Backend) (slot : HostSlot) (base : Nat)
    (rules : List PathRule) :
    (freezeBucket base rules).map (ruleIdentity backends slot) =
      (rules.insertionSort fun a b => a.sortKey ≤ b.sortKey).map (ruleIdentity backends slot) := by
  rw [freezeBucket, List.map_map]
  generalize rules.insertionSort (fun a b => a.sortKey ≤ b.sortKey) = sorted
  induction sorted generalizing base with
  | nil => rfl
  | cons rule rest ih =>
      rw [List.zipIdx_cons, List.map_cons, ih, List.map_cons]
      rfl

theorem freezeBucket_length (base : Nat) (rules : List PathRule) :
    (freezeBucket base rules).length = rules.length := by
  rw [freezeBucket, List.length_map, List.length_zipIdx, List.length_insertionSort]

/-- Every route counts under an index of its own, the one its identity stands at. -/
structure Numbered (backends : List Backend) (t : RouteTable) : Prop where
  indices : ((routes t).map (·.2.statsIndex)).Perm (List.range t.identities.length)
  named : ∀ e ∈ routes t, t.identities[e.2.statsIndex]? = some (identityOf backends e)

theorem numbered_empty (backends : List Backend) : Numbered backends {} where
  indices := List.Perm.refl _
  named := fun _ he => (List.not_mem_nil he).elim

/-- The table with one more bucket. -/
def fileBucket (backends : List Backend) (slot : HostSlot) (rules : List PathRule)
    (t : RouteTable) : RouteTable :=
  file { t with identities := t.identities ++
    (freezeBucket t.identities.length rules).map (ruleIdentity backends slot) } slot
    ⟨freezeBucket t.identities.length rules⟩

theorem identities_file (t : RouteTable) (slot : HostSlot) (v : VirtualHost) :
    (file t slot v).identities = t.identities := by
  cases slot with
  | exact h => rfl
  | wildcard parent => rfl
  | catchAll => rfl

theorem identities_fileBucket (backends : List Backend) (slot : HostSlot) (rules : List PathRule)
    (t : RouteTable) :
    (fileBucket backends slot rules t).identities =
      t.identities ++ (rules.insertionSort fun a b => a.sortKey ≤ b.sortKey).map
        (ruleIdentity backends slot) := by
  rw [fileBucket, identities_file, freezeBucket_identities]

theorem Numbered.fileBucket {backends : List Backend} {t : RouteTable} (h : Numbered backends t)
    {slot : HostSlot} (habsent : vhostAt t slot = none) {rules : List PathRule}
    (hroom : t.identities.length + rules.length ≤ U32_SIZE) :
    Numbered backends (fileBucket backends slot rules t) := by
  have hsame : vhostAt { t with identities := t.identities ++
      (freezeBucket t.identities.length rules).map (ruleIdentity backends slot) } slot = none := by
    rw [← habsent]
    cases slot with
    | exact h => rfl
    | wildcard parent => rfl
    | catchAll => rfl
  have hperm := routes_file hsame ⟨freezeBucket t.identities.length rules⟩
  have hindices : (freezeBucket t.identities.length rules).map (·.statsIndex) =
      List.range' t.identities.length rules.length := by
    rw [freezeBucket_indices]
    refine (List.map_congr_left ?_).trans (List.map_id _)
    intro i hi
    obtain ⟨-, hlt⟩ := List.mem_range'_1.mp hi
    exact Nat.mod_eq_of_lt (by omega)
  have hlen : (RouteNumbers.fileBucket backends slot rules t).identities.length =
      t.identities.length + rules.length := by
    rw [identities_fileBucket, List.length_append, List.length_map, List.length_insertionSort]
  constructor
  · rw [hlen, List.range_add]
    refine (hperm.map _).trans ?_
    rw [List.map_append, List.map_map]
    refine List.Perm.append h.indices (List.Perm.of_eq ?_)
    have hcomp : ((fun e : RouteHost × PathRule => e.2.statsIndex) ∘
        fun rule => (hostOf slot, rule)) = fun rule : PathRule => rule.statsIndex := rfl
    rw [hcomp, hindices, List.range'_eq_map_range]
  · intro e he
    rcases List.mem_append.mp (hperm.mem_iff.mp he) with he | he
    · have hold : t.identities[e.2.statsIndex]? = some (identityOf backends e) := h.named e he
      obtain ⟨hlt, -⟩ := List.getElem?_eq_some_iff.mp hold
      rw [identities_fileBucket, List.getElem?_append_left hlt]
      exact hold
    · obtain ⟨rule, hrule, rfl⟩ := List.mem_map.mp he
      obtain ⟨i, hi, hget⟩ := List.mem_iff_getElem.mp hrule
      have hstats : rule.statsIndex = t.identities.length + i := by
        have hmap := congrArg (fun l => l[i]?) hindices
        simp only [List.getElem?_map, List.getElem?_eq_getElem hi, hget, Option.map_some] at hmap
        rw [freezeBucket_length] at hi
        rw [List.getElem?_range' hi] at hmap
        have hval := Option.some.inj hmap
        omega
      rw [RouteNumbers.fileBucket, identities_file, identityOf_hostOf]
      show (t.identities ++ _)[rule.statsIndex]? = _
      rw [hstats, List.getElem?_append_right (by omega), Nat.add_sub_cancel_left,
        List.getElem?_map, List.getElem?_eq_getElem hi, hget]
      rfl

theorem fileBuckets_cons (backends : List Backend) (slot : HostSlot) (rules : List PathRule)
    (rest : Map HostSlot (List PathRule)) (t : RouteTable) :
    fileBuckets backends ((slot, rules) :: rest) t =
      fileBuckets backends rest (fileBucket backends slot rules t) := rfl

theorem identities_fileBuckets (backends : List Backend) (buckets : Map HostSlot (List PathRule))
    (t : RouteTable) :
    (fileBuckets backends buckets t).identities = t.identities ++ buckets.flatMap fun bucket =>
      (bucket.2.insertionSort fun a b => a.sortKey ≤ b.sortKey).map
        (ruleIdentity backends bucket.1) := by
  induction buckets generalizing t with
  | nil => rw [fileBuckets, List.flatMap_nil, List.append_nil]
  | cons bucket rest ih =>
      obtain ⟨slot, rules⟩ := bucket
      rw [fileBuckets_cons, ih, identities_fileBucket, List.flatMap_cons, List.append_assoc]

theorem vhostAt_fileBucket (backends : List Backend) {slot other : HostSlot} (h : other ≠ slot)
    (rules : List PathRule) (t : RouteTable) :
    vhostAt (fileBucket backends slot rules t) other = vhostAt t other := by
  rw [fileBucket, vhostAt_file, if_neg h]
  cases other with
  | exact h => rfl
  | wildcard parent => rfl
  | catchAll => rfl

/-- Filing every bucket numbers every route, as long as 32 bits hold the numbers. -/
theorem Numbered.fileBuckets {backends : List Backend} {buckets : Map HostSlot (List PathRule)}
    (hnodup : (buckets.map (·.1)).Nodup) {t : RouteTable} (h : Numbered backends t)
    (habsent : ∀ slot ∈ buckets.map (·.1), vhostAt t slot = none)
    (hroom : (fileBuckets backends buckets t).identities.length ≤ U32_SIZE) :
    Numbered backends (fileBuckets backends buckets t) := by
  induction buckets generalizing t with
  | nil => exact h
  | cons bucket rest ih =>
      obtain ⟨slot, rules⟩ := bucket
      rw [List.map_cons, List.nodup_cons] at hnodup
      rw [fileBuckets_cons] at hroom ⊢
      have hgrown := hroom
      rw [identities_fileBuckets, identities_fileBucket, List.length_append, List.length_append,
        List.length_map, List.length_insertionSort] at hgrown
      refine ih hnodup.2 (h.fileBucket (habsent slot List.mem_cons_self) (by omega)) ?_ hroom
      intro other hother
      have hne : other ≠ slot := fun heq => hnodup.1 (heq ▸ hother)
      rw [vhostAt_fileBucket backends hne]
      exact habsent other (List.mem_cons_of_mem slot hother)

end Numbering

section Identities

/-- A draft filed under a name that holds no star. -/
def Starless (d : RouteDraft) : Prop := ∀ h, d.slot = .exact h → (42 : UInt8) ∉ h

private theorem toAsciiLowercase_eq_star {c : UInt8} (h : toAsciiLowercase c = 42) : c = 42 := by
  unfold toAsciiLowercase at h
  split at h
  · rename_i hupper
    have h1 : 65 ≤ c.toNat := hupper.1
    have h2 : c.toNat ≤ 90 := hupper.2
    have hsum := congrArg UInt8.toNat h
    rw [UInt8.toNat_add] at hsum
    have h32 : (32 : UInt8).toNat = 32 := rfl
    have h42 : (42 : UInt8).toNat = 42 := rfl
    omega
  · exact h

private theorem configName_starless {host name lowered : Bytes}
    (h : configName host name = .ok lowered) : (42 : UInt8) ∉ lowered := by
  simp only [configName] at h
  split at h
  · split at h <;> cases h
  · rename_i hfind
    split at h
    · cases h
    · cases h
      intro hin
      obtain ⟨c, hc, hlower⟩ := List.mem_map.mp hin
      have hstar := toAsciiLowercase_eq_star hlower
      have hnone := List.find?_eq_none.mp hfind c hc
      rw [hstar] at hnone
      exact hnone (by decide)

theorem normalizeConfigHost_starless {host h : Bytes}
    (hslot : normalizeConfigHost host = .ok (.exact h)) : (42 : UInt8) ∉ h := by
  simp only [normalizeConfigHost] at hslot
  split at hslot
  · cases hslot
  split at hslot
  · obtain ⟨lowered, -, hbad⟩ := map_eq_ok.mp hslot
    cases hbad
  · obtain ⟨lowered, hname, heq⟩ := map_eq_ok.mp hslot
    cases heq
    exact configName_starless hname

variable (rx : RegexEngine)

theorem starless_call {b : RouteTableBuilder} (hb : ∀ d ∈ b.routes, Starless d) (c : BuilderCall) :
    ∀ d ∈ (b.call rx c).routes, Starless d := by
  simp only [RouteTableBuilder.call]
  split
  · rename_i b' h
    cases c with
    | generation n =>
        cases h
        exact hb
    | backendWith name endpoints options =>
        simp only [RouteTableBuilder.attempt, RouteTableBuilder.backendWith] at h
        split at h
        · cases h
        · cases h
          exact hb
    | defaultBackend name =>
        cases h
        exact hb
    | routeWith host path pathType backend options =>
        obtain ⟨d, canary, mirror, hd, rfl⟩ := routeWith_spec rx h
        obtain ⟨slot, hslot, hd⟩ := bind_eq_ok.mp hd
        obtain ⟨regex, -, hd⟩ := bind_eq_ok.mp hd
        cases hd
        intro e he
        rcases List.mem_append.mp he with he | he
        · exact hb e he
        · rw [List.mem_singleton] at he
          subst he
          intro name hname
          have hexact : slot = .exact name := hname
          subst hexact
          cases host with
          | none => cases hslot
          | some host => exact normalizeConfigHost_starless hslot
    | certificate host key =>
        simp only [RouteTableBuilder.attempt, RouteTableBuilder.certificate] at h
        split at h
        · cases h
        · cases h
          exact hb
        · cases h
          exact hb
        · cases h
          exact hb
    | defaultCertificate key =>
        cases h
        exact hb
  · exact hb

theorem starless_calls {b : RouteTableBuilder} (hb : ∀ d ∈ b.routes, Starless d)
    (cs : List BuilderCall) : ∀ d ∈ (b.calls rx cs).routes, Starless d := by
  induction cs generalizing b with
  | nil => exact hb
  | cons c cs ih => exact ih (starless_call rx hb c)

/-- Two buckets of starless names that are spelled alike are one. -/
theorem spelled_inj {slot other : HostSlot} (hslot : ∀ h, slot = .exact h → (42 : UInt8) ∉ h)
    (hother : ∀ h, other = .exact h → (42 : UInt8) ∉ h) (h : slot.spelled = other.spelled) :
    slot = other := by
  have hstar : ascii "*" = [42] := by decide
  have hwild : ascii "*." = [42, 46] := by decide
  cases slot with
  | exact name =>
      have hname := hslot name rfl
      cases other with
      | exact name' =>
          have hsame : name = name' := h
          rw [hsame]
      | wildcard parent =>
          simp only [HostSlot.spelled, hwild] at h
          simp [h] at hname
      | catchAll =>
          simp only [HostSlot.spelled, hstar] at h
          simp [h] at hname
  | wildcard parent =>
      cases other with
      | exact name =>
          have hname := hother name rfl
          simp only [HostSlot.spelled, hwild] at h
          simp [← h] at hname
      | wildcard parent' =>
          have hsame := List.append_cancel_left h
          rw [hsame]
      | catchAll => simp [HostSlot.spelled, hwild, hstar] at h
  | catchAll =>
      cases other with
      | exact name =>
          have hname := hother name rfl
          simp only [HostSlot.spelled, hstar] at h
          simp [← h] at hname
      | wildcard parent => simp [HostSlot.spelled, hwild, hstar] at h
      | catchAll => rfl

/-- Grouping that succeeds has met no key twice. -/
theorem groupRoutes_keys {ids : Map Bytes BackendId} {drafts : List RouteDraft} {g g' : Grouping}
    (h : groupRoutes ids drafts g = .ok g') :
    (drafts.map RouteDraft.key).Nodup ∧ ∀ d ∈ drafts, d.key ∉ g.seen := by
  induction drafts generalizing g with
  | nil => exact ⟨List.nodup_nil, fun d hd => (List.not_mem_nil hd).elim⟩
  | cons d ds ih =>
      obtain ⟨g1, hg1, h⟩ := bind_eq_ok.mp h
      simp only [groupRoute] at hg1
      split at hg1
      · cases hg1
      rename_i hnew
      obtain ⟨rule, -, hg1⟩ := bind_eq_ok.mp hg1
      cases hg1
      obtain ⟨hnodup, hseen⟩ := ih h
      have hfresh : d.key ∉ g.seen := by simpa using hnew
      refine ⟨?_, ?_⟩
      · rw [List.map_cons, List.nodup_cons]
        refine ⟨fun hin => ?_, hnodup⟩
        obtain ⟨e, he, hkey⟩ := List.mem_map.mp hin
        exact hseen e he (hkey ▸ List.mem_cons_self)
      · intro e he
        rcases List.mem_cons.mp he with rfl | he
        · exact hfresh
        · exact fun hin => hseen e he (List.mem_cons_of_mem _ hin)

/-- The rules of a bucket differ in path or in path type. -/
private theorem bucket_identities_nodup (backends : List Backend) (ids : Map Bytes BackendId)
    {drafts : List RouteDraft} (hkeys : (drafts.map RouteDraft.key).Nodup) (slot : HostSlot) :
    (((drafts.filter fun d => d.slot = slot).map (frozenRule ids)).map
      (ruleIdentity backends slot)).Nodup := by
  rw [List.map_map]
  have hfilter : ((drafts.filter fun d => d.slot = slot).map RouteDraft.key).Nodup :=
    hkeys.sublist (List.filter_sublist.map _)
  rw [List.Nodup, List.pairwise_map] at hfilter ⊢
  refine hfilter.imp_of_mem ?_
  intro d e hd he hne heq
  have hdslot : d.slot = slot := by simpa using (List.mem_filter.mp hd).2
  have heslot : e.slot = slot := by simpa using (List.mem_filter.mp he).2
  refine hne ?_
  have hpath : d.path = e.path := congrArg RouteIdentity.path heq
  have htype : d.pathType = e.pathType := congrArg RouteIdentity.pathType heq
  rw [RouteDraft.key, RouteDraft.key, hdslot, heslot, hpath, htype]

/-- No two routes of a built table share an identity, and each stands under its own index. -/
theorem build_numbered {b : RouteTableBuilder} (hb : ∀ d ∈ b.routes, Starless d) {t : RouteTable}
    (h : b.build = .ok t) :
    t.identities.Nodup ∧
      (t.identities.length ≤ U32_SIZE → Numbered t.backends t) ∧
      t.statsSpecs = b.backends.map fun d => (d.name, d.endpoints.map (·.addr)) := by
  obtain ⟨g, hg, h⟩ := bind_eq_ok.mp h
  obtain ⟨fallback, -, h⟩ := bind_eq_ok.mp h
  cases h
  obtain ⟨hkeys, -⟩ := groupRoutes_keys hg
  obtain ⟨hnodup, hbuckets, -⟩ := groupRoutes_ok hg List.nodup_nil
  -- A bucket holds the frozen drafts of its slot, so its slot names a draft.
  have hbucket : ∀ bucket ∈ g.buckets, ∃ d ∈ b.routes, d.slot = bucket.1 ∧
      bucket.2 = (b.routes.filter fun d => d.slot = bucket.1).map (frozenRule b.backendIds) := by
    intro bucket hin
    have hget := get_of_mem hnodup hin
    rw [hbuckets, bucketAfter] at hget
    split at hget
    · cases hget
    · rename_i drafts hdrafts
      have hrules := Option.some.inj hget
      obtain ⟨d, hd⟩ := List.exists_mem_of_ne_nil _ hdrafts
      obtain ⟨hmem, hslot⟩ := List.mem_filter.mp hd
      refine ⟨d, hmem, by simpa using hslot, ?_⟩
      rw [← hrules]
      rfl
  have hidentities := identities_fileBuckets (builtBackends b.backends) g.buckets {}
  refine ⟨?_, ?_, rfl⟩
  · show (fileBuckets (builtBackends b.backends) g.buckets {}).identities.Nodup
    rw [hidentities, List.nil_append, List.nodup_flatMap]
    constructor
    · intro bucket hin
      obtain ⟨-, -, -, hrules⟩ := hbucket bucket hin
      have hperm := (List.perm_insertionSort (fun a b => a.sortKey ≤ b.sortKey) bucket.2).map
        (ruleIdentity (builtBackends b.backends) bucket.1)
      rw [hperm.nodup_iff, hrules]
      exact bucket_identities_nodup _ _ hkeys bucket.1
    · rw [List.Nodup, List.pairwise_map] at hnodup
      refine hnodup.imp_of_mem ?_
      intro one other hone hother hne identity hin hin'
      obtain ⟨d, hd, hdslot, -⟩ := hbucket one hone
      obtain ⟨e, he, heslot, -⟩ := hbucket other hother
      obtain ⟨rule, -, rfl⟩ := List.mem_map.mp hin
      obtain ⟨rule', -, hsame⟩ := List.mem_map.mp hin'
      refine hne (spelled_inj ?_ ?_ (congrArg RouteIdentity.host hsame).symm)
      · exact hdslot ▸ hb d hd
      · exact heslot ▸ hb e he
  · intro hroom
    have hnumbered := (numbered_empty (builtBackends b.backends)).fileBuckets hnodup
      (fun slot _ => by cases slot <;> rfl) hroom
    exact ⟨hnumbered.indices, hnumbered.named⟩

/-- No two backends of a builder share a name. -/
theorem backend_names_call (rx : RegexEngine) {b : RouteTableBuilder} (hb : BuilderOk b)
    (hnames : (b.backends.map (·.name)).Nodup) (c : BuilderCall) :
    ((b.call rx c).backends.map (·.name)).Nodup := by
  simp only [RouteTableBuilder.call]
  split
  · rename_i b' h
    cases c with
    | generation n =>
        cases h
        exact hnames
    | backendWith name endpoints options =>
        simp only [RouteTableBuilder.attempt, RouteTableBuilder.backendWith] at h
        split at h
        · cases h
        · rename_i hnew
          cases h
          have hfresh : Base.AssocMap.get b.backendIds name = none := by simpa [contains] using hnew
          rw [hb.ids, Option.map_eq_none_iff, List.findIdx?_eq_none_iff] at hfresh
          rw [List.map_append, List.nodup_append]
          refine ⟨hnames, List.nodup_singleton _, ?_⟩
          intro one hone other hother
          obtain ⟨d, hd, rfl⟩ := List.mem_map.mp hone
          have hname : other = name := by simpa using hother
          subst hname
          simpa using hfresh d hd
    | defaultBackend name =>
        cases h
        exact hnames
    | routeWith host path pathType backend options =>
        obtain ⟨d, canary, mirror, -, rfl⟩ := routeWith_spec rx h
        exact hnames
    | certificate host key =>
        simp only [RouteTableBuilder.attempt, RouteTableBuilder.certificate] at h
        split at h
        · cases h
        · cases h
          exact hnames
        · cases h
          exact hnames
        · cases h
          exact hnames
    | defaultCertificate key =>
        cases h
        exact hnames
  · exact hnames

theorem backend_names_calls (rx : RegexEngine) {b : RouteTableBuilder} (hb : BuilderOk b)
    (hnames : (b.backends.map (·.name)).Nodup) (cs : List BuilderCall) :
    ((b.calls rx cs).backends.map (·.name)).Nodup := by
  induction cs generalizing b with
  | nil => exact hnames
  | cons c cs ih => exact ih (builderOk_call rx hb c) (backend_names_call rx hb hnames c)

end Identities

end Ramjet.Router.RouteNumbers
