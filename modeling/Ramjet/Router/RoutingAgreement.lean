/- digest: A built table answers every request as the declared rules say. -/

import Ramjet.Router.BuiltTable

set_option autoImplicit false
set_option relaxedAutoImplicit false

namespace Ramjet.Router.RoutingAgreement

open Ramjet.Base.Octets
open Ramjet.Base.AssocMap
open Ramjet.Base.FirstHit
open Ramjet.Router.Host
open Ramjet.Router.Balancing
open Ramjet.Router.Rule
open Ramjet.Router.Table
open Ramjet.Router.Builder
open Ramjet.Router.Reference
open Ramjet.Router.PathOrder
open Ramjet.Router.BuiltTable

section Normalising

/-- The name a scan leaves once its case is folded. -/
def scanName (host : Bytes) : Option Bytes :=
  match scan host with
  | .clean name => some name
  | .fold name => foldLower name
  | .invalid => none

/-- The scan stops where the port is cut. -/
private theorem scanEnd_eq (host : Bytes) :
    scanEnd host = (cutPort host).map fun name => (name.length, name.any isAsciiUppercase) := by
  unfold scanEnd cutPort
  split
  · cases hfind : host.findIdx? (· == 93) with
    | none =>
        have hmem : (93 : UInt8) ∉ host := by
          intro hmem
          have := List.findIdx?_eq_none_iff.mp hfind 93 hmem
          simp at this
        simp [hmem]
    | some close =>
        obtain ⟨hlt, hidx⟩ := List.findIdx?_eq_some_iff_findIdx_eq.mp hfind
        have hbracket : host[close] = 93 := by
          have := (List.findIdx?_eq_some_iff_getElem.mp hfind).2.1
          simpa using this
        have hname : host.takeWhile (· != 93) ++ [93] = host.take (close + 1) := by
          have hnot : (fun c : UInt8 => !(c != 93)) = (· == 93) := by
            funext c
            simp [bne]
          rw [List.takeWhile_eq_take_findIdx_not, hnot, hidx, List.take_succ_eq_append_getElem hlt,
            hbracket]
        have hmem : (93 : UInt8) ∈ host := hbracket ▸ List.getElem_mem hlt
        have hlen : (host.take (close + 1)).length = close + 1 := by
          rw [List.length_take]
          omega
        simp only [if_pos hmem, Option.map_some, hname, hlen]
  · rfl

private theorem cutPort_starts {host name : Bytes} (h : cutPort host = some name) :
    name <+: host := by
  unfold cutPort at h
  split at h
  · split at h
    · rename_i hmem
      cases h
      obtain ⟨pre, post, hpre, rfl⟩ : ∃ pre post, (93 : UInt8) ∉ pre ∧ host = pre ++ 93 :: post := by
        obtain ⟨pre, post, heq, hpre⟩ := List.eq_append_cons_of_mem hmem
        exact ⟨pre, post, hpre, heq⟩
      refine ⟨post, ?_⟩
      rw [List.takeWhile_append_of_pos]
      · simp
      · intro c hc
        simp only [bne_iff_ne, ne_eq]
        rintro rfl
        exact hpre hc
    · cases h
  · cases h
    exact List.takeWhile_prefix _

private theorem toAsciiLowercase_of_not_upper {c : UInt8} (h : isAsciiUppercase c = false) :
    toAsciiLowercase c = c := by
  unfold toAsciiLowercase
  split
  · rename_i hupper
    simp [isAsciiUppercase, hupper] at h
  · rfl

private theorem dropRootDot_starts (name : Bytes) : dropRootDot name <+: name := by
  unfold dropRootDot
  split
  · exact List.dropLast_prefix name
  · exact List.prefix_refl name

private theorem any_upper_dropRootDot (name : Bytes) :
    (dropRootDot name).any isAsciiUppercase = name.any isAsciiUppercase := by
  unfold dropRootDot
  split
  · rename_i hdot
    obtain ⟨front, rfl⟩ := List.getLast?_eq_some_iff.mp hdot
    simp [isAsciiUppercase]
  · rfl

/-- Scanning and folding give the normalised name; a lone dot is the one header kept apart. -/
theorem scanName_eq (host : Bytes) :
    scanName host = normalizeHeader host ∨
      (scanName host = some [46] ∧ normalizeHeader host = none) := by
  unfold scanName scan normalizeHeader
  rw [scanEnd_eq]
  cases hcut : cutPort host with
  | none => exact Or.inl rfl
  | some name =>
      obtain ⟨rest, rfl⟩ := cutPort_starts hcut
      by_cases hdot : name = [46]
      · right
        subst hdot
        simp [dropRootDot, isAsciiUppercase, MAX_HOST_LEN]
      left
      have hlast : ((1 < name.length ∧ (name ++ rest)[name.length - 1]? = some 46) ↔
          name.getLast? = some 46) := by
        rcases List.eq_nil_or_concat name with rfl | ⟨front, c, rfl⟩
        · simp
        · have hfront : 0 < front.length ↔ front ≠ [] := List.length_pos_iff
          simp only [List.concat_eq_append, List.length_append, List.length_singleton,
            Nat.add_sub_cancel, List.getLast?_append, List.getLast?_singleton, Option.some_or,
            Option.some.injEq]
          rw [List.getElem?_append_left (by simp), List.getElem?_append_right (by simp)]
          simp only [Nat.sub_self, List.getElem?_cons_zero, Option.some.injEq]
          constructor
          · exact fun h => h.2
          · rintro rfl
            refine ⟨?_, rfl⟩
            have hne : front ≠ [] := by
              rintro rfl
              exact hdot rfl
            have := hfront.mpr hne
            omega
      have hstop : (if 1 < name.length ∧ (name ++ rest)[name.length - 1]? = some 46
          then name.length - 1 else name.length) = (dropRootDot name).length := by
        unfold dropRootDot
        simp only [hlast]
        split <;> simp
      have htake : (name ++ rest).take (dropRootDot name).length = dropRootDot name := by
        obtain ⟨tail, htail⟩ := (dropRootDot_starts name).trans (List.prefix_append name rest)
        rw [← htail, List.take_left]
      simp only [Option.map_some, hstop, htake, List.length_eq_zero_iff, Option.bind_eq_bind,
        Option.bind_some, MAX_HOST_LEN]
      by_cases hbad : dropRootDot name = [] ∨ 253 < (dropRootDot name).length
      · simp [hbad]
      · simp only [if_neg hbad]
        by_cases hupper : name.any isAsciiUppercase = true
        · have hlen : (dropRootDot name).length ≤ MAX_HOST_LEN := by
            have : MAX_HOST_LEN = 253 := rfl
            omega
          simp [hupper, foldLower, hlen]
        · have hlower : (dropRootDot name).map toAsciiLowercase = dropRootDot name := by
            rw [← any_upper_dropRootDot, List.any_eq_true] at hupper
            push Not at hupper
            have hsame : ∀ c ∈ dropRootDot name, toAsciiLowercase c = id c := fun c hc =>
              toAsciiLowercase_of_not_upper (Bool.eq_false_iff.mpr (hupper c hc))
            rw [List.map_congr_left hsame, List.map_id]
          simp [hupper, hlower]

end Normalising

section Selection

variable {b : RouteTableBuilder} {t : RouteTable}

/-- The virtual host a header selects in a table. -/
def selected (t : RouteTable) (host : Bytes) : Option (VirtualHost × HostMatch) :=
  match scanName host with
  | some name => t.selectHost name
  | none => t.catchAll.map fun v => (v, .catchAll)

private theorem matchRequest_scanName (rx : RegexEngine) (t : RouteTable) (host path : Bytes) :
    t.matchRequest rx host path =
      match scanName host with
      | some name => t.matchNormalized rx name path
      | none => t.catchAllOrDefault rx path := by
  unfold RouteTable.matchRequest scanName
  cases scan host with
  | clean name => rfl
  | invalid => rfl
  | fold name => cases foldLower name <;> rfl

/-- A request is answered by the selected host's rules, else by the default backend. -/
theorem matchRequest_eq (rx : RegexEngine) (t : RouteTable) (host path : Bytes) :
    t.matchRequest rx host path =
      match selected t host with
      | none => t.defaultResult
      | some (v, hostMatch) =>
          match v.matchPath rx path with
          | some rule => t.hit rule hostMatch
          | none => t.defaultResult := by
  have hcatch : t.catchAllOrDefault rx path =
      match t.catchAll.map fun v => (v, HostMatch.catchAll) with
      | none => t.defaultResult
      | some (v, hostMatch) =>
          match v.matchPath rx path with
          | some rule => t.hit rule hostMatch
          | none => t.defaultResult := by
    unfold RouteTable.catchAllOrDefault
    cases t.catchAll <;> rfl
  rw [matchRequest_scanName, selected]
  cases scanName host with
  | some name => rfl
  | none => exact hcatch

/-- A host selects in the built table what it selects among the declared rules. -/
theorem selected_eq (hb : BuilderOk b)
    (hvhost : ∀ slot, (vhostAt t slot).isSome = true ↔ slot ∈ b.routes.map (·.slot))
    (host : Bytes) :
    selected t host = (selectSlot (b.routes.map (·.slot)) host).bind fun slot =>
      (vhostAt t slot).map fun v => (v, hostMatchOf slot) := by
  have habsent : ∀ slot, slot ∉ b.routes.map (·.slot) → vhostAt t slot = none := by
    intro slot hslot
    rw [← Option.not_isSome_iff_eq_none, hvhost]
    exact hslot
  have hpresent : ∀ slot, slot ∈ b.routes.map (·.slot) → ∃ v, vhostAt t slot = some v :=
    fun slot hslot => Option.isSome_iff_exists.mp ((hvhost slot).mpr hslot)
  have hbad : ∀ slot, ¬ SlotOk slot → slot ∉ b.routes.map (·.slot) := by
    intro slot hslot hmem
    obtain ⟨d, hd, rfl⟩ := List.mem_map.mp hmem
    exact hslot (hb.slots d hd)
  have hcatch : (t.catchAll.map fun v => (v, HostMatch.catchAll)) =
      (orCatchAll (b.routes.map (·.slot))).bind fun slot =>
        (vhostAt t slot).map fun v => (v, hostMatchOf slot) := by
    unfold orCatchAll
    split
    · rfl
    · rename_i hnone
      have hempty : t.catchAll = none := habsent .catchAll hnone
      simp [hempty]
  unfold selected selectSlot
  rcases scanName_eq host with hname | ⟨hdot, hnone⟩
  · rw [hname]
    cases normalizeHeader host with
    | none => exact hcatch
    | some name =>
        simp only [RouteTable.selectHost]
        by_cases hexact : HostSlot.exact name ∈ b.routes.map (·.slot)
        · obtain ⟨v, hv⟩ := hpresent _ hexact
          have hget : get t.hosts name = some v := hv
          simp [hexact, hget, hv, hostMatchOf]
        · have hget : get t.hosts name = none := habsent _ hexact
          simp only [hexact, hget, if_false]
          -- A wildcard without a parent is never filed, so an empty rest selects none.
          have hparent : ((parentDomain name).bind (get t.wildcardHosts)) =
              (minusLabel name).bind (get t.wildcardHosts) := by
            have hempty : get t.wildcardHosts [] = none :=
              habsent (.wildcard []) (hbad _ fun h => h rfl)
            unfold parentDomain minusLabel
            cases splitOnce (46 : UInt8) name with
            | none => rfl
            | some cut =>
                obtain ⟨label, parent⟩ := cut
                cases label <;> cases parent <;> simp [hempty]
          rw [hparent]
          cases minusLabel name with
          | none => exact hcatch
          | some parent =>
              by_cases hwild : HostSlot.wildcard parent ∈ b.routes.map (·.slot)
              · obtain ⟨v, hv⟩ := hpresent _ hwild
                have hgetw : get t.wildcardHosts parent = some v := hv
                simp [hwild, hgetw, hv, hostMatchOf]
              · have hgetw : get t.wildcardHosts parent = none := habsent _ hwild
                simpa [hwild, hgetw] using hcatch
  · rw [hdot, hnone]
    have hget : get t.hosts [46] = none := habsent (.exact [46]) (hbad _ fun h => h rfl)
    have hparent : parentDomain [46] = none := rfl
    simpa [RouteTable.selectHost, hget, hparent] using hcatch

end Selection

section Agreement

variable (rx : RegexEngine) {b : RouteTableBuilder} {t : RouteTable}

/-- What 32-bit lengths and indices can hold. -/
structure Fits (b : RouteTableBuilder) : Prop where
  backends : b.backends.length ≤ U32_SIZE
  paths : ∀ d ∈ b.routes, d.pathType = .prefixed → prefixMatchLen d.path < U32_SIZE

private theorem mem_slots_iff (b : RouteTableBuilder) (slot : HostSlot) :
    slot ∈ b.routes.map (·.slot) ↔ rulesOf b slot ≠ [] := by
  simp [rulesOf, List.filter_eq_nil_iff]

theorem vhostAt_isSome_iff (h : b.build = .ok t) (slot : HostSlot) :
    (vhostAt t slot).isSome = true ↔ slot ∈ b.routes.map (·.slot) := by
  obtain ⟨base, hslot⟩ := (build_ok h).2.1 slot
  rw [mem_slots_iff, hslot]
  cases rulesOf b slot <;> simp

/-- A virtual host answers with its first least matching rule in registration order. -/
private theorem matchPath_frozen (h : b.build = .ok t) {slot : HostSlot} {v : VirtualHost}
    (hv : vhostAt t slot = some v) (path : Bytes) :
    ∃ index, v.matchPath rx path =
      ((((rulesOf b slot).map (frozenRule b.backendIds)).insertionSort
          fun a b => a.sortKey ≤ b.sortKey).find? fun rule => rule.matches rx path).map
            (·.setStatsIndex index) := by
  obtain ⟨base, hslot⟩ := (build_ok h).2.1 slot
  have hfrozen : v = ⟨freezeBucket base ((rulesOf b slot).map (frozenRule b.backendIds))⟩ := by
    rw [hv] at hslot
    cases hrules : rulesOf b slot with
    | nil => simp [hrules] at hslot
    | cons d ds => simpa [hrules] using hslot
  rw [hfrozen, VirtualHost.matchPath]
  exact find?_freezeBucket (p := fun rule => rule.matches rx path) (fun _ _ => rfl) base _

/-- The first least matching draft of the selected slot answers, else the default backend. -/
theorem matchRequest_frozen (hb : BuilderOk b) (h : b.build = .ok t) (host path : Bytes) :
    match (do
      let slot ← selectSlot (b.routes.map (·.slot)) host
      let d ← firstMin (fun d => (frozenRule b.backendIds d).sortKey)
        ((rulesOf b slot).filter fun d => (frozenRule b.backendIds d).matches rx path)
      return (slot, d)) with
    | some (slot, d) => ∃ index, t.matchRequest rx host path =
        t.hit ((frozenRule b.backendIds d).setStatsIndex index) (hostMatchOf slot)
    | none => t.matchRequest rx host path = t.defaultResult := by
  rw [matchRequest_eq, selected_eq hb (vhostAt_isSome_iff h)]
  cases hslot : selectSlot (b.routes.map (·.slot)) host with
  | none => rfl
  | some slot =>
      simp only [Option.bind_some, Option.bind_eq_bind]
      cases hv : vhostAt t slot with
      | none =>
          have hrules : rulesOf b slot = [] := by
            by_contra hne
            have hsome := (vhostAt_isSome_iff h slot).mpr ((mem_slots_iff b slot).mpr hne)
            simp [hv] at hsome
          rw [hrules]
          rfl
      | some v =>
          obtain ⟨index, hmatch⟩ := matchPath_frozen rx h hv path
          rw [find?_insertionSort, List.filter_map, firstMin_map] at hmatch
          have hfilter : (rulesOf b slot).filter
              ((fun rule => rule.matches rx path) ∘ frozenRule b.backendIds) =
            (rulesOf b slot).filter fun d => (frozenRule b.backendIds d).matches rx path := rfl
          rw [hfilter] at hmatch
          simp only [Option.map_some, hmatch]
          cases firstMin (fun d => (frozenRule b.backendIds d).sortKey)
              ((rulesOf b slot).filter fun d => (frozenRule b.backendIds d).matches rx path) with
          | none => rfl
          | some d => exact ⟨index, rfl⟩

/-- The rule found in a bucket is the picked draft, frozen under some counter index. -/
private theorem matchPath_built (hb : BuilderOk b) (hfits : Fits b) (h : b.build = .ok t)
    {slot : HostSlot} {v : VirtualHost} (hv : vhostAt t slot = some v) (path : Bytes) :
    ∃ index, v.matchPath rx path = (pickRule rx (rulesOf b slot) path).map fun d =>
      (frozenRule b.backendIds d).setStatsIndex index := by
  obtain ⟨index, hindex⟩ := matchPath_frozen rx h hv path
  refine ⟨index, ?_⟩
  have hok : ∀ d ∈ rulesOf b slot, DraftOk d := by
    intro d hd
    have hmem : d ∈ b.routes := (List.mem_filter.mp hd).1
    exact ⟨hb.regex d hmem, hfits.paths d hmem⟩
  rw [hindex, find?_sorted (fun d _ => freezes_frozenRule b.backendIds d) hok, Option.map_map]
  rfl

private theorem mem_of_pickRule {rules : List RouteDraft} {path : Bytes} {d : RouteDraft}
    (h : pickRule rx rules path = some d) : d ∈ rules := by
  unfold pickRule at h
  split at h
  · cases h
    exact List.mem_of_find?_eq_some ‹_›
  split at h
  · cases h
    rename_i hmin
    exact (List.mem_filter.mp (Base.FirstHit.mem_of_firstMin _ hmin)).1
  · exact List.mem_of_find?_eq_some h

/-- The default backend of a built table is the declared one. -/
private theorem defaultResult_built (hb : BuilderOk b) (hfits : Fits b) (h : b.build = .ok t) :
    t.defaultResult.map answerOf = (do
      let name ← b.defaultBackend
      let backend ← RouteTableBuilder.declared b name
      return ⟨backend, none, .defaultBackend⟩) := by
  obtain ⟨hbackends, -, -, hdefault, hknown⟩ := build_ok h
  unfold RouteTable.defaultResult
  rw [hbackends, hdefault]
  cases hname : b.defaultBackend with
  | none => rfl
  | some name =>
      obtain ⟨id, hid⟩ := Option.isSome_iff_exists.mp (hknown name hname)
      obtain ⟨d, index, hd, hget⟩ := builtBackends_of_get hb hfits.backends hid
      simp [hid, hget, hd, answerOf, Backend.new]

/-- A hit on a frozen rule names the declared backend and the declared rule. -/
private theorem hit_built (hb : BuilderOk b) (hfits : Fits b) (h : b.build = .ok t)
    {d : RouteDraft} (hd : d ∈ b.routes) (index : Nat) (hostMatch : HostMatch) :
    (t.hit ((frozenRule b.backendIds d).setStatsIndex index) hostMatch).map answerOf =
      (RouteTableBuilder.declared b d.backend).map fun backend =>
        ⟨backend, some (d.path, d.pathType), hostMatch⟩ := by
  obtain ⟨hbackends, -, hids, -, -⟩ := build_ok h
  obtain ⟨e, slot, he, hget⟩ := builtBackends_of_get hb hfits.backends (hids d hd)
  have hrule : t.backends[((frozenRule b.backendIds d).setStatsIndex index).backend]? =
      some (Backend.new e.name e.endpoints e.options.policy e.options.protocol slot) := by
    rw [hbackends]
    exact hget
  rw [RouteTable.hit, hrule, he]
  rfl

/-- A table built from any calls answers as its declared rules say. -/
theorem matchRequest_built (hb : BuilderOk b) (hfits : Fits b) (h : b.build = .ok t)
    (host path : Bytes) :
    (t.matchRequest rx host path).map answerOf = referenceMatch rx b host path := by
  rw [matchRequest_eq, selected_eq hb (vhostAt_isSome_iff h)]
  unfold referenceMatch referenceRule
  cases hslot : selectSlot (b.routes.map (·.slot)) host with
  | none => exact defaultResult_built hb hfits h
  | some slot =>
      simp only [Option.bind_some, Option.bind_eq_bind]
      cases hv : vhostAt t slot with
      | none =>
          have hrules : rulesOf b slot = [] := by
            by_contra hne
            have hsome := (vhostAt_isSome_iff h slot).mpr ((mem_slots_iff b slot).mpr hne)
            simp [hv] at hsome
          have hpick : pickRule rx (rulesOf b slot) path = none := by
            rw [hrules]
            rfl
          rw [hpick]
          exact defaultResult_built hb hfits h
      | some v =>
          obtain ⟨index, hmatch⟩ := matchPath_built rx hb hfits h hv path
          simp only [Option.map_some, hmatch]
          cases hpick : pickRule rx (rulesOf b slot) path with
          | none => exact defaultResult_built hb hfits h
          | some d =>
              have hd : d ∈ b.routes := (List.mem_filter.mp (mem_of_pickRule rx hpick)).1
              exact hit_built hb hfits h hd index (hostMatchOf slot)

/-- The builders a controller starts from: an empty one, or the successor of a table. -/
inductive Starts : RouteTableBuilder → Prop
  | fresh : Starts {}
  | next (previous : RouteTable) : Starts (RouteTableBuilder.fromPrevious previous)

theorem Starts.builderOk {b : RouteTableBuilder} (h : Starts b) : BuilderOk b := by
  cases h with
  | fresh => exact builderOk_fresh
  | next previous => exact builderOk_fromPrevious previous

/-- Whatever was called on a builder, the table it builds routes by the reference. -/
theorem routing_agreement {start : RouteTableBuilder} (hstart : Starts start)
    (cs : List BuilderCall) {t : RouteTable} (hbuild : (start.calls rx cs).build = .ok t)
    (hfits : Fits (start.calls rx cs)) (host path : Bytes) :
    (t.matchRequest rx host path).map answerOf =
      referenceMatch rx (start.calls rx cs) host path :=
  matchRequest_built rx (builderOk_calls rx hstart.builderOk cs) hfits hbuild host path

/-- An engine that compiles every expression and matches none. -/
def literalEngine : RegexEngine := ⟨fun _ => true, fun _ _ => false⟩

/-- A wildcard host with a prefix rule spelled with a trailing slash. -/
def wildcardCalls : List BuilderCall :=
  [.backendWith (ascii "web") [] {},
    .routeWith (some (ascii "*.Example.com")) (ascii "/foo/") .prefixed (ascii "web") {}]

theorem routing_agreement_wildcard :
    ∃ t, (({} : RouteTableBuilder).calls literalEngine wildcardCalls).build = .ok t ∧
      (t.matchRequest literalEngine (ascii "API.example.com.:80") (ascii "/foo/bar")).map answerOf =
        referenceMatch literalEngine (({} : RouteTableBuilder).calls literalEngine wildcardCalls)
          (ascii "API.example.com.:80") (ascii "/foo/bar") := by
  have hbuild : ((({} : RouteTableBuilder).calls literalEngine wildcardCalls).build).toOption.isSome
      = true := by decide +kernel
  obtain ⟨t, ht⟩ : ∃ t, (({} : RouteTableBuilder).calls literalEngine wildcardCalls).build =
      .ok t := by
    cases h : (({} : RouteTableBuilder).calls literalEngine wildcardCalls).build with
    | ok t => exact ⟨t, rfl⟩
    | error e =>
        rw [h] at hbuild
        cases hbuild
  exact ⟨t, ht, routing_agreement literalEngine .fresh wildcardCalls ht
    ⟨by decide +kernel, by decide +kernel⟩ _ _⟩

end Agreement

section Limits

/-- A slash and a run of one letter. -/
def letterPath (n : Nat) : Bytes := 47 :: List.replicate n 97

def letterPathCalls (n : Nat) : List BuilderCall :=
  [.backendWith (ascii "web") [] {}, .routeWith none (letterPath n) .prefixed (ascii "web") {}]

private theorem prefixMatchLen_letterPath (n : Nat) :
    prefixMatchLen (letterPath (n + 1)) = n + 2 := by
  have hlast : letterPath (n + 1) = letterPath n ++ [97] := by
    rw [letterPath, List.replicate_succ', letterPath, List.cons_append]
  rw [prefixMatchLen, trimSlashes, hlast, List.rdropWhile_concat_neg _ _ _ (by decide)]
  simp [letterPath]

/-- An unusable header is answered by the catch-all's only rule. -/
private theorem matchRequest_single {t : RouteTable} {rule : PathRule} {path : Bytes}
    (ht : vhostAt t .catchAll = some ⟨[rule]⟩) (hrule : rule.matches literalEngine path = true) :
    t.matchRequest literalEngine [] path = t.hit rule .catchAll := by
  have hscan : scan [] = .invalid := rfl
  have hcatch : t.catchAll = some ⟨[rule]⟩ := ht
  have hfind : [rule].find? (fun r => r.matches literalEngine path) = some rule :=
    List.find?_cons_of_pos hrule
  rw [RouteTable.matchRequest, hscan]
  simp only [RouteTable.catchAllOrDefault, hcatch, Option.bind_some, VirtualHost.matchPath, hfind]

/-- A prefix rule whose length wraps to zero answers the root path. -/
private theorem answers_root {n : Nat} (hwrap : prefixMatchLen (letterPath n) % U32_SIZE = 0) :
    ∃ t, (({} : RouteTableBuilder).calls literalEngine (letterPathCalls n)).build = .ok t ∧
      (t.matchRequest literalEngine [] [47]).map answerOf =
        some ⟨⟨ascii "web", {}, []⟩, some (letterPath n, .prefixed), .catchAll⟩ := by
  have hrule : ((PathRule.new (letterPath n) .prefixed none 0 none).setStatsIndex 0).matches
      literalEngine [47] = true := by
    change prefixMatches (letterPath n) (prefixMatchLen (letterPath n) % U32_SIZE) [47] = true
    rw [hwrap]
    rfl
  refine ⟨_, rfl, ?_⟩
  rw [matchRequest_single rfl hrule]
  rfl

/-- Backends named by one letter repeated, each a letter longer than the one before. -/
def letterName (n : Nat) : Bytes := List.replicate n 97

def letterCalls (n : Nat) : List BuilderCall :=
  (List.range n).map fun i => .backendWith (letterName i) [] {}

/-- A rule for the last of `n + 1` backends. -/
def lastBackendCalls (n : Nat) : List BuilderCall :=
  letterCalls (n + 1) ++ [.routeWith none [47] .exact (letterName n) {}]

private theorem length_letterName (n : Nat) : (letterName n).length = n := List.length_replicate

private theorem letterName_inj {m n : Nat} : letterName m = letterName n ↔ m = n := by
  refine ⟨fun h => ?_, fun h => h ▸ rfl⟩
  simpa only [length_letterName] using congrArg List.length h

/-- Backends of distinct names are all registered, in order. -/
private theorem calls_letterCalls (n : Nat) :
    (({} : RouteTableBuilder).calls literalEngine (letterCalls n)) =
      { backends := (List.range n).map fun i => ⟨letterName i, {}, []⟩
        backendIds := (({} : RouteTableBuilder).calls literalEngine (letterCalls n)).backendIds } := by
  induction n with
  | zero => rfl
  | succ n ih =>
      have hok := builderOk_calls literalEngine builderOk_fresh (letterCalls n)
      have hstep : ({} : RouteTableBuilder).calls literalEngine (letterCalls (n + 1)) =
          (({} : RouteTableBuilder).calls literalEngine (letterCalls n)).call literalEngine
            (.backendWith (letterName n) [] {}) := by
        simp [letterCalls, RouteTableBuilder.calls, List.range_succ]
      have hnew : contains (({} : RouteTableBuilder).calls literalEngine
          (letterCalls n)).backendIds (letterName n) = false := by
        rw [contains, hok.ids, ih]
        simp [letterName_inj]
        omega
      rw [hstep]
      simp only [RouteTableBuilder.call, RouteTableBuilder.attempt, RouteTableBuilder.backendWith,
        hnew]
      rw [ih]
      simp [List.range_succ]

private theorem get_letterName (n : Nat) :
    get (({} : RouteTableBuilder).calls literalEngine (letterCalls (n + 1))).backendIds
      (letterName n) = some (n % U32_SIZE) := by
  have hok := builderOk_calls literalEngine builderOk_fresh (letterCalls (n + 1))
  have hfind : ((List.range (n + 1)).map fun i =>
      (⟨letterName i, {}, []⟩ : BackendDraft)).findIdx?
        (fun d => decide (d.name = letterName n)) = some n := by
    rw [List.findIdx?_eq_some_iff_getElem]
    refine ⟨by simp, by simp, fun j hj => ?_⟩
    have hne : j ≠ n := by omega
    simp [letterName_inj, hne]
  rw [hok.ids, calls_letterCalls, hfind]
  rfl

/-- A table of one unconditional rule is built once its backend is known. -/
private theorem build_single {b : RouteTableBuilder} {d : RouteDraft} {id : BackendId}
    (hroutes : b.routes = [d]) (hcanary : d.canary = none) (hmirror : d.mirror = none)
    (hdefault : b.defaultBackend = none) (hid : get b.backendIds d.backend = some id) :
    ∃ t, b.build = .ok t := by
  have hfreeze : freezeRule b.backendIds d =
      .ok (PathRule.new d.path d.pathType d.regex id none) := by
    simp only [freezeRule, resolveBackend, hid, hcanary, hmirror]
    rfl
  have hgroup : ∃ g, groupRoutes b.backendIds b.routes {} = .ok g := by
    rw [hroutes]
    simp only [groupRoutes, groupRoute, hfreeze]
    exact ⟨_, rfl⟩
  obtain ⟨g, hg⟩ := hgroup
  simp only [RouteTableBuilder.build, hg, hdefault]
  exact ⟨_, rfl⟩

/-- A rule for a backend whose index wraps to zero is answered by the first backend. -/
private theorem answers_first {n : Nat} (hwrap : n % U32_SIZE = 0) :
    ∃ t, (({} : RouteTableBuilder).calls literalEngine (lastBackendCalls n)).build = .ok t ∧
      (t.matchRequest literalEngine [] [47]).map answerOf =
        some ⟨⟨[], {}, []⟩, some ([47], .exact), .catchAll⟩ := by
  have hcalls := calls_letterCalls (n + 1)
  have hget := get_letterName n
  rw [hwrap] at hget
  generalize hb : ({} : RouteTableBuilder).calls literalEngine (letterCalls (n + 1)) = b at hcalls hget
  have hnext : ({} : RouteTableBuilder).calls literalEngine (lastBackendCalls n) =
        { b with routes := b.routes ++
          [⟨.catchAll, [47], .exact, none, letterName n, none, none⟩] } := by
    rw [lastBackendCalls, calls_append, hb]
    rfl
  have hroutes : b.routes = [] := by rw [hcalls]
  have hdefault : b.defaultBackend = none := by rw [hcalls]
  rw [hnext, hroutes, List.nil_append]
  obtain ⟨t, ht⟩ := build_single (b := { b with
    routes := [⟨.catchAll, [47], .exact, none, letterName n, none, none⟩] }) rfl rfl rfl hdefault hget
  obtain ⟨hbackends, hvhosts, -, -, -⟩ := build_ok ht
  obtain ⟨base, hvhost⟩ := hvhosts .catchAll
  refine ⟨t, ht, ?_⟩
  rw [matchRequest_single hvhost rfl]
  have hfirst : b.backends[0]? = some ⟨[], {}, []⟩ := by
    rw [hcalls]
    simp [letterName]
  have hzero : (get b.backendIds (letterName n)).getD 0 = 0 := by rw [hget, Option.getD_some]
  rw [RouteTable.hit, hbackends]
  simp only [frozenRule, PathRule.new, PathRule.setStatsIndex, hzero, builtBackends,
    List.getElem?_map, List.getElem?_zipIdx, hfirst]
  rfl

/-- No path as short as the root is covered by a longer prefix. -/
private theorem reference_long {n : Nat} (hlen : 1 < prefixMatchLen (letterPath n)) :
    referenceMatch literalEngine (({} : RouteTableBuilder).calls literalEngine
      (letterPathCalls n)) [] [47] = none := by
  have hmiss : matchesSegments [47]
      ⟨.catchAll, letterPath n, .prefixed, none, ascii "web", none, none⟩ = false := by
    rw [matchesSegments, decide_eq_false_iff_not, ← prefixMatches_iff]
    rintro ⟨-, hmatch⟩
    simp only [prefixMatches, Bool.and_eq_true, decide_eq_true_eq, List.length_singleton] at hmatch
    omega
  have hpick : pickRule literalEngine
      [⟨.catchAll, letterPath n, .prefixed, none, ascii "web", none, none⟩] [47] = none := by
    rw [pickRule, List.filter_singleton, hmiss]
    rfl
  have hrule : referenceRule literalEngine (({} : RouteTableBuilder).calls literalEngine
      (letterPathCalls n)) [] [47] = none := by
    change (pickRule literalEngine
      [⟨.catchAll, letterPath n, .prefixed, none, ascii "web", none, none⟩] [47]).bind _ = none
    rw [hpick]
    rfl
  rw [referenceMatch, hrule]
  rfl

/-- The reference sends a rule to the backend it names. -/
private theorem reference_last (n : Nat) (answer : Answer)
    (h : referenceMatch literalEngine (({} : RouteTableBuilder).calls literalEngine
      (lastBackendCalls n)) [] [47] = some answer) : answer.backend.name = letterName n := by
  have hcalls := calls_letterCalls (n + 1)
  generalize hb : ({} : RouteTableBuilder).calls literalEngine (letterCalls (n + 1)) = b at hcalls
  have hnext : ({} : RouteTableBuilder).calls literalEngine (lastBackendCalls n) =
      { b with routes := [⟨.catchAll, [47], .exact, none, letterName n, none, none⟩] } := by
    rw [lastBackendCalls, calls_append, hb, hcalls]
    rfl
  rw [hnext] at h
  change (RouteTableBuilder.declared b (letterName n)).map _ = some answer at h
  obtain ⟨d, hd, rfl⟩ := Option.map_eq_some_iff.mp h
  simpa [RouteTableBuilder.declared] using List.find?_some hd

/-- A path or a list of backends past 32 bits is answered otherwise than declared. -/
theorem routing_disagreement :
    (∃ t, (({} : RouteTableBuilder).calls literalEngine
        (letterPathCalls (U32_SIZE - 1))).build = .ok t ∧
      (t.matchRequest literalEngine [] [47]).map answerOf ≠
        referenceMatch literalEngine (({} : RouteTableBuilder).calls literalEngine
          (letterPathCalls (U32_SIZE - 1))) [] [47]) ∧
    ∃ t, (({} : RouteTableBuilder).calls literalEngine
        (lastBackendCalls U32_SIZE)).build = .ok t ∧
      (t.matchRequest literalEngine [] [47]).map answerOf ≠
        referenceMatch literalEngine (({} : RouteTableBuilder).calls literalEngine
          (lastBackendCalls U32_SIZE)) [] [47] := by
  refine ⟨?_, ?_⟩
  · have hlen : prefixMatchLen (letterPath (U32_SIZE - 2 + 1)) = U32_SIZE - 2 + 2 :=
      prefixMatchLen_letterPath (U32_SIZE - 2)
    have hcount : U32_SIZE - 2 + 1 = U32_SIZE - 1 := by decide
    rw [hcount] at hlen
    have hwrap : prefixMatchLen (letterPath (U32_SIZE - 1)) % U32_SIZE = 0 := by
      rw [hlen]
      decide
    have hlong : 1 < prefixMatchLen (letterPath (U32_SIZE - 1)) := by
      rw [hlen]
      decide
    obtain ⟨t, ht, hanswer⟩ := answers_root hwrap
    refine ⟨t, ht, ?_⟩
    rw [hanswer, reference_long hlong]
    exact Option.some_ne_none _
  · have hwrap : U32_SIZE % U32_SIZE = 0 := by decide
    obtain ⟨t, ht, hanswer⟩ := answers_first hwrap
    refine ⟨t, ht, ?_⟩
    rw [hanswer]
    intro heq
    have hname : ([] : Bytes) = letterName U32_SIZE := reference_last U32_SIZE _ heq.symm
    have hlength : (0 : Nat) = U32_SIZE := by
      rw [← length_letterName U32_SIZE, ← hname, List.length_nil]
    exact absurd hlength (by decide)

end Limits

end Ramjet.Router.RoutingAgreement
