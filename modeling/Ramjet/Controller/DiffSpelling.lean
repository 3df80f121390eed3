/- digest: Prefix rules respelled with trailing slashes route alike, yet the diff reports them. -/

import Ramjet.Controller.DiffLaws
import Ramjet.Controller.ServedCertificates

set_option autoImplicit false
set_option relaxedAutoImplicit false

namespace Ramjet.Controller.DiffSpelling

open Ramjet.Base.Octets
open Ramjet.Base.FirstHit
open Ramjet.Base.Text
open Ramjet.Base
open Ramjet.Router.Balancing
open Ramjet.Router.Rule
open Ramjet.Router.Table
open Ramjet.Router.Builder
open Ramjet.Router.Reference
open Ramjet.Router.BuiltTable
open Ramjet.Router.RoutingAgreement
open Ramjet.Router.ServedRules
open Ramjet.Controller.Totality (sniAt)
open Ramjet.Controller.ServedCertificates
open Ramjet.Controller.Diff
open Ramjet.Controller.DiffLaws

section Likeness

/-- Two rules that differ at most in trailing slashes of a Prefix path, and in where they are
counted. -/
structure Alike (rule rule' : PathRule) : Prop where
  pathType : rule.pathType = rule'.pathType
  matchLen : rule.matchLen = rule'.matchLen
  regex : rule.regex = rule'.regex
  backend : rule.backend = rule'.backend
  extras : rule.extras = rule'.extras
  path : rule.path = rule'.path ∨
    rule.pathType = .prefixed ∧ trimSlashes rule.path = trimSlashes rule'.path

/-- Two tables that differ only in how their Prefix rules are spelled. -/
structure Respelled (a b : RouteTable) : Prop where
  hosts : ∀ slot, Option.Rel (fun v w => List.Forall₂ Alike v.routes w.routes)
    (vhostAt a slot) (vhostAt b slot)
  backends : a.backends = b.backends
  fallback : a.defaultBackend = b.defaultBackend
  certs : ∀ slot, sniAt a.tls slot = sniAt b.tls slot

/-- Two answers alike: one backend, found at one kind of host, by rules alike. -/
structure AnsweredAlike (m m' : MatchResult) : Prop where
  backend : m.backend = m'.backend
  rule : Option.Rel Alike m.rule m'.rule
  hostMatch : m.hostMatch = m'.hostMatch

/-- Only a Prefix rule is spelled in two ways. -/
theorem Alike.path_eq {rule rule' : PathRule} (h : Alike rule rule')
    (hne : rule.pathType ≠ .prefixed) : rule.path = rule'.path := by
  rcases h.path with hpath | ⟨htype, -⟩
  · exact hpath
  · exact absurd htype hne

end Likeness

section Routing

theorem take_trimSlashes {path : Bytes} {n : Nat} (hn : n ≤ (trimSlashes path).length) :
    path.take n = (trimSlashes path).take n ∧ n ≤ path.length := by
  obtain ⟨slashes, hslashes⟩ : trimSlashes path <+: path := List.rdropWhile_prefix _ path
  have hlen : (trimSlashes path).length ≤ path.length :=
    (List.rdropWhile_prefix _ path : trimSlashes path <+: path).length_le
  refine ⟨?_, hn.trans hlen⟩
  conv_lhs => rw [← hslashes]
  exact List.take_append_of_le_length hn

/-- Rules alike match the same paths. -/
theorem Alike.matches_eq (rx : RegexEngine) {rule rule' : PathRule} (h : Alike rule rule')
    (hlen : rule.pathType = .prefixed → rule.matchLen ≤ (trimSlashes rule.path).length)
    (path : Bytes) : rule.matches rx path = rule'.matches rx path := by
  unfold PathRule.matches
  rw [← h.pathType, ← h.matchLen, ← h.regex]
  cases htype : rule.pathType with
  | exact =>
      have hpath := h.path_eq (by rw [htype]; decide)
      rw [hpath]
  | implementationSpecific => rfl
  | prefixed =>
      rcases h.path with hpath | ⟨-, htrim⟩
      · rw [hpath]
      · have hn := hlen htype
        obtain ⟨htake, hle⟩ := take_trimSlashes hn
        obtain ⟨htake', hle'⟩ := take_trimSlashes (htrim ▸ hn)
        dsimp only
        unfold prefixMatches
        rw [htake, htake', htrim]
        simp only [hle, hle', decide_true]

variable {rx : RegexEngine} {a b : RouteTable}

theorem isSome_of_rel {α β : Type} {R : α → β → Prop} {x : Option α} {y : Option β}
    (h : Option.Rel R x y) : x.isSome = y.isSome := by
  cases h <;> rfl

theorem Respelled.served (h : Respelled a b) (slot : HostSlot) :
    (vhostAt a slot).isSome = (vhostAt b slot).isSome := isSome_of_rel (h.hosts slot)

theorem Respelled.defaultResult (h : Respelled a b) :
    Option.Rel AnsweredAlike a.defaultResult b.defaultResult := by
  unfold RouteTable.defaultResult
  rw [h.fallback, h.backends]
  cases b.defaultBackend with
  | none => exact Option.Rel.none
  | some id =>
      cases hbackend : b.backends[id]? with
      | none => simp [hbackend]
      | some backend => simpa [hbackend] using Option.Rel.some ⟨rfl, Option.Rel.none, rfl⟩

theorem Respelled.hit (h : Respelled a b) {rule rule' : PathRule} (hrule : Alike rule rule')
    (hostMatch : HostMatch) :
    Option.Rel AnsweredAlike (a.hit rule hostMatch) (b.hit rule' hostMatch) := by
  unfold RouteTable.hit
  rw [h.backends, hrule.backend]
  cases b.backends[rule'.backend]? with
  | none => exact Option.Rel.none
  | some backend => exact Option.Rel.some ⟨rfl, Option.Rel.some hrule, rfl⟩

/-- Tables that differ only in the spelling of Prefix paths route every request alike. -/
theorem Respelled.routed (h : Respelled a b) (ha : Built rx a) (host path : Bytes) :
    Option.Rel AnsweredAlike (a.matchRequest rx host path) (b.matchRequest rx host path) := by
  have hslot : servedSlot a host = servedSlot b host := slotAt_congr h.served host
  rw [matchRequest_eq, matchRequest_eq, selected_servedSlot, selected_servedSlot, hslot]
  cases servedSlot b host with
  | none => exact h.defaultResult
  | some slot =>
      have hrules := h.hosts slot
      dsimp only [Option.bind_some]
      cases hv : vhostAt a slot with
      | none =>
          rw [hv] at hrules
          generalize vhostAt b slot = served at hrules
          cases hrules
          exact h.defaultResult
      | some v =>
          rw [hv] at hrules
          generalize vhostAt b slot = served at hrules
          cases hrules with
          | @some _ w hvw =>
              have hfound := find?_forall₂ hvw fun rule hrule rule' halike =>
                halike.matches_eq rx (ha.matchLen_le hv hrule) path
              dsimp only [Option.map_some]
              unfold VirtualHost.matchPath
              generalize v.routes.find? _ = found at hfound
              generalize w.routes.find? _ = found' at hfound
              cases hfound with
              | none => exact h.defaultResult
              | some halike => exact h.hit halike _

end Routing

section Reporting

variable {rx : RegexEngine} {a b : RouteTable}

/-- Each Prefix path, as it is spelled, is routed to one place by both tables. -/
def SpeltAlike (a b : RouteTable) : Prop :=
  ∀ slot path, (ruleAt a slot path .prefixed).map (routeTarget a) =
    (ruleAt b slot path .prefixed).map (routeTarget b)

theorem routeTarget_alike (hbackends : a.backends = b.backends) {rule rule' : PathRule}
    (h : Alike rule rule') : routeTarget a rule = routeTarget b rule' := by
  have hmirror : rule.mirror = rule'.mirror := by rw [PathRule.mirror, h.extras, PathRule.mirror]
  unfold routeTarget mirrorFacts
  rw [hbackends, h.backend, hmirror]

/-- A rule that is not a Prefix keeps its place when Prefix paths are respelled. -/
theorem Respelled.ruleAt_unspelled (h : Respelled a b) (slot : HostSlot) (path : Bytes)
    {pathType : PathType} (hne : pathType ≠ .prefixed) :
    Option.Rel Alike (ruleAt a slot path pathType) (ruleAt b slot path pathType) := by
  have hrules := h.hosts slot
  cases hv : vhostAt a slot with
  | none =>
      rw [hv] at hrules
      have hw : vhostAt b slot = none := by
        rw [← Option.isNone_iff_eq_none, ← Option.not_isSome, ← isSome_of_rel hrules]
        rfl
      rw [ruleAt, ruleAt, hv, hw]
      exact Option.Rel.none
  | some v =>
      obtain ⟨w, hw, hvw⟩ : ∃ w, vhostAt b slot = some w ∧
          List.Forall₂ Alike v.routes w.routes := by
        rw [hv] at hrules
        generalize vhostAt b slot = served at hrules
        cases hrules with
        | @some _ w hvw => exact ⟨w, rfl, hvw⟩
      rw [ruleAt, ruleAt, hv, hw]
      apply find?_forall₂ hvw
      intro rule _ rule' halike
      rw [← halike.pathType]
      by_cases htype : rule.pathType = pathType
      · rw [halike.path_eq (by rw [htype]; exact hne)]
      · simp only [htype, and_false]

/-- Respelled tables route alike, and the diff between them is empty just where every Prefix
path is spelled as it was. -/
theorem respelled_reported (ha : Built rx a) (hb : Built rx b) (h : Respelled a b) :
    (∀ host path, Option.Rel AnsweredAlike (a.matchRequest rx host path)
      (b.matchRequest rx host path)) ∧
      ((ConfigDiff.compute (some a) b).isEmpty = true ↔ SpeltAlike a b) := by
  refine ⟨h.routed ha, ?_⟩
  rw [isEmpty_iff_agreeOn ha hb]
  constructor
  · intro hagree slot path
    exact hagree.routes (slot, path, .prefixed)
  · intro hspelt
    have hfallback : defaultBackendName a = defaultBackendName b := by
      rw [defaultBackendName, h.fallback, h.backends, defaultBackendName]
    refine ⟨?_, h.served, h.certs, hfallback⟩
    rintro ⟨slot, path, pathType⟩
    by_cases htype : pathType = .prefixed
    · subst htype
      exact hspelt slot path
    · have hrel := h.ruleAt_unspelled slot path htype
      rw [Place.rule, Place.rule]
      generalize ruleAt a slot path pathType = found at hrel
      generalize ruleAt b slot path pathType = found' at hrel
      cases hrel with
      | none => rfl
      | some halike => exact congrArg some (routeTarget_alike h.backends halike)

/-- A table of one Prefix rule. -/
def sited (path : Bytes) : Except BuildError RouteTable :=
  (({} : RouteTableBuilder).calls literalEngine
    [.backendWith (ascii "web") [] {},
      .routeWith (some (ascii "a.example.com")) path .prefixed (ascii "web") {}]).build

/-- The rule such a table serves. -/
def sitedRule (path : Bytes) : PathRule := ⟨path, 4, .prefixed, none, 0, 0, none⟩

theorem sited_ok {path : Bytes} {t : RouteTable} (h : sited path = .ok t) :
    Built literalEngine t := ⟨{}, _, .fresh, h⟩

/-- The table those calls build. -/
def sitedTable (path : Bytes) : RouteTable :=
  { hosts := [(ascii "a.example.com", ⟨[sitedRule path]⟩)]
    backends := builtBackends [⟨ascii "web", {}, []⟩]
    statsSpecs := [(ascii "web", [])]
    identities := [⟨ascii "a.example.com", path, .prefixed, ascii "web"⟩] }

theorem sited_foo : sited (ascii "/foo") = .ok (sitedTable (ascii "/foo")) := by decide +kernel

theorem sited_slash : sited (ascii "/foo/") = .ok (sitedTable (ascii "/foo/")) := by decide +kernel

/-- One Prefix path, spelled without its trailing slash and with it. -/
theorem sitedTable_respelled :
    Respelled (sitedTable (ascii "/foo")) (sitedTable (ascii "/foo/")) := by
  refine ⟨?_, rfl, rfl, fun _ => rfl⟩
  intro slot
  cases slot with
  | exact name =>
      by_cases hname : ascii "a.example.com" = name
      · have htrim : trimSlashes (ascii "/foo") = trimSlashes (ascii "/foo/") := by decide
        have halike : Alike (sitedRule (ascii "/foo")) (sitedRule (ascii "/foo/")) :=
          ⟨rfl, rfl, rfl, rfl, rfl, .inr ⟨rfl, htrim⟩⟩
        simpa [vhostAt, sitedTable, AssocMap.get, hname] using halike
      · simp [vhostAt, sitedTable, AssocMap.get, hname]
  | wildcard parent => exact Option.Rel.none
  | catchAll => exact Option.Rel.none

theorem respelled_reported_slash :
    (ConfigDiff.compute (some (sitedTable (ascii "/foo")))
        (sitedTable (ascii "/foo/"))).isEmpty = true ↔
      SpeltAlike (sitedTable (ascii "/foo")) (sitedTable (ascii "/foo/")) :=
  (respelled_reported (sited_ok sited_foo) (sited_ok sited_slash) sitedTable_respelled).2

/-- A Prefix edited from /foo to /foo/ is reported as a route removed and a route added. -/
theorem slash_reported :
    sited (ascii "/foo") = .ok (sitedTable (ascii "/foo")) ∧
      sited (ascii "/foo/") = .ok (sitedTable (ascii "/foo/")) ∧
        Respelled (sitedTable (ascii "/foo")) (sitedTable (ascii "/foo/")) ∧
          ConfigDiff.compute (some (sitedTable (ascii "/foo"))) (sitedTable (ascii "/foo/")) =
            { «from» := some 0
              routesRemoved := [ascii "a.example.com /foo -> web"]
              routesAdded := [ascii "a.example.com /foo/ -> web"] } := by
  refine ⟨sited_foo, sited_slash, sitedTable_respelled, ?_⟩
  decide +kernel

end Reporting

end Ramjet.Controller.DiffSpelling
