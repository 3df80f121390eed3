/- digest: When the fallback route of a host is outranked by every explicit rule. -/

import Ramjet.Controller.Answers

set_option autoImplicit false
set_option relaxedAutoImplicit false

namespace Ramjet.Controller.Fallbacks

open Ramjet.Base.Octets
open Ramjet.Base.Text
open Ramjet.Base.AssocMap
open Ramjet.Base.FirstHit
open Ramjet.Router.Balancing
open Ramjet.Router.Rule
open Ramjet.Router.Table
open Ramjet.Router.Builder
open Ramjet.Router.Reference
open Ramjet.Router.RoutingAgreement (literalEngine)
open Ramjet.Controller.Objects
open Ramjet.Controller.Annotations
open Ramjet.Controller.Config
open Ramjet.Controller.Warnings
open Ramjet.Controller.Plan
open Ramjet.Controller.Translate
open Ramjet.Controller.Claims
open Ramjet.Controller.Registration
open Ramjet.Controller.Compiled
open Ramjet.Controller.Answers

section Purpose

variable {F : Type} (rx : RegexEngine) (snapshot : ClusterSnapshot) (opts : ControllerOpts)

/-- The key a default backend stands for on a host. -/
def rootKey (host : Option Bytes) : RouteKey := ⟨host, [47], .prefixed⟩

/-- A default backend holds the root of a host: no rule declares it. -/
def FallbackAt (host : Option Bytes) : Prop :=
  ((declared snapshot opts).find? fun d => d.key = rootKey host) = none ∧
    ((fallbacks snapshot opts).find? fun d => d.key = rootKey host).isSome = true

/-- A declared rule that the router accepted matches a path on a virtual host. -/
structure Explicit (slot : HostSlot) (path : Bytes) (d : RoutePlan) : Prop where
  declared : d ∈ declared snapshot opts
  slot : slotOf rx d = some slot
  hit : (ruleOf d).matches rx path = true

/-- A request was answered with the fallback route of its virtual host. -/
def FromFallback (slot : HostSlot) (res : MatchResult) : Prop :=
  FallbackAt snapshot opts (hostOfSlot slot) ∧
    ∃ rule, res.rule = some rule ∧ rule.path = [47] ∧ rule.pathType = .prefixed

/-- Where an explicit rule matches, a request is not answered with the fallback. -/
def Outranked (r : Translation F) (header path : Bytes) : Prop :=
  ∀ slot, selectSlot (slots rx snapshot opts) header = some slot →
    (∃ d, Explicit rx snapshot opts slot path d) →
      ∀ res, r.config.table.matchRequest rx header path = some res →
        ¬ FromFallback snapshot opts slot res

/-- An Exact rule, or a Prefix rule with a nonzero match length. -/
def AboveRoot (d : RoutePlan) : Prop :=
  d.key.pathType = .exact ∨ d.key.pathType = .prefixed ∧ (ruleOf d).matchLen ≠ 0

/-- Where a fallback and an explicit rule match, so does an explicit rule above the root. -/
def Sheltered (header path : Bytes) : Prop :=
  ∀ slot, selectSlot (slots rx snapshot opts) header = some slot →
    (∃ d, Explicit rx snapshot opts slot path d) →
      FallbackAt snapshot opts (hostOfSlot slot) → path = [] ∨ path.head? = some 47 →
        ∃ d, Explicit rx snapshot opts slot path d ∧ AboveRoot d

end Purpose

section Precedence

variable (rx : RegexEngine)

/-- Where a rule for the root stands in the order rules are tried. -/
def rootRank : Nat ×ₗ Natᵒᵈ := toLex (1, OrderDual.toDual 0)

theorem ruleOf_root {plan : RoutePlan} {host : Option Bytes} (h : plan.key = rootKey host) :
    (ruleOf plan).sortKey = rootRank ∧ ∀ path, (ruleOf plan).matches rx path = true ↔
      path = [] ∨ path.head? = some 47 := by
  have hrule : ruleOf plan = ⟨[47], 0, .prefixed, none, 0, 0, none⟩ := by
    rw [ruleOf, h]
    rfl
  rw [hrule]
  refine ⟨rfl, fun path => ?_⟩
  cases path with
  | nil => simp [PathRule.matches, prefixMatches]
  | cons c rest => simp [PathRule.matches, prefixMatches]

theorem aboveRoot_iff (d : RoutePlan) : AboveRoot d ↔ (ruleOf d).sortKey < rootRank := by
  have hrank : (ruleOf d).sortKey =
      toLex (d.key.pathType.rank, OrderDual.toDual (ruleOf d).matchLen) := rfl
  rw [hrank, rootRank, Prod.Lex.toLex_lt_toLex, AboveRoot]
  dsimp only
  rw [OrderDual.toDual_lt_toDual, Nat.pos_iff_ne_zero]
  cases d.key.pathType <;> simp [PathType.rank]

/-- A rule as high as the root is a Prefix rule of no match length. -/
private theorem prefixed_of_rootRank {plan : RoutePlan} (h : (ruleOf plan).sortKey = rootRank) :
    plan.key.pathType = .prefixed := by
  have hrank : (ruleOf plan).sortKey =
      toLex (plan.key.pathType.rank, OrderDual.toDual (ruleOf plan).matchLen) := rfl
  rw [hrank, rootRank, EmbeddingLike.apply_eq_iff_eq, Prod.mk.injEq] at h
  cases hkind : plan.key.pathType with
  | prefixed => rfl
  | exact =>
      rw [hkind] at h
      cases h.1
  | implementationSpecific =>
      rw [hkind] at h
      cases h.1

/-- Among the absolute paths the root comes first. -/
private theorem root_of_textKey_le {path : Bytes} (habsolute : path.head? = some 47)
    (hle : textKey path ≤ textKey [47]) : path = [47] := by
  cases path with
  | nil => cases habsolute
  | cons c rest =>
      obtain rfl : c = 47 := Option.some.inj habsolute
      cases rest with
      | nil => rfl
      | cons c' rest =>
          exfalso
          have hlt : textKey [47] < textKey (47 :: c' :: rest) := by
            show List.Lex (· < ·) _ _
            exact List.Lex.cons List.Lex.nil
          exact absurd hle (not_le.mpr hlt)

end Precedence

section Ordering

variable {F : Type} (fl : Floats F) (rx : RegexEngine) {snapshot : ClusterSnapshot}
  {opts : ControllerOpts} {slot : HostSlot} {path : Bytes}

/-- The key of an explicit rule is held by a plan that answers for it. -/
private theorem held_of_explicit {d : RoutePlan} (h : Explicit rx snapshot opts slot path d) :
    ∃ plan ∈ hits rx snapshot opts slot path, plan.key = d.key := by
  obtain ⟨plan, hplan, hkey⟩ := plan_of_source snapshot opts (Or.inl h.declared)
  refine ⟨plan, (mem_hits rx snapshot opts).mpr ⟨hplan, ?_, ?_⟩, hkey⟩
  · rw [slotOf_congr rx hkey]
    exact h.slot
  · rw [ruleOf_congr hkey]
    exact h.hit

private theorem host_of_explicit {d : RoutePlan} (h : Explicit rx snapshot opts slot path d) :
    hostOfSlot slot = d.key.host :=
  host_of_slotOf rx (normal_of_declared snapshot opts h.declared) h.slot

/-- The fallback of a host some rule is accepted on is accepted too. -/
private theorem hit_of_fallback {d : RoutePlan} (h : Explicit rx snapshot opts slot path d)
    (hfallback : FallbackAt snapshot opts (hostOfSlot slot))
    (hpath : path = [] ∨ path.head? = some 47) :
    ∃ plan ∈ hits rx snapshot opts slot path, plan.key = rootKey (hostOfSlot slot) := by
  obtain ⟨f, hf⟩ := Option.isSome_iff_exists.mp hfallback.2
  have hfkey : f.key = rootKey (hostOfSlot slot) := by simpa using List.find?_some hf
  obtain ⟨plan, hplan, hkey⟩ :=
    plan_of_source snapshot opts (Or.inr (List.mem_of_find?_eq_some hf))
  have hroot : plan.key = rootKey (hostOfSlot slot) := hkey.trans hfkey
  refine ⟨plan, (mem_hits rx snapshot opts).mpr ⟨hplan, ?_, ?_⟩, hroot⟩
  · have hslot := ((slotOf_eq_some_iff rx).mp h.slot).1
    refine (slotOf_eq_some_iff rx).mpr ⟨?_, none, ?_⟩
    · rw [hroot, rootKey, host_of_explicit rx h]
      exact hslot
    · rw [hroot]
      rfl
  · exact ((ruleOf_root rx hroot).2 path).mpr hpath

/-- A plan above the root is no fallback: somebody declares its key. -/
private theorem explicit_of_above {plan : RoutePlan}
    (hplan : plan ∈ hits rx snapshot opts slot path)
    (habove : (ruleOf plan).sortKey < rootRank) :
    Explicit rx snapshot opts slot path (bare plan) := by
  obtain ⟨hmem, hslot, hhit⟩ := (mem_hits rx snapshot opts).mp hplan
  rcases plan_source snapshot opts hmem with hdeclared | ⟨-, hfallback⟩
  · exact ⟨List.mem_of_find?_eq_some hdeclared, hslot, hhit⟩
  · exfalso
    obtain ⟨-, hpath, htype⟩ :=
      normal_of_fallback snapshot opts (List.mem_of_find?_eq_some hfallback)
    have hroot : plan.key = rootKey plan.key.host := by
      have hkey : plan.key = ⟨plan.key.host, plan.key.path, plan.key.pathType⟩ := rfl
      rw [hkey]
      show (⟨plan.key.host, (bare plan).key.path, (bare plan).key.pathType⟩ : RouteKey) = _
      rw [hpath, htype, rootKey]
    rw [(ruleOf_root rx hroot).1] at habove
    exact lt_irrefl _ habove

/-- With nothing explicit above the root, the fallback answers. -/
theorem answering_fallback {header : Bytes}
    (hselect : selectSlot (slots rx snapshot opts) header = some slot) {d : RoutePlan}
    (h : Explicit rx snapshot opts slot path d)
    (hfallback : FallbackAt snapshot opts (hostOfSlot slot))
    (hpath : path = [] ∨ path.head? = some 47)
    (hnone : ∀ e, Explicit rx snapshot opts slot path e → ¬ AboveRoot e) :
    ∃ plan, answering rx snapshot opts header path = some (slot, plan) ∧
      plan.key = rootKey (hostOfSlot slot) := by
  obtain ⟨fallback, hhit, hroot⟩ := hit_of_fallback rx h hfallback hpath
  obtain ⟨plan, hanswer⟩ := answering_of_hit rx snapshot opts hselect hhit
  refine ⟨plan, hanswer, ?_⟩
  obtain ⟨-, hfirst⟩ := answering_spec rx snapshot opts hanswer
  have hplan := mem_of_firstMin _ hfirst
  have hrank := (ruleOf_root rx hroot).1
  have hle : (ruleOf plan).sortKey ≤ rootRank := hrank ▸ le_of_firstMin _ hfirst fallback hhit
  have hsame : (ruleOf plan).sortKey = rootRank := by
    refine le_antisymm hle (not_lt.mp fun hlt => ?_)
    exact hnone _ (explicit_of_above rx hplan hlt) ((aboveRoot_iff (bare plan)).mpr hlt)
  -- Of the rules as high as the root, the fallback was registered first.
  have hkeys := sortKey_le_of_answering rx snapshot opts hanswer hhit (hrank.trans hsame.symm)
  obtain ⟨hmem, hslot, -⟩ := (mem_hits rx snapshot opts).mp hplan
  have hhost : plan.key.host = hostOfSlot slot :=
    (host_of_slotOf rx (normal_of_mem_plans snapshot opts hmem) hslot).symm
  have htype := prefixed_of_rootRank hsame
  have hroots : plan.key.path = [47] := by
    have habsolute := absolute_of_slotOf rx hslot (by rw [htype]; decide)
    have hpaths := RouteKey.path_le_of_sortKey_le (hhost.trans (by rw [hroot, rootKey])) hkeys
    rw [hroot] at hpaths
    exact root_of_textKey_le habsolute hpaths
  have hkey : plan.key = ⟨plan.key.host, plan.key.path, plan.key.pathType⟩ := rfl
  rw [hkey, hhost, hroots, htype, rootKey]

/-- A request is kept from the fallback exactly when an explicit rule above the root matches it
wherever the fallback and some explicit rule both do. -/
theorem fallback_outranked_iff {previous : Option RouteTable} {r : Translation F}
    (h : translate fl rx snapshot opts previous = .ok r) (header path : Bytes) :
    Outranked rx snapshot opts r header path ↔ Sheltered rx snapshot opts header path := by
  have hanswered := matchRequest_translated rx snapshot opts fl h header path
  constructor
  · intro houtranked slot hselect hexplicit hfallback hpath
    by_contra hnone
    push Not at hnone
    obtain ⟨d, hd⟩ := hexplicit
    obtain ⟨plan, hanswer, hroot⟩ := answering_fallback rx hselect hd hfallback hpath hnone
    rw [hanswer] at hanswered
    obtain ⟨res, hres, hby⟩ := hanswered
    obtain ⟨rule, hrule, hrpath, hrtype⟩ := hby.rule
    rw [hroot] at hrpath hrtype
    exact houtranked slot hselect ⟨d, hd⟩ res hres ⟨hfallback, rule, hrule, hrpath, hrtype⟩
  · intro hsheltered slot hselect hexplicit res hres hfrom
    obtain ⟨hfallback, rule, hrule, hrpath, hrtype⟩ := hfrom
    cases hanswer : answering rx snapshot opts header path with
    | none =>
        rw [hanswer] at hanswered
        rw [hanswered res hres] at hrule
        cases hrule
    | some answer =>
        obtain ⟨slot', plan⟩ := answer
        rw [hanswer] at hanswered
        obtain ⟨res', hres', hby⟩ := hanswered
        rw [hres] at hres'
        obtain rfl := Option.some.inj hres'
        obtain ⟨rule', hrule', hpath', htype'⟩ := hby.rule
        rw [hrule] at hrule'
        obtain rfl := Option.some.inj hrule'
        obtain ⟨hselect', hfirst⟩ := answering_spec rx snapshot opts hanswer
        rw [hselect] at hselect'
        obtain rfl := Option.some.inj hselect'
        obtain ⟨-, hslot, hhit⟩ := (mem_hits rx snapshot opts).mp (mem_of_firstMin _ hfirst)
        have hroot : plan.key = rootKey plan.key.host := by
          have hkey : plan.key = ⟨plan.key.host, plan.key.path, plan.key.pathType⟩ := rfl
          rw [hkey, ← hpath', ← htype', hrpath, hrtype, rootKey]
        obtain ⟨hrank, hmatches⟩ := ruleOf_root rx hroot
        obtain ⟨d, hd, habove⟩ :=
          hsheltered slot hselect hexplicit hfallback ((hmatches path).mp hhit)
        obtain ⟨held, hheld, hkey⟩ := held_of_explicit rx hd
        have hle := le_of_firstMin _ hfirst held hheld
        rw [hrank, ruleOf_congr hkey] at hle
        exact absurd ((aboveRoot_iff d).mp habove) (not_lt.mpr hle)

end Ordering

section Samples

/-- A Service port as an Ingress backend. -/
def serviceAt (name : Bytes) (port : Int) : IngressBackend := ⟨some ⟨name, some { number := some port }⟩⟩

/-- One Ingress with a rule of its own and a default backend. -/
def withFallback (path pathType : Bytes) : ClusterSnapshot where
  ingresses := [shopIngress (ascii "shop") 1 []
    [pathTo path pathType (ascii "web") { number := some 80 }] (some (serviceAt (ascii "rest") 80))]

private theorem exists_explicit (rx : RegexEngine) (snapshot : ClusterSnapshot) (slot : HostSlot)
    (path : Bytes) (p : RoutePlan → Bool)
    (h : ((declared snapshot {}).any fun d =>
      slotOf rx d == some slot && (ruleOf d).matches rx path && p d) = true) :
    ∃ d, Explicit rx snapshot {} slot path d ∧ p d = true := by
  obtain ⟨d, hd, hall⟩ := List.any_eq_true.mp h
  simp only [Bool.and_eq_true, beq_iff_eq] at hall
  exact ⟨d, ⟨hd, hall.1.1, hall.1.2⟩, hall.2⟩

theorem fallback_outranked_prefixed :
    ∃ r, translate noFloats literalEngine (withFallback (ascii "/foo/") (ascii "Prefix")) {} none =
      .ok r ∧ Outranked literalEngine (withFallback (ascii "/foo/") (ascii "Prefix")) {} r
        (ascii "Shop.Test:80") (ascii "/foo/bar") := by
  obtain ⟨r, h⟩ := (translate_ok_iff noFloats literalEngine
    (withFallback (ascii "/foo/") (ascii "Prefix")) {} none).mpr (by decide +kernel)
  refine ⟨r, h, (fallback_outranked_iff noFloats literalEngine h _ _).mpr ?_⟩
  intro slot hselect _ _ _
  have hslot : selectSlot (slots literalEngine (withFallback (ascii "/foo/") (ascii "Prefix")) {})
      (ascii "Shop.Test:80") = some (.exact (ascii "shop.test")) := by decide +kernel
  rw [hslot] at hselect
  obtain rfl := Option.some.inj hselect
  obtain ⟨d, hd, habove⟩ := exists_explicit literalEngine
    (withFallback (ascii "/foo/") (ascii "Prefix")) (.exact (ascii "shop.test")) (ascii "/foo/bar")
    (fun d => d.key.pathType == .prefixed && (ruleOf d).matchLen != 0) (by decide +kernel)
  simp only [Bool.and_eq_true, beq_iff_eq, bne_iff_ne] at habove
  exact ⟨d, hd, Or.inr habove⟩

/-- An engine that knows one expression. -/
def apiEngine : RegexEngine where
  compiles _ := true
  isMatch re path := re == pathRegex (ascii "/api/.*") && (ascii "/api/").isPrefixOf path

/-- A regular expression that matches is passed over for the fallback. -/
theorem fallback_shadows_pattern :
    ∃ r, translate noFloats apiEngine (withFallback (ascii "/api/.*")
        (ascii "ImplementationSpecific")) {} none = .ok r ∧
      ¬ Outranked apiEngine (withFallback (ascii "/api/.*") (ascii "ImplementationSpecific")) {} r
        (ascii "shop.test") (ascii "/api/v1") := by
  have hanswer : (translate noFloats apiEngine (withFallback (ascii "/api/.*")
      (ascii "ImplementationSpecific")) {} none).toOption.bind (fun r =>
        (r.config.table.matchRequest apiEngine (ascii "shop.test") (ascii "/api/v1")).bind fun res =>
          res.rule.map fun rule => (rule.path, rule.pathType)) = some ([47], .prefixed) := by
    decide +kernel
  obtain ⟨r, hr, hanswer⟩ := Option.bind_eq_some_iff.mp hanswer
  obtain ⟨res, hres, hanswer⟩ := Option.bind_eq_some_iff.mp hanswer
  obtain ⟨rule, hrule, hanswer⟩ := Option.map_eq_some_iff.mp hanswer
  simp only [Prod.mk.injEq] at hanswer
  have hok : translate noFloats apiEngine (withFallback (ascii "/api/.*")
      (ascii "ImplementationSpecific")) {} none = .ok r := by
    cases htranslated : translate noFloats apiEngine (withFallback (ascii "/api/.*")
        (ascii "ImplementationSpecific")) {} none with
    | ok r' =>
        rw [htranslated] at hr
        rw [Option.some.inj hr]
    | error err =>
        rw [htranslated] at hr
        cases hr
  refine ⟨r, hok, fun houtranked => ?_⟩
  have hselect : selectSlot (slots apiEngine (withFallback (ascii "/api/.*")
      (ascii "ImplementationSpecific")) {}) (ascii "shop.test") =
        some (.exact (ascii "shop.test")) := by decide +kernel
  have hfallback : FallbackAt (withFallback (ascii "/api/.*") (ascii "ImplementationSpecific")) {}
      (hostOfSlot (.exact (ascii "shop.test"))) := by
    unfold FallbackAt
    decide +kernel
  obtain ⟨d, hd, -⟩ := exists_explicit apiEngine
    (withFallback (ascii "/api/.*") (ascii "ImplementationSpecific")) (.exact (ascii "shop.test"))
    (ascii "/api/v1") (fun _ => true) (by decide +kernel)
  exact houtranked _ hselect ⟨d, hd⟩ res hres ⟨hfallback, rule, hrule, hanswer.1, hanswer.2⟩

end Samples

end Ramjet.Controller.Fallbacks
