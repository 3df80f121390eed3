/- digest: When rules that match the same paths are served by the oldest Ingress declaring one. -/

import Mathlib.Algebra.Order.BigOperators.Group.List
import Mathlib.Algebra.Order.Group.Nat
import Ramjet.Controller.Fallbacks
import Ramjet.Router.PathOrder

set_option autoImplicit false
set_option relaxedAutoImplicit false

namespace Ramjet.Controller.Arbitration

open Ramjet.Base.Octets
open Ramjet.Base.Text
open Ramjet.Base.AssocMap
open Ramjet.Base.FirstHit
open Ramjet.Base.Segments
open Ramjet.Router.Balancing
open Ramjet.Router.Rule
open Ramjet.Router.Table
open Ramjet.Router.Builder
open Ramjet.Router.Reference
open Ramjet.Router.PathOrder
open Ramjet.Router.RoutingAgreement (literalEngine)
open Ramjet.Controller.Objects
open Ramjet.Controller.Annotations
open Ramjet.Controller.Config
open Ramjet.Controller.Warnings
open Ramjet.Controller.Plan
open Ramjet.Controller.Translate
open Ramjet.Controller.Claims
open Ramjet.Controller.Registration
open Ramjet.Controller.Compiled
open Ramjet.Controller.Answers
open Ramjet.Controller.Fallbacks

section Purpose

variable {F : Type} (rx : RegexEngine) (snapshot : ClusterSnapshot) (opts : ControllerOpts)

/-- Two rules of one host that match the same paths, whatever their spelling. -/
def SameRule (d e : RoutePlan) : Prop :=
  d.key.host = e.key.host ∧ d.key.pathType = e.key.pathType ∧
    (d.key.pathType = .exact ∧ d.key.path = e.key.path ∨
      d.key.pathType = .prefixed ∧ ruleSegments d.key.path = ruleSegments e.key.path)

instance (d e : RoutePlan) : Decidable (SameRule d e) := by
  unfold SameRule
  infer_instance

/-- The accepted rules that match the paths of one, oldest Ingress first. -/
def rivals (d : RoutePlan) : List RoutePlan :=
  (declared snapshot opts).filter fun e => (slotOf rx e).isSome = true ∧ SameRule d e

/-- A rule matches a path as it was declared: exactly, or by its leading segments. -/
def Covers (path : Bytes) (e : RoutePlan) : Prop :=
  e.key.pathType = .exact ∧ e.key.path = path ∨
    e.key.pathType = .prefixed ∧ ruleSegments e.key.path <+: path.splitOn 47

/-- Exact before Prefix, and more segments before fewer. -/
def MoreSpecific (e d : RoutePlan) : Prop :=
  e.key.pathType = .exact ∧ d.key.pathType = .prefixed ∨
    e.key.pathType = .prefixed ∧ d.key.pathType = .prefixed ∧
      (ruleSegments d.key.path).length < (ruleSegments e.key.path).length

/-- No accepted rule of the host that is more specific matches the path. -/
def Unclaimed (path : Bytes) (d : RoutePlan) : Prop :=
  ∀ e ∈ declared snapshot opts, (slotOf rx e).isSome = true → e.key.host = d.key.host →
    Covers path e → ¬ MoreSpecific e d

/-- An Ingress is the oldest of those that declare a rule for the paths of one. -/
structure Oldest (d : RoutePlan) (ingress : Ingress) : Prop where
  mem : ingress ∈ production snapshot opts
  declares : ∃ e ∈ declaredBy ingress, e ∈ rivals rx snapshot opts d
  first : ∀ other ∈ production snapshot opts, (∃ e ∈ declaredBy other, e ∈ rivals rx snapshot opts d) →
    ageKey ingress ≤ ageKey other

/-- The paths of a rule go to one Ingress, and every other one declaring it is told so. -/
structure Arbitrates (r : Translation F) (d : RoutePlan) (ingress : Ingress) : Prop where
  served : ∀ header path slot, slotOf rx d = some slot →
    selectSlot (slots rx snapshot opts) header = some slot → Covers path d →
      Unclaimed rx snapshot opts path d →
        ∃ e ∈ rivals rx snapshot opts d, e.owner = .of ingress.metadata ∧
          (r.config.table.matchRequest rx header path).map (·.backend.name) =
            some e.backend.backendName
  reported : ∀ e ∈ rivals rx snapshot opts d, e.owner ≠ .of ingress.metadata →
    ∃ holder, holder ≠ e.owner ∧ ⟨e.owner, .alreadyServed e.key holder⟩ ∈ r.warnings

/-- Every spelling of a rule was first declared by one Ingress. -/
def Undivided (d : RoutePlan) (ingress : Ingress) : Prop :=
  ∀ e ∈ rivals rx snapshot opts d, ∀ f,
    ((declared snapshot opts).find? fun c => c.key = e.key) = some f →
      f.owner = .of ingress.metadata

/-- A fallback that comes before other spellings of the root leads where they lead. -/
def Unshadowed (d : RoutePlan) (ingress : Ingress) : Prop :=
  ∀ slot f, slotOf rx d = some slot → d.key.pathType = .prefixed → trimSlashes d.key.path = [] →
    (∃ header, selectSlot (slots rx snapshot opts) header = some slot) →
      ((declared snapshot opts).find? fun c => c.key = rootKey d.key.host) = none →
        ((fallbacks snapshot opts).find? fun c => c.key = rootKey d.key.host) = some f →
          ∃ e ∈ rivals rx snapshot opts d, e.owner = .of ingress.metadata ∧
            e.backend.backendName = f.backend.backendName

/-- What 32-bit lengths and indices can hold of a translated table. -/
structure Small : Prop where
  backends : (backendNames snapshot opts).length ≤ U32_SIZE
  paths : ∀ plan ∈ plans snapshot opts, plan.key.pathType = .prefixed →
    prefixMatchLen plan.key.path < U32_SIZE

end Purpose

section Age

variable (rx : RegexEngine) (snapshot : ClusterSnapshot) (opts : ControllerOpts)

theorem mem_rivals {d e : RoutePlan} : e ∈ rivals rx snapshot opts d ↔
    e ∈ declared snapshot opts ∧ (slotOf rx e).isSome = true ∧ SameRule d e := by
  rw [rivals, List.mem_filter, decide_eq_true_iff]

/-- Some Ingress is the oldest to declare an accepted rule. -/
theorem exists_oldest {d e : RoutePlan} (he : e ∈ rivals rx snapshot opts d) :
    ∃ ingress, Oldest rx snapshot opts d ingress := by
  let declares : Ingress → Bool := fun ingress =>
    (declaredBy ingress).any fun e => (rivals rx snapshot opts d).contains e
  have hdeclares : ∀ ingress, declares ingress = true ↔
      ∃ e ∈ declaredBy ingress, e ∈ rivals rx snapshot opts d := by
    intro ingress
    simp [declares]
  obtain ⟨ingress, hmem, heby⟩ := List.mem_flatMap.mp ((mem_rivals rx snapshot opts).mp he).1
  have hsome : firstMin ageKey ((production snapshot opts).filter declares) ≠ none := by
    rw [ne_eq, firstMin_eq_none_iff, List.filter_eq_nil_iff]
    exact fun h => h ingress hmem ((hdeclares ingress).mpr ⟨e, heby, he⟩)
  obtain ⟨oldest, holdest⟩ := Option.ne_none_iff_exists'.mp hsome
  obtain ⟨hproduced, hdeclared⟩ := List.mem_filter.mp (mem_of_firstMin _ holdest)
  refine ⟨oldest, hproduced, (hdeclares oldest).mp hdeclared, fun other hother hby => ?_⟩
  exact le_of_firstMin _ holdest other
    (List.mem_filter.mpr ⟨hother, (hdeclares other).mpr hby⟩)

end Age

section Reporting

variable {F : Type} (fl : Floats F) {rx : RegexEngine} {snapshot : ClusterSnapshot}
  {opts : ControllerOpts} {previous : Option RouteTable} {r : Translation F} {d : RoutePlan}

private theorem sameRule_of_key {e f : RoutePlan} (h : SameRule d e) (hkey : f.key = e.key) :
    SameRule d f := by
  unfold SameRule at *
  rw [hkey]
  exact h

/-- The first rule declared on a spelling is as accepted as any other. -/
private theorem first_mem_rivals {e f : RoutePlan} (he : e ∈ rivals rx snapshot opts d)
    (hf : ((declared snapshot opts).find? fun c => c.key = e.key) = some f) :
    f ∈ rivals rx snapshot opts d ∧ f.key = e.key := by
  have hkey : f.key = e.key := by simpa using List.find?_some hf
  obtain ⟨-, hslot, hsame⟩ := (mem_rivals rx snapshot opts).mp he
  refine ⟨(mem_rivals rx snapshot opts).mpr ⟨List.mem_of_find?_eq_some hf, ?_, ?_⟩, hkey⟩
  · rw [slotOf_congr rx hkey]
    exact hslot
  · exact sameRule_of_key hsame hkey

/-- Which conflicts a translation reports. -/
private theorem conflict_iff (h : translate fl rx snapshot opts previous = .ok r)
    (owner holder : ObjectKey) (key : RouteKey) :
    ⟨owner, .alreadyServed key holder⟩ ∈ r.warnings ↔
      ∃ pre d post held, declared snapshot opts = pre ++ d :: post ∧ d.owner = owner ∧
        d.key = key ∧ (pre.find? fun e => e.key = key) = some held ∧ held.owner = holder := by
  have hconflict : (⟨owner, .alreadyServed key holder⟩ : Warning) ∈ r.warnings ↔
      ⟨owner, .alreadyServed key holder⟩ ∈ conflicts r.warnings := by
    simp [conflicts, isConflict]
  rw [hconflict, translate_conflicts fl rx snapshot opts previous h, planned_conflicts,
    mem_claimStep_warnings]
  simp only [List.not_mem_nil, false_or, get_nil, Option.none_or]
  constructor
  · rintro ⟨pre, d, post, held, hsplit, hheld, heq⟩
    simp only [Warning.mk.injEq, Detail.alreadyServed.injEq] at heq
    obtain ⟨rfl, rfl, rfl⟩ := heq
    exact ⟨pre, d, post, held, hsplit, rfl, rfl, hheld, rfl⟩
  · rintro ⟨pre, d, post, held, hsplit, rfl, rfl, hheld, rfl⟩
    exact ⟨pre, d, post, held, hsplit, hheld, rfl⟩

/-- Everyone else is told exactly when one Ingress was first on every spelling. -/
theorem reported_iff (h : translate fl rx snapshot opts previous = .ok r) (ingress : Ingress) :
    (∀ e ∈ rivals rx snapshot opts d, e.owner ≠ .of ingress.metadata →
      ∃ holder, holder ≠ e.owner ∧ ⟨e.owner, .alreadyServed e.key holder⟩ ∈ r.warnings) ↔
      Undivided rx snapshot opts d ingress := by
  constructor
  · intro hreported e he f hf
    obtain ⟨hrival, hkey⟩ := first_mem_rivals he hf
    by_contra howner
    obtain ⟨holder, hne, hwarned⟩ := hreported f hrival howner
    obtain ⟨pre, c, post, held, hsplit, -, -, hheld, rfl⟩ :=
      (conflict_iff fl h f.owner holder f.key).mp hwarned
    -- The holder named in the conflict is the first rule of that spelling: `f` itself.
    rw [hsplit, List.find?_append, ← hkey, hheld, Option.some_or] at hf
    exact hne (congrArg RoutePlan.owner (Option.some.inj hf))
  · intro hundivided e he howner
    obtain ⟨hmem, -, -⟩ := (mem_rivals rx snapshot opts).mp he
    obtain ⟨pre, post, hsplit⟩ := List.append_of_mem hmem
    cases hpre : pre.find? fun c => decide (c.key = e.key) with
    | none =>
        have hfirst : ((declared snapshot opts).find? fun c => decide (c.key = e.key)) = some e := by
          rw [hsplit, List.find?_append, hpre, Option.none_or, List.find?_cons_of_pos (by simp)]
        exact absurd (hundivided e he e hfirst) howner
    | some held =>
        have hfirst : ((declared snapshot opts).find? fun c => decide (c.key = e.key)) =
            some held := by
          rw [hsplit, List.find?_append, hpre, Option.some_or]
        have hheld := hundivided e he held hfirst
        refine ⟨held.owner, fun heq => howner (heq ▸ hheld), ?_⟩
        exact (conflict_iff fl h e.owner held.owner e.key).mpr
          ⟨pre, e, post, held, hsplit, rfl, rfl, hpre, rfl⟩

end Reporting

section Serving

variable {F : Type} (fl : Floats F) {rx : RegexEngine} {snapshot : ClusterSnapshot}
  {opts : ControllerOpts} {previous : Option RouteTable} {r : Translation F} {d : RoutePlan}
  {slot : HostSlot} {header path : Bytes}

private theorem sortKey_eq (plan : RoutePlan) : (ruleOf plan).sortKey =
    toLex (plan.key.pathType.rank, OrderDual.toDual (ruleOf plan).matchLen) := rfl

/-- A rule whose length fits is compared as it was declared. -/
private theorem matches_iff_covers {e : RoutePlan} (htype : e.key.pathType ≠ .implementationSpecific)
    (hshort : e.key.pathType = .prefixed → prefixMatchLen e.key.path < U32_SIZE) :
    (ruleOf e).matches rx path = true ↔ Covers path e := by
  unfold ruleOf PathRule.new PathRule.matches Covers
  cases hkind : e.key.pathType with
  | implementationSpecific => exact absurd hkind htype
  | exact =>
      simp only [reduceCtorEq, false_and, or_false, true_and, beq_iff_eq]
      exact eq_comm
  | prefixed =>
      have hlen : prefixMatchLen e.key.path % U32_SIZE = prefixMatchLen e.key.path :=
        Nat.mod_eq_of_lt (hshort hkind)
      simp only [hlen, prefixMatches_iff, reduceCtorEq, false_and, true_and, false_or]

private theorem matchLen_eq {e : RoutePlan} (htype : e.key.pathType = .prefixed)
    (hshort : prefixMatchLen e.key.path < U32_SIZE) :
    (ruleOf e).matchLen = (trimSlashes e.key.path).length := by
  have hlen : (ruleOf e).matchLen = prefixMatchLen e.key.path % U32_SIZE := by
    rw [ruleOf, htype]
    rfl
  rw [hlen, Nat.mod_eq_of_lt hshort, prefixMatchLen]

private theorem type_of_covers {e : RoutePlan} (h : Covers path e) :
    e.key.pathType ≠ .implementationSpecific := by
  rcases h with ⟨htype, -⟩ | ⟨htype, -⟩ <;> (rw [htype]; decide)

/-- Of two rules that match a path, one tried no later than the other matches the same paths
or is more specific. -/
private theorem sameRule_of_sortKey_le {e : RoutePlan} (hhost : e.key.host = d.key.host)
    (hd : Covers path d) (he : (ruleOf e).matches rx path = true)
    (hdshort : d.key.pathType = .prefixed → prefixMatchLen d.key.path < U32_SIZE)
    (heshort : e.key.pathType = .prefixed → prefixMatchLen e.key.path < U32_SIZE)
    (hle : (ruleOf e).sortKey ≤ (ruleOf d).sortKey) :
    Covers path e ∧ (SameRule d e ∨ MoreSpecific e d) := by
  have hrank : e.key.pathType.rank ≤ d.key.pathType.rank := by
    rw [sortKey_eq, sortKey_eq, Prod.Lex.toLex_le_toLex] at hle
    rcases hle with hlt | ⟨heq, -⟩
    · exact hlt.le
    · exact heq.le
  have htype : e.key.pathType ≠ .implementationSpecific := by
    intro hkind
    rw [hkind] at hrank
    rcases hd with ⟨hdtype, -⟩ | ⟨hdtype, -⟩ <;>
      (rw [hdtype] at hrank; exact absurd hrank (by decide))
  have hcovers : Covers path e := (matches_iff_covers htype heshort).mp he
  refine ⟨hcovers, ?_⟩
  rcases hd with ⟨hdtype, hdpath⟩ | ⟨hdtype, hdsegments⟩
  · rcases hcovers with ⟨hetype, hepath⟩ | ⟨hetype, -⟩
    · exact Or.inl ⟨hhost.symm, by rw [hdtype, hetype], Or.inl ⟨hdtype, by rw [hdpath, hepath]⟩⟩
    · rw [hdtype, hetype] at hrank
      exact absurd hrank (by decide)
  · rcases hcovers with ⟨hetype, -⟩ | ⟨hetype, hesegments⟩
    · exact Or.inr (Or.inl ⟨hetype, hdtype⟩)
    · have hlen : (trimSlashes d.key.path).length ≤ (trimSlashes e.key.path).length := by
        rw [sortKey_eq, sortKey_eq, hdtype, hetype, Prod.Lex.toLex_le_toLex,
          matchLen_eq hdtype (hdshort hdtype), matchLen_eq hetype (heshort hetype)] at hle
        simpa using hle
      rcases hlen.eq_or_lt with heq | hlt
      · have htrimmed := eq_of_length_eq hdsegments hesegments heq
        exact Or.inl ⟨hhost.symm, by rw [hdtype, hetype], Or.inr ⟨hdtype, by
          rw [ruleSegments, ruleSegments, htrimmed]⟩⟩
      · exact Or.inr (Or.inr ⟨hetype, hdtype,
          (length_lt_iff_segments_lt hdsegments hesegments).mp hlt⟩)

/-- What answers for a rule no more specific one is in the way of. -/
private theorem answering_rival (hsmall : Small snapshot opts) (hd : d ∈ declared snapshot opts)
    (hslot : slotOf rx d = some slot)
    (hselect : selectSlot (slots rx snapshot opts) header = some slot) (hcovers : Covers path d)
    (hunclaimed : Unclaimed rx snapshot opts path d) :
    ∃ plan, answering rx snapshot opts header path = some (slot, plan) ∧
      plan ∈ plans snapshot opts ∧ slotOf rx plan = some slot ∧ SameRule d plan := by
  obtain ⟨held, hheld, hkey⟩ := plan_of_source snapshot opts (Or.inl hd)
  have hdshort : d.key.pathType = .prefixed → prefixMatchLen d.key.path < U32_SIZE := by
    rw [← hkey]
    exact hsmall.paths held hheld
  have hhit : held ∈ hits rx snapshot opts slot path := by
    refine (mem_hits rx snapshot opts).mpr ⟨hheld, ?_, ?_⟩
    · rw [slotOf_congr rx hkey]
      exact hslot
    · rw [ruleOf_congr hkey]
      exact (matches_iff_covers (type_of_covers hcovers) hdshort).mpr hcovers
  obtain ⟨plan, hanswer⟩ := answering_of_hit rx snapshot opts hselect hhit
  obtain ⟨-, hfirst⟩ := answering_spec rx snapshot opts hanswer
  obtain ⟨hmem, hplanslot, hmatches⟩ := (mem_hits rx snapshot opts).mp (mem_of_firstMin _ hfirst)
  have hhost : plan.key.host = d.key.host :=
    (slotOf_eq_iff rx (normal_of_mem_plans snapshot opts hmem)
      (normal_of_declared snapshot opts hd) hplanslot hslot).mp rfl
  have hle : (ruleOf plan).sortKey ≤ (ruleOf d).sortKey := by
    rw [← ruleOf_congr hkey]
    exact le_of_firstMin _ hfirst held hhit
  obtain ⟨hplan, hsame | hspecific⟩ := sameRule_of_sortKey_le hhost hcovers hmatches hdshort
    (hsmall.paths plan hmem) hle
  · exact ⟨plan, hanswer, hmem, hplanslot, hsame⟩
  · exfalso
    -- A plan that is more specific than a declared rule is declared itself.
    rcases plan_source snapshot opts hmem with hdeclared | ⟨-, hfallback⟩
    · refine hunclaimed (bare plan) (List.mem_of_find?_eq_some hdeclared) ?_ hhost hplan hspecific
      have hbare : slotOf rx (bare plan) = slotOf rx plan := slotOf_congr rx rfl
      rw [hbare, hplanslot]
      rfl
    · obtain ⟨-, hpath, htype⟩ :=
        normal_of_fallback snapshot opts (List.mem_of_find?_eq_some hfallback)
      have hroot : ruleSegments plan.key.path = [[]] := by
        have hplanpath : plan.key.path = [47] := hpath
        rw [hplanpath]
        rfl
      have hplantype : plan.key.pathType = .prefixed := htype
      rcases hspecific with ⟨hexact, -⟩ | ⟨-, -, hlt⟩
      · rw [hplantype] at hexact
        cases hexact
      · have hpos := List.length_pos_iff.mpr (List.splitOn_ne_nil 47 (trimSlashes d.key.path))
        rw [hroot] at hlt
        simp only [ruleSegments, List.length_singleton] at hlt
        omega

private theorem answer_of_answering (h : translate fl rx snapshot opts previous = .ok r)
    (hsmall : Small snapshot opts) {plan : RoutePlan}
    (hanswer : answering rx snapshot opts header path = some (slot, plan)) :
    (r.config.table.matchRequest rx header path).map (·.backend.name) =
      some plan.backend.backendName := by
  have hanswered := matchRequest_translated rx snapshot opts fl h header path
  rw [hanswer] at hanswered
  obtain ⟨res, hres, hby⟩ := hanswered
  rw [hres, Option.map_some, hby.backend hsmall.backends]

/-- A rule first declared by one Ingress under every spelling, and not shadowed, is served by it. -/
private theorem served_of_undivided (h : translate fl rx snapshot opts previous = .ok r)
    (hsmall : Small snapshot opts) (hd : d ∈ declared snapshot opts) {ingress : Ingress}
    (hundivided : Undivided rx snapshot opts d ingress)
    (hunshadowed : Unshadowed rx snapshot opts d ingress) (hslot : slotOf rx d = some slot)
    (hselect : selectSlot (slots rx snapshot opts) header = some slot) (hcovers : Covers path d)
    (hunclaimed : Unclaimed rx snapshot opts path d) :
    ∃ e ∈ rivals rx snapshot opts d, e.owner = .of ingress.metadata ∧
      (r.config.table.matchRequest rx header path).map (·.backend.name) =
        some e.backend.backendName := by
  obtain ⟨plan, hanswer, hmem, hplanslot, hsame⟩ :=
    answering_rival hsmall hd hslot hselect hcovers hunclaimed
  rw [answer_of_answering fl h hsmall hanswer]
  rcases plan_source snapshot opts hmem with hdeclared | ⟨hnone, hfallback⟩
  · have hrival : bare plan ∈ rivals rx snapshot opts d := by
      have hbare : slotOf rx (bare plan) = slotOf rx plan := slotOf_congr rx rfl
      refine (mem_rivals rx snapshot opts).mpr ⟨List.mem_of_find?_eq_some hdeclared, ?_, hsame⟩
      rw [hbare, hplanslot]
      rfl
    exact ⟨bare plan, hrival, hundivided _ hrival _ hdeclared, rfl⟩
  · obtain ⟨-, hpath, htype⟩ :=
      normal_of_fallback snapshot opts (List.mem_of_find?_eq_some hfallback)
    have hplanpath : plan.key.path = [47] := hpath
    have hplantype : plan.key.pathType = .prefixed := htype
    have hroot : plan.key = rootKey d.key.host := by
      have hkey : plan.key = ⟨plan.key.host, plan.key.path, plan.key.pathType⟩ := rfl
      rw [hkey, hplanpath, hplantype, ← hsame.1, rootKey]
    have hdtype : d.key.pathType = .prefixed := hsame.2.1.trans hplantype
    have hdpath : trimSlashes d.key.path = [] := by
      rcases hsame.2.2 with ⟨hexact, -⟩ | ⟨-, hsegments⟩
      · rw [hdtype] at hexact
        cases hexact
      · exact splitOn_injective 47 (hsegments.trans (by rw [hplanpath]; rfl))
    rw [hroot] at hnone hfallback
    obtain ⟨e, he, howner, hbackend⟩ :=
      hunshadowed slot _ hslot hdtype hdpath ⟨header, hselect⟩ hnone hfallback
    exact ⟨e, he, howner, by rw [hbackend]; rfl⟩

/-- A path so long that no declared rule but those of the root matches it. -/
private theorem exists_unclaimed (snapshot : ClusterSnapshot) (opts : ControllerOpts) (htype : d.key.pathType = .prefixed)
    (hroot : trimSlashes d.key.path = []) :
    ∃ path, path.head? = some 47 ∧ Covers path d ∧
      ∀ e ∈ declared snapshot opts, Covers path e → ¬ MoreSpecific e d := by
  let n := ((declared snapshot opts).map fun e => e.key.path.length).sum
  have hsplit : (47 :: List.replicate (n + 1) (97 : UInt8)).splitOn 47 =
      [[], List.replicate (n + 1) 97] := by
    have hsingle : (List.replicate (n + 1) (97 : UInt8)).splitOn 47 =
        [List.replicate (n + 1) 97] := by
      refine List.splitOn_eq_singleton ?_
      simp
    rw [← hsingle]
    exact List.splitOn_append_cons_self [] (List.replicate (n + 1) 97)
  have hnone : ∀ e ∈ declared snapshot opts, Covers (47 :: List.replicate (n + 1) 97) e →
      ¬ MoreSpecific e d := by
    intro e he hcovers hspecific
    have hshort : e.key.path.length ≤ n :=
      List.single_le_sum (by simp) _ (List.mem_map_of_mem he)
    rcases hcovers with ⟨-, hpath⟩ | ⟨hetype, hsegments⟩
    · have hlen := congrArg List.length hpath
      simp only [List.length_cons, List.length_replicate] at hlen
      omega
    · rcases hspecific with ⟨hexact, -⟩ | ⟨-, -, hlt⟩
      · rw [hetype] at hexact
        cases hexact
      · -- More segments than the root means the whole path, which is longer than any rule.
        have hdlen : (ruleSegments d.key.path).length = 1 := by
          rw [ruleSegments, hroot]
          rfl
        have hwhole : ruleSegments e.key.path = (47 :: List.replicate (n + 1) 97).splitOn 47 := by
          refine hsegments.eq_of_length_le ?_
          rw [hsplit]
          simp only [List.length_cons, List.length_nil]
          omega
        have htrimmed : trimSlashes e.key.path = 47 :: List.replicate (n + 1) 97 :=
          splitOn_injective 47 hwhole
        have hle := (trimSlashes_starts e.key.path).length_le
        rw [htrimmed] at hle
        simp only [List.length_cons, List.length_replicate] at hle
        omega
  refine ⟨47 :: List.replicate (n + 1) 97, rfl, Or.inr ⟨htype, ?_⟩, hnone⟩
  rw [hsplit, ruleSegments, hroot]
  exact ⟨[List.replicate (n + 1) 97], rfl⟩

private theorem unshadowed_of_served (h : translate fl rx snapshot opts previous = .ok r)
    (hsmall : Small snapshot opts) (hd : d ∈ declared snapshot opts) {ingress : Ingress}
    (harbitrates : Arbitrates rx snapshot opts r d ingress) :
    Unshadowed rx snapshot opts d ingress := by
  rintro slot f hslot htype hroot ⟨header, hselect⟩ hnone hfallback
  obtain ⟨path, habsolute, hcovers, hplain⟩ := exists_unclaimed snapshot opts htype hroot
  have hunclaimed : Unclaimed rx snapshot opts path d := fun e he _ _ => hplain e he
  obtain ⟨e, he, howner, hanswered⟩ :=
    harbitrates.served header path slot hslot hselect hcovers hunclaimed
  refine ⟨e, he, howner, ?_⟩
  have hhost : hostOfSlot slot = d.key.host :=
    host_of_slotOf rx (normal_of_declared snapshot opts hd) hslot
  have hdshort : d.key.pathType = .prefixed → prefixMatchLen d.key.path < U32_SIZE := by
    intro _
    rw [prefixMatchLen, hroot]
    decide
  have hexplicit : Explicit rx snapshot opts slot path d :=
    ⟨hd, hslot, (matches_iff_covers (type_of_covers hcovers) hdshort).mpr hcovers⟩
  obtain ⟨plan, hanswer, hkey⟩ := answering_fallback rx hselect hexplicit
    (by rw [hhost]; exact ⟨hnone, by rw [hfallback]; rfl⟩) (Or.inr habsolute) (by
      intro c hc habove
      have hctype : c.key.pathType ≠ .implementationSpecific := by
        rcases habove with hkind | ⟨hkind, -⟩ <;> (rw [hkind]; decide)
      obtain ⟨held, hheld, hckey⟩ := plan_of_source snapshot opts (Or.inl hc.declared)
      have hcshort : c.key.pathType = .prefixed → prefixMatchLen c.key.path < U32_SIZE := by
        rw [← hckey]
        exact hsmall.paths held hheld
      have hccovers := (matches_iff_covers hctype hcshort).mp hc.hit
      refine hplain c hc.declared hccovers ?_
      rcases habove with hkind | ⟨hkind, hlen⟩
      · exact Or.inl ⟨hkind, htype⟩
      · refine Or.inr ⟨hkind, htype, ?_⟩
        rcases hccovers with ⟨hexact, -⟩ | ⟨-, hsegments⟩
        · rw [hkind] at hexact
          cases hexact
        · rcases hcovers with ⟨hexact, -⟩ | ⟨-, hdsegments⟩
          · rw [htype] at hexact
            cases hexact
          · rw [matchLen_eq hkind (hcshort hkind)] at hlen
            refine (length_lt_iff_segments_lt hdsegments hsegments).mp ?_
            rw [hroot, List.length_nil]
            omega)
  rw [answer_of_answering fl h hsmall hanswer] at hanswered
  have hbackend := Option.some.inj hanswered
  obtain ⟨hmem, -, -⟩ := (mem_hits rx snapshot opts).mp
    (mem_of_firstMin _ (answering_spec rx snapshot opts hanswer).2)
  rcases plan_source snapshot opts hmem with hdeclared | ⟨-, hheld⟩
  · rw [hkey, hhost, hnone] at hdeclared
    cases hdeclared
  · rw [hkey, hhost, hfallback] at hheld
    rw [← hbackend, Option.some.inj hheld]
    rfl

/-- The oldest Ingress to declare a rule is served on its paths, and every other one told so,
exactly when it was first on every spelling and no fallback shadows them. -/
theorem age_arbitration_iff (h : translate fl rx snapshot opts previous = .ok r)
    (hsmall : Small snapshot opts) (hd : d ∈ declared snapshot opts) :
    (∀ ingress, Oldest rx snapshot opts d ingress → Arbitrates rx snapshot opts r d ingress) ↔
      ∀ ingress, Oldest rx snapshot opts d ingress →
        Undivided rx snapshot opts d ingress ∧ Unshadowed rx snapshot opts d ingress := by
  refine forall₂_congr fun ingress _ => ?_
  constructor
  · intro harbitrates
    exact ⟨(reported_iff fl h ingress).mp harbitrates.reported,
      unshadowed_of_served fl h hsmall hd harbitrates⟩
  · rintro ⟨hundivided, hunshadowed⟩
    refine ⟨fun header path slot hslot hselect hcovers hunclaimed => ?_,
      (reported_iff fl h ingress).mpr hundivided⟩
    exact served_of_undivided fl h hsmall hd hundivided hunshadowed hslot hselect hcovers hunclaimed

end Serving

section Samples

def olderShop (path : Bytes) : Ingress :=
  shopIngress (ascii "first") 1 [] [pathTo path (ascii "Prefix") (ascii "web") { number := some 80 }]
    none

def youngerShop (path : Bytes) : Ingress :=
  shopIngress (ascii "second") 2 [] [pathTo path (ascii "Prefix") (ascii "thief") { number := some 80 }]
    none

/-- Two Ingresses that declare a path each for one host, listed youngest first. -/
def twoShops (older younger : Bytes) : ClusterSnapshot where
  ingresses := [youngerShop younger, olderShop older]

/-- The rule of the older Ingress. -/
def olderRule (path : Bytes) : RoutePlan where
  key := ⟨some (ascii "shop.test"), path, .prefixed⟩
  backend := ⟨ascii "default", ascii "web", .number 80⟩
  owner := ⟨ascii "default", ascii "first"⟩
  protocol := .http1
  canary := none
  mirror := none

theorem age_arbitration_one_spelling :
    ∃ r, translate noFloats literalEngine (twoShops (ascii "/foo") (ascii "/foo")) {} none = .ok r ∧
      ∀ ingress, Oldest literalEngine (twoShops (ascii "/foo") (ascii "/foo")) {}
          (olderRule (ascii "/foo")) ingress →
        Arbitrates literalEngine (twoShops (ascii "/foo") (ascii "/foo")) {} r
          (olderRule (ascii "/foo")) ingress := by
  obtain ⟨r, h⟩ := (translate_ok_iff noFloats literalEngine
    (twoShops (ascii "/foo") (ascii "/foo")) {} none).mpr (by decide +kernel)
  refine ⟨r, h, (age_arbitration_iff noFloats h ⟨by decide +kernel, by decide +kernel⟩
    (by decide +kernel)).mpr fun ingress holdest => ?_⟩
  have hproduced : production (twoShops (ascii "/foo") (ascii "/foo")) {} =
      [olderShop (ascii "/foo"), youngerShop (ascii "/foo")] := by decide +kernel
  have hfirst : ingress = olderShop (ascii "/foo") := by
    have hmem := holdest.mem
    rw [hproduced] at hmem
    rcases List.mem_cons.mp hmem with rfl | hmem
    · rfl
    · rw [List.mem_singleton] at hmem
      subst hmem
      have hle := holdest.first (olderShop (ascii "/foo")) (by rw [hproduced]; simp)
        ⟨olderRule (ascii "/foo"), by decide +kernel, by decide +kernel⟩
      have hlt : ¬ ageKey (youngerShop (ascii "/foo")) ≤ ageKey (olderShop (ascii "/foo")) := by
        decide +kernel
      exact absurd hle hlt
  subst hfirst
  refine ⟨fun e he f hf => ?_, fun slot f _ _ hroot => ?_⟩
  · have hall : ((rivals literalEngine (twoShops (ascii "/foo") (ascii "/foo")) {}
        (olderRule (ascii "/foo"))).all fun e =>
          ((declared (twoShops (ascii "/foo") (ascii "/foo")) {}).find?
            fun c => decide (c.key = e.key)).all fun f =>
              decide (f.owner = .of (olderShop (ascii "/foo")).metadata)) = true := by
      decide +kernel
    have hone := List.all_eq_true.mp hall e he
    rw [hf] at hone
    exact of_decide_eq_true hone
  · have hlong : trimSlashes (olderRule (ascii "/foo")).key.path ≠ [] := by decide +kernel
    exact absurd hroot hlong

/-- The younger Ingress takes the paths of the older one by leaving out a slash. -/
theorem age_arbitration_respelled :
    ∃ r, translate noFloats literalEngine (twoShops (ascii "/foo/") (ascii "/foo")) {} none = .ok r ∧
      olderRule (ascii "/foo/") ∈ declared (twoShops (ascii "/foo/") (ascii "/foo")) {} ∧
      Oldest literalEngine (twoShops (ascii "/foo/") (ascii "/foo")) {} (olderRule (ascii "/foo/"))
        (olderShop (ascii "/foo/")) ∧
      (r.config.table.matchRequest literalEngine (ascii "shop.test") (ascii "/foo/bar")).map
        (·.backend.name) = some (ascii "default/thief:80") ∧
      r.warnings.filter (fun w => w.kind = .routeConflict) = [] ∧
      ¬ Arbitrates literalEngine (twoShops (ascii "/foo/") (ascii "/foo")) {} r
        (olderRule (ascii "/foo/")) (olderShop (ascii "/foo/")) := by
  have hanswer : (translate noFloats literalEngine (twoShops (ascii "/foo/") (ascii "/foo")) {}
      none).toOption.map (fun r =>
        ((r.config.table.matchRequest literalEngine (ascii "shop.test") (ascii "/foo/bar")).map
          (·.backend.name), r.warnings.filter fun w => decide (w.kind = .routeConflict))) =
      some (some (ascii "default/thief:80"), []) := by
    decide +kernel
  obtain ⟨r, hr, hanswer⟩ := Option.map_eq_some_iff.mp hanswer
  obtain ⟨hbackend, hquiet⟩ := Prod.mk.inj hanswer
  have hok : translate noFloats literalEngine (twoShops (ascii "/foo/") (ascii "/foo")) {} none =
      .ok r := by
    cases htranslated : translate noFloats literalEngine (twoShops (ascii "/foo/") (ascii "/foo")) {}
        none with
    | ok r' =>
        rw [htranslated] at hr
        rw [Option.some.inj hr]
    | error err =>
        rw [htranslated] at hr
        cases hr
  have hproduced : production (twoShops (ascii "/foo/") (ascii "/foo")) {} =
      [olderShop (ascii "/foo/"), youngerShop (ascii "/foo")] := by decide +kernel
  refine ⟨r, hok, by decide +kernel, ⟨by rw [hproduced]; simp, ⟨olderRule (ascii "/foo/"),
    by decide +kernel, by decide +kernel⟩, fun other hother _ => ?_⟩, hbackend, hquiet,
    fun harbitrates => ?_⟩
  · have hall : ((production (twoShops (ascii "/foo/") (ascii "/foo")) {}).all fun other =>
        decide (ageKey (olderShop (ascii "/foo/")) ≤ ageKey other)) = true := by decide +kernel
    exact of_decide_eq_true (List.all_eq_true.mp hall other hother)
  · have hyounger : ((rivals literalEngine (twoShops (ascii "/foo/") (ascii "/foo")) {}
        (olderRule (ascii "/foo/"))).any fun e =>
          decide (e.owner ≠ .of (olderShop (ascii "/foo/")).metadata)) = true := by decide +kernel
    obtain ⟨e, he, howner⟩ := List.any_eq_true.mp hyounger
    obtain ⟨holder, -, hwarned⟩ := harbitrates.reported e he (of_decide_eq_true howner)
    have hmem : (⟨e.owner, .alreadyServed e.key holder⟩ : Warning) ∈
        r.warnings.filter fun w => decide (w.kind = .routeConflict) :=
      List.mem_filter.mpr ⟨hwarned, rfl⟩
    rw [hquiet] at hmem
    cases hmem

end Samples

end Ramjet.Controller.Arbitration
