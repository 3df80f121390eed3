/- digest: Which planned route answers a request in the table a translation builds. -/

import Ramjet.Controller.Compiled
import Ramjet.Router.RoutingAgreement

set_option autoImplicit false
set_option relaxedAutoImplicit false

namespace Ramjet.Controller.Answers

open Ramjet.Base.Octets
open Ramjet.Base.Outcome
open Ramjet.Base.AssocMap
open Ramjet.Base.FirstHit
open Ramjet.Router.Balancing
open Ramjet.Router.Rule
open Ramjet.Router.Table
open Ramjet.Router.Builder
open Ramjet.Router.BuiltTable
open Ramjet.Router.Reference
open Ramjet.Router.RoutingAgreement
open Ramjet.Controller.Objects
open Ramjet.Controller.Annotations
open Ramjet.Controller.Config
open Ramjet.Controller.Warnings
open Ramjet.Controller.Plan
open Ramjet.Controller.Translate
open Ramjet.Controller.Claims
open Ramjet.Controller.Registration
open Ramjet.Controller.Compiled

section Rules

variable (rx : RegexEngine)

/-- The rule a plan becomes, apart from its backend and its options. -/
def ruleOf (plan : RoutePlan) : PathRule :=
  PathRule.new plan.key.path plan.key.pathType
    (match plan.key.pathType with
      | .implementationSpecific => some (pathRegex plan.key.path)
      | _ => none) 0 none

/-- The virtual host an accepted plan is filed under. -/
def slotOf (plan : RoutePlan) : Option HostSlot := (plainDraft rx plan).toOption.map (·.slot)

theorem slotOf_eq_some {plan : RoutePlan} {slot : HostSlot} :
    slotOf rx plan = some slot ↔ ∃ d, plainDraft rx plan = .ok d ∧ d.slot = slot := by
  unfold slotOf
  cases plainDraft rx plan with
  | error err => simp [Except.toOption]
  | ok d => simp [Except.toOption]

/-- Whether a plan is accepted, and where, is decided by its key. -/
theorem slotOf_eq_some_iff {plan : RoutePlan} {slot : HostSlot} :
    slotOf rx plan = some slot ↔ draftSlot plan.key.host = .ok slot ∧
      ∃ regex, draftRegex rx plan.key.path plan.key.pathType = .ok regex := by
  rw [slotOf_eq_some]
  constructor
  · rintro ⟨d, hd, rfl⟩
    obtain ⟨slot, hslot, hd⟩ := bind_eq_ok.mp hd
    obtain ⟨regex, hregex, hd⟩ := bind_eq_ok.mp hd
    cases hd
    exact ⟨hslot, regex, hregex⟩
  · rintro ⟨hslot, regex, hregex⟩
    exact ⟨_, bind_eq_ok.mpr ⟨slot, hslot, bind_eq_ok.mpr ⟨regex, hregex, rfl⟩⟩, rfl⟩

/-- A plan that is no regular expression is accepted only with an absolute path. -/
theorem absolute_of_slotOf {plan : RoutePlan} {slot : HostSlot} (h : slotOf rx plan = some slot)
    (htype : plan.key.pathType ≠ .implementationSpecific) : plan.key.path.head? = some 47 := by
  obtain ⟨-, regex, hregex⟩ := (slotOf_eq_some_iff rx).mp h
  cases hkind : plan.key.pathType with
  | implementationSpecific => exact absurd hkind htype
  | exact =>
      rw [hkind] at hregex
      by_contra hrelative
      simp [draftRegex, hrelative] at hregex
  | prefixed =>
      rw [hkind] at hregex
      by_contra hrelative
      simp [draftRegex, hrelative] at hregex

theorem slotOf_congr {plan plan' : RoutePlan} (h : plan.key = plan'.key) :
    slotOf rx plan = slotOf rx plan' := by
  refine Option.ext fun slot => ?_
  rw [slotOf_eq_some_iff, slotOf_eq_some_iff, h]

theorem ruleOf_congr {plan plan' : RoutePlan} (h : plan.key = plan'.key) :
    ruleOf plan = ruleOf plan' := by
  rw [ruleOf, ruleOf, h]

/-- An accepted plan is registered, whatever becomes of its optional parts. -/
theorem finalDraft_of_slotOf {plan : RoutePlan} {slot : HostSlot}
    (h : slotOf rx plan = some slot) : ∃ d, finalDraft rx plan = some d ∧ d.slot = slot := by
  obtain ⟨d, hd, rfl⟩ := (slotOf_eq_some rx).mp h
  unfold finalDraft
  rw [hd]
  dsimp only
  split
  · exact ⟨_, rfl, rfl⟩
  · exact ⟨d, rfl, rfl⟩

theorem slotOf_of_finalDraft {plan : RoutePlan} {d : RouteDraft}
    (h : finalDraft rx plan = some d) : slotOf rx plan = some d.slot := by
  obtain ⟨plain, hplain, ⟨canary, mirror, -, -, rfl⟩ | rfl⟩ := finalDraft_cases rx h
  · exact (slotOf_eq_some rx).mpr ⟨plain, hplain, rfl⟩
  · exact (slotOf_eq_some rx).mpr ⟨d, hplain, rfl⟩

/-- The host of an accepted plan can be read off its slot. -/
theorem host_of_slotOf {plan : RoutePlan} {slot : HostSlot} (hnormal : Normal plan.key.host)
    (h : slotOf rx plan = some slot) : hostOfSlot slot = plan.key.host := by
  obtain ⟨d, hd, rfl⟩ := (slotOf_eq_some rx).mp h
  exact hostOfSlot_draftSlot hnormal (draftOf_plainDraft rx hd).slot

/-- Accepted plans share a slot exactly when they share a host. -/
theorem slotOf_eq_iff {plan plan' : RoutePlan} (hnormal : Normal plan.key.host)
    (hnormal' : Normal plan'.key.host) {slot slot' : HostSlot} (h : slotOf rx plan = some slot)
    (h' : slotOf rx plan' = some slot') : slot = slot' ↔ plan.key.host = plan'.key.host := by
  constructor
  · rintro rfl
    rw [← host_of_slotOf rx hnormal h, ← host_of_slotOf rx hnormal' h']
  · intro hhost
    have hslot := ((slotOf_eq_some_iff rx).mp h).1
    rw [hhost, ((slotOf_eq_some_iff rx).mp h').1] at hslot
    exact (Except.ok.inj hslot).symm

/-- A frozen plan compares paths, and is ordered, as its rule does. -/
theorem frozenRule_like {plan : RoutePlan} {d : RouteDraft} (h : finalDraft rx plan = some d)
    (ids : Map Bytes BackendId) :
    (∀ path, (frozenRule ids d).matches rx path = (ruleOf plan).matches rx path) ∧
      (frozenRule ids d).sortKey = (ruleOf plan).sortKey := by
  have hspec := draftOf_finalDraft rx h
  have hpath := hspec.path
  have htype := hspec.pathType
  refine ⟨fun path => ?_, ?_⟩
  · simp only [frozenRule, ruleOf, PathRule.new, PathRule.matches, ← hpath, ← htype]
    cases hkind : d.pathType with
    | exact => rfl
    | prefixed => rfl
    | implementationSpecific => rw [hspec.regex hkind]
  · simp only [frozenRule, ruleOf, PathRule.new, PathRule.sortKey, ← hpath, ← htype]

end Rules

section Answering

variable (rx : RegexEngine) (snapshot : ClusterSnapshot) (opts : ControllerOpts)

/-- The virtual hosts of a translated table. -/
def slots : List HostSlot := (plans snapshot opts).filterMap (slotOf rx)

/-- The accepted plans of a virtual host that match a path, in registration order. -/
def hits (slot : HostSlot) (path : Bytes) : List RoutePlan :=
  (plans snapshot opts).filter fun plan =>
    slotOf rx plan = some slot ∧ (ruleOf plan).matches rx path = true

/-- The plan that answers a request, and the virtual host it is found under. -/
def answering (header path : Bytes) : Option (HostSlot × RoutePlan) := do
  let slot ← selectSlot (slots rx snapshot opts) header
  let plan ← firstMin (fun plan => (ruleOf plan).sortKey) (hits rx snapshot opts slot path)
  return (slot, plan)

private theorem slots_eq : ((plans snapshot opts).filterMap (finalDraft rx)).map (·.slot) =
    slots rx snapshot opts := by
  rw [List.map_filterMap, slots]
  refine List.filterMap_congr fun plan _ => ?_
  cases hd : finalDraft rx plan with
  | some d => rw [slotOf_of_finalDraft rx hd, Option.map_some]
  | none =>
      cases hslot : slotOf rx plan with
      | none => rfl
      | some slot =>
          obtain ⟨d, hd', -⟩ := finalDraft_of_slotOf rx hslot
          rw [hd] at hd'
          cases hd'

private theorem hits_eq (ids : Map Bytes BackendId) (slot : HostSlot) (path : Bytes) :
    (((plans snapshot opts).filterMap (finalDraft rx)).filter fun d => d.slot = slot).filter
        (fun d => (frozenRule ids d).matches rx path) =
      (hits rx snapshot opts slot path).filterMap (finalDraft rx) := by
  unfold hits
  induction plans snapshot opts with
  | nil => rfl
  | cons plan rest ih =>
      rw [List.filterMap_cons, List.filter_cons]
      cases hd : finalDraft rx plan with
      | none =>
          have hslot : slotOf rx plan = none := by
            cases hslot : slotOf rx plan with
            | none => rfl
            | some slot =>
                obtain ⟨d, hd', -⟩ := finalDraft_of_slotOf rx hslot
                rw [hd] at hd'
                cases hd'
          simpa [hslot] using ih
      | some d =>
          have hslot := slotOf_of_finalDraft rx hd
          have hmatch := (frozenRule_like rx hd ids).1 path
          by_cases hsame : d.slot = slot
          · by_cases hhit : (ruleOf plan).matches rx path = true
            · simp only [List.filter_cons, hsame, hslot, hmatch, hhit, decide_true, if_true, and_self,
                List.filterMap_cons, hd]
              rw [ih]
            · simp only [List.filter_cons, hsame, hslot, hmatch, hhit, decide_true, if_true,
                true_and, decide_false, Bool.false_eq_true, if_false]
              exact ih
          · have hne : ¬ (some d.slot = some slot) := fun heq => hsame (Option.some.inj heq)
            simp only [List.filter_cons, hsame, hslot, hne, decide_false, Bool.false_eq_true,
              if_false, false_and]
            exact ih

private theorem answering_eq (ids : Map Bytes BackendId) (header path : Bytes) :
    (do
      let slot ← selectSlot (slots rx snapshot opts) header
      let d ← firstMin (fun d => (frozenRule ids d).sortKey)
        ((hits rx snapshot opts slot path).filterMap (finalDraft rx))
      return (slot, d)) =
      (answering rx snapshot opts header path).bind fun answer =>
        (finalDraft rx answer.2).map fun d => (answer.1, d) := by
  unfold answering
  cases selectSlot (slots rx snapshot opts) header with
  | none => rfl
  | some slot =>
      have hfirst := firstMin_filterMap (fun d => (frozenRule ids d).sortKey)
        (f := finalDraft rx) (l := hits rx snapshot opts slot path)
        (fun plan hplan => by
          have hslot := (of_decide_eq_true (List.mem_filter.mp hplan).2).1
          obtain ⟨d, hd, -⟩ := finalDraft_of_slotOf rx hslot
          exact ⟨d, hd, (frozenRule_like rx hd ids).2⟩)
      simp only [Option.bind_eq_bind, Option.bind_some, hfirst]
      cases firstMin (fun plan => (ruleOf plan).sortKey) (hits rx snapshot opts slot path) with
      | none => rfl
      | some plan =>
          show (finalDraft rx plan).bind (fun d => some (slot, d)) =
            (finalDraft rx plan).map fun d => (slot, d)
          cases finalDraft rx plan <;> rfl

/-- The plan that answers is a hit of the selected host that no other hit comes before. -/
theorem answering_spec {header path : Bytes} {slot : HostSlot} {plan : RoutePlan}
    (h : answering rx snapshot opts header path = some (slot, plan)) :
    selectSlot (slots rx snapshot opts) header = some slot ∧
      firstMin (fun plan => (ruleOf plan).sortKey) (hits rx snapshot opts slot path) = some plan := by
  unfold answering at h
  obtain ⟨slot', hslot, h⟩ := Option.bind_eq_some_iff.mp h
  obtain ⟨plan', hplan, h⟩ := Option.bind_eq_some_iff.mp h
  cases h
  exact ⟨hslot, hplan⟩

theorem mem_hits {slot : HostSlot} {path : Bytes} {plan : RoutePlan} :
    plan ∈ hits rx snapshot opts slot path ↔ plan ∈ plans snapshot opts ∧
      slotOf rx plan = some slot ∧ (ruleOf plan).matches rx path = true := by
  rw [hits, List.mem_filter, decide_eq_true_iff]

/-- Where something matches, something answers. -/
theorem answering_of_hit {header path : Bytes} {slot : HostSlot} {plan : RoutePlan}
    (hslot : selectSlot (slots rx snapshot opts) header = some slot)
    (hplan : plan ∈ hits rx snapshot opts slot path) :
    ∃ plan', answering rx snapshot opts header path = some (slot, plan') := by
  have hsome : firstMin (fun plan => (ruleOf plan).sortKey)
      (hits rx snapshot opts slot path) ≠ none := by
    rw [ne_eq, firstMin_eq_none_iff]
    rintro hempty
    rw [hempty] at hplan
    cases hplan
  obtain ⟨plan', hplan'⟩ := Option.ne_none_iff_exists'.mp hsome
  refine ⟨plan', ?_⟩
  rw [answering, hslot]
  simp [hplan']

/-- Of two hits of equal precedence the one that answers has the smaller key. -/
theorem sortKey_le_of_answering {header path : Bytes} {slot : HostSlot} {plan : RoutePlan}
    (h : answering rx snapshot opts header path = some (slot, plan)) {other : RoutePlan}
    (hother : other ∈ hits rx snapshot opts slot path)
    (heq : (ruleOf other).sortKey = (ruleOf plan).sortKey) :
    plan.key.sortKey ≤ other.key.sortKey := by
  obtain ⟨pre, post, hsplit, hpre, -⟩ :=
    isFirstMin_of_firstMin _ (answering_spec rx snapshot opts h).2
  have hsorted : (hits rx snapshot opts slot path).Pairwise
      fun a b => a.key.sortKey ≤ b.key.sortKey := (plans_sorted snapshot opts).filter _
  rw [hsplit] at hother hsorted
  rcases List.mem_append.mp hother with hmem | hmem
  · exact absurd heq (hpre other hmem).ne'
  · rcases List.mem_cons.mp hmem with rfl | hmem
    · exact le_rfl
    · exact (List.pairwise_cons.mp (List.pairwise_append.mp hsorted).2.1).1 other hmem

/-- What a request is answered with, given the plan that answers it. -/
structure AnsweredBy (res : MatchResult) (slot : HostSlot) (plan : RoutePlan) : Prop where
  hostMatch : res.hostMatch = hostMatchOf slot
  rule : ∃ rule, res.rule = some rule ∧ rule.path = plan.key.path ∧
    rule.pathType = plan.key.pathType
  backend : (backendNames snapshot opts).length ≤ U32_SIZE →
    res.backend.name = plan.backend.backendName

/-- A translated table answers every request with the plan that answers it. -/
theorem matchRequest_translated {F : Type} (fl : Floats F) {previous : Option RouteTable}
    {r : Translation F} (h : translate fl rx snapshot opts previous = .ok r) (header path : Bytes) :
    match answering rx snapshot opts header path with
    | some (slot, plan) => ∃ res, r.config.table.matchRequest rx header path = some res ∧
        AnsweredBy snapshot opts res slot plan
    | none => ∀ res, r.config.table.matchRequest rx header path = some res → res.rule = none := by
  obtain ⟨c, hreg, hbuild, -⟩ := translate_spec fl rx snapshot opts previous h
  obtain ⟨hfinished, -⟩ := finished_spec rx snapshot opts previous hreg
  generalize hb : (finished rx snapshot opts c).builder = b at hbuild hfinished
  have hanswer := matchRequest_frozen rx hfinished.ok hbuild header path
  have hrules : ∀ slot, rulesOf b slot =
      ((plans snapshot opts).filterMap (finalDraft rx)).filter fun d => d.slot = slot := by
    intro slot
    rw [rulesOf, hfinished.routes]
  simp only [hfinished.routes, hrules, slots_eq, hits_eq, answering_eq] at hanswer
  cases hplan : answering rx snapshot opts header path with
  | none =>
      rw [hplan] at hanswer
      intro res hres
      have hdefault : r.config.table.matchRequest rx header path = r.config.table.defaultResult :=
        hanswer
      rw [hdefault] at hres
      unfold RouteTable.defaultResult at hres
      obtain ⟨id, -, hres⟩ := Option.bind_eq_some_iff.mp hres
      obtain ⟨backend, -, hres⟩ := Option.bind_eq_some_iff.mp hres
      cases hres
      rfl
  | some answer =>
      obtain ⟨slot, plan⟩ := answer
      obtain ⟨-, hfirst⟩ := answering_spec rx snapshot opts hplan
      obtain ⟨hmem, hslot, -⟩ := (mem_hits rx snapshot opts).mp (mem_of_firstMin _ hfirst)
      obtain ⟨d, hd, -⟩ := finalDraft_of_slotOf rx hslot
      have hspec := draftOf_finalDraft rx hd
      rw [hplan, Option.bind_some, hd, Option.map_some] at hanswer
      obtain ⟨index, hanswer⟩ := hanswer
      have hroute : d ∈ b.routes := by
        rw [hfinished.routes]
        exact List.mem_filterMap.mpr ⟨plan, hmem, hd⟩
      obtain ⟨hbackends, -, hids, -⟩ := build_ok hbuild
      obtain ⟨i, hlt, hid⟩ := lt_of_get hfinished.ok (hids d hroute)
      have hget : ∃ backend, r.config.table.backends[(frozenRule b.backendIds d).backend]? =
          some backend := by
        rw [hbackends]
        refine ⟨_, List.getElem?_eq_getElem ?_⟩
        simp only [builtBackends, List.length_map, List.length_zipIdx]
        rw [hid]
        exact lt_of_le_of_lt (Nat.mod_le i U32_SIZE) hlt
      obtain ⟨backend, hget⟩ := hget
      refine ⟨⟨backend, some ((frozenRule b.backendIds d).setStatsIndex index), hostMatchOf slot⟩,
        ?_, rfl, ⟨_, rfl, hspec.path, hspec.pathType⟩, fun hcount => ?_⟩
      · rw [hanswer, RouteTable.hit]
        have hsame : ((frozenRule b.backendIds d).setStatsIndex index).backend =
            (frozenRule b.backendIds d).backend := rfl
        rw [hsame, hget, Option.map_some]
      · have hcount' : b.backends.length ≤ U32_SIZE := by
          rw [← hfinished.names, List.length_map] at hcount
          exact hcount
        obtain ⟨e, j, he, hgot⟩ := builtBackends_of_get hfinished.ok hcount' (hids d hroute)
        rw [hbackends, hgot] at hget
        cases hget
        have hname : e.name = d.backend := by
          simpa [RouteTableBuilder.declared] using List.find?_some he
        exact hname.trans hspec.backend

end Answering

end Ramjet.Controller.Answers
