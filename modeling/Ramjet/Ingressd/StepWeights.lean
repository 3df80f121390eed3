/- digest: The weights a promotion steps through, and the total the router divides them by. -/

import Mathlib.Logic.Relation
import Ramjet.Controller.Translate
import Ramjet.Ingressd.Rearming

set_option autoImplicit false
set_option relaxedAutoImplicit false

namespace Ramjet.Ingressd.StepWeights

open Relation
open Ramjet.Base.Octets
open Ramjet.Base.Text
open Ramjet.Base.AssocMap
open Ramjet.Router.Balancing
open Ramjet.Router.Host
open Ramjet.Router.Rule
open Ramjet.Router.Builder
open Ramjet.Router.Stats
open Ramjet.Controller.Objects
open Ramjet.Controller.Annotations
open Ramjet.Controller.Config
open Ramjet.Controller.Plan
open Ramjet.Controller.Translate
open Ramjet.Ingressd.Promotion

section Watched

/-- The total the router divides a canary's weight by. -/
def effectiveTotal (rules : CanaryAnnotations) : Nat :=
  if rules.weightTotal = 0 then DEFAULT_WEIGHT_TOTAL else rules.weightTotal

/-- The weight and the total that a canary's annotations compile to. -/
def servedSpec (rules : CanaryAnnotations) (backend : BackendId) (header : Option HeaderSpec) :
    CanarySpec :=
  CanarySpec.new backend header rules.cookie rules.weight (effectiveTotal rules)

/-- What the header of a request settles. -/
def headerVerdict (rx : RegexEngine) (c : CanarySpec) (value : Option Bytes) : Option Bool :=
  c.header.bind fun rule => value.bind fun value => rule.test.decide rx value

/-- What the cookie of a request settles. -/
def cookieVerdict (rx : RegexEngine) (c : CanarySpec) (value : Option Bytes) : Option Bool :=
  c.cookie.bind fun _ => value.bind fun value => HeaderMatch.alwaysNever.decide rx value

/-- Neither the header nor the cookie settles where a request goes. -/
def Unsettled (rx : RegexEngine) (c : CanarySpec) (headerValue cookieValue : Option Bytes) : Prop :=
  headerVerdict rx c headerValue = none ∧ cookieVerdict rx c cookieValue = none

/-- Every request that nothing else settles is diverted, whatever it rolls. -/
def DivertsEveryRoll (rx : RegexEngine) (c : CanarySpec) : Prop :=
  ∀ headerValue cookieValue roll, roll < c.weightTotal → Unsettled rx c headerValue cookieValue →
    c.decide rx headerValue cookieValue roll = true

theorem decide_of_unsettled {rx : RegexEngine} {c : CanarySpec}
    {headerValue cookieValue : Option Bytes} (h : Unsettled rx c headerValue cookieValue)
    (roll : Nat) :
    c.decide rx headerValue cookieValue roll =
      (decide (0 < c.weight) && decide (roll < c.weight)) := by
  obtain ⟨backend, header, cookie, weight, total⟩ := c
  obtain ⟨hheader, hcookie⟩ := h
  unfold CanarySpec.decide
  cases header <;> cases headerValue <;> cases cookie <;> cases cookieValue <;>
    simp_all [headerVerdict, cookieVerdict]

theorem effectiveTotal_pos (rules : CanaryAnnotations) : 0 < effectiveTotal rules := by
  unfold effectiveTotal
  split
  · decide
  · omega

theorem divertsEveryRoll_iff (rx : RegexEngine) (rules : CanaryAnnotations) (backend : BackendId)
    (header : Option HeaderSpec) :
    DivertsEveryRoll rx (servedSpec rules backend header) ↔ effectiveTotal rules ≤ rules.weight := by
  have hpos := effectiveTotal_pos rules
  constructor
  · intro h
    have hunsettled : Unsettled rx (servedSpec rules backend header) none none := by
      constructor
      · simp [headerVerdict]
      · simp [cookieVerdict]
    have hlast := h none none (effectiveTotal rules - 1)
      (show effectiveTotal rules - 1 < effectiveTotal rules by omega) hunsettled
    rw [decide_of_unsettled hunsettled] at hlast
    have hroll : effectiveTotal rules - 1 < rules.weight :=
      of_decide_eq_true (Bool.and_eq_true_iff.mp hlast).2
    omega
  · intro h headerValue cookieValue roll hroll hunsettled
    rw [decide_of_unsettled hunsettled]
    have hweight : roll < rules.weight := lt_of_lt_of_le hroll h
    exact Bool.and_eq_true_iff.mpr
      ⟨decide_eq_true (show 0 < rules.weight by omega), decide_eq_true hweight⟩

/-- A canary that compiles does so at any weight its total has room for. -/
theorem canaryDraft_reweighted (rx : RegexEngine) {c c' : CanaryRules} {slot : HostSlot}
    {path : Bytes} {draft : CanaryDraft} (h : canaryDraft rx c slot path = .ok draft)
    (hsame : c' = { c with weight := c'.weight })
    (hweight : c'.weight ≤ if c'.weightTotal = 0 then DEFAULT_WEIGHT_TOTAL else c'.weightTotal) :
    canaryDraft rx c' slot path = .ok { draft with weight := c'.weight } := by
  rw [hsame] at hweight ⊢
  generalize c'.weight = weight at hweight ⊢
  by_cases hheaders : (c.headerValue.isSome && c.headerPattern.isSome) = true
  · rw [canaryDraft, if_pos hheaders] at h
    cases h
  by_cases hover : (if c.weightTotal = 0 then DEFAULT_WEIGHT_TOTAL else c.weightTotal) < c.weight
  · rw [canaryDraft, if_neg hheaders, if_pos hover] at h
    cases h
  rw [canaryDraft, if_neg hheaders, if_neg hover] at h
  rw [canaryDraft, if_neg hheaders, if_neg (Nat.not_lt.mpr hweight)]
  obtain ⟨header, hheader, hdraft⟩ := Base.Outcome.bind_eq_ok.mp h
  rw [hheader]
  cases hdraft
  rfl

end Watched

section Writes

variable {F : Type} (fl : Floats F)

/-- What a patch leaves of an Ingress's annotations. -/
def patched (annotations : Annotations) (patch : List (Bytes × Bytes)) : Annotations :=
  patch.foldl (fun annotations e => insert annotations e.1 e.2) annotations

theorem getTrimmed_reweighted (annotations : Annotations) (value : Bytes) {key : Bytes}
    (hkey : key ≠ ANNOTATION_CANARY_WEIGHT) :
    getTrimmed (insert annotations ANNOTATION_CANARY_WEIGHT value) key =
      getTrimmed annotations key := by
  unfold getTrimmed
  rw [get_insert_of_ne _ hkey]

theorem readOr_reweighted {α : Type} (annotations : Annotations) (value : Bytes) {key : Bytes}
    (hkey : key ≠ ANNOTATION_CANARY_WEIGHT) (fallback : α) (read : Bytes → Option α) :
    readOr (insert annotations ANNOTATION_CANARY_WEIGHT value) key fallback read =
      readOr annotations key fallback read := by
  unfold readOr
  rw [getTrimmed_reweighted _ _ hkey]

/-- A new weight changes nothing of the policy it was decided under. -/
theorem policy_reweighted (annotations : Annotations) (value : Bytes) :
    PromotionAnnotations.parse fl (insert annotations ANNOTATION_CANARY_WEIGHT value) =
      PromotionAnnotations.parse fl annotations := by
  simp (disch := decide) only [PromotionAnnotations.parse, readOr_reweighted, getTrimmed_reweighted]

/-- Of the canary a new weight changes the weight. -/
theorem rules_reweighted (annotations : Annotations) {weight : Nat} (h : weight ≤ U32_MAX) :
    let rules := CanaryAnnotations.parse (insert annotations ANNOTATION_CANARY_WEIGHT (decimal weight))
    rules.weight = weight ∧
      rules.weightTotal = (CanaryAnnotations.parse annotations).weightTotal ∧
      rules.header = (CanaryAnnotations.parse annotations).header ∧
      rules.headerValue = (CanaryAnnotations.parse annotations).headerValue ∧
      rules.headerPattern = (CanaryAnnotations.parse annotations).headerPattern ∧
      rules.cookie = (CanaryAnnotations.parse annotations).cookie := by
  have hother : ∀ {key : Bytes}, key ≠ ANNOTATION_CANARY_WEIGHT →
      get (insert annotations ANNOTATION_CANARY_WEIGHT (decimal weight)) key =
        get annotations key := fun hkey => get_insert_of_ne _ hkey _
  refine ⟨?_, ?_, hother (by decide), hother (by decide), hother (by decide), hother (by decide)⟩
  · simp only [CanaryAnnotations.parse, canaryNumber, get_insert_self, parseUnsigned_decimal h]
  · simp only [CanaryAnnotations.parse, canaryNumber]
    rw [hother (by decide)]

end Writes

section Steps

variable {F : Type} (fl : Floats F)

/-- What a successful reading of a list holds was read from something on it. -/
private theorem mem_of_mapM {α β : Type} {f : α → Option β} {l : List α} {l' : List β}
    (h : l.mapM f = some l') {b : β} (hb : b ∈ l') : ∃ a ∈ l, f a = some b := by
  induction l generalizing l' with
  | nil =>
      rw [List.mapM_nil] at h
      cases h
      cases hb
  | cons a l ih =>
      rw [List.mapM_cons] at h
      obtain ⟨c, hc, h⟩ := Option.bind_eq_some_iff.mp h
      obtain ⟨rest, hrest, h⟩ := Option.bind_eq_some_iff.mp h
      cases h
      rcases List.mem_cons.mp hb with rfl | hb
      · exact ⟨a, List.mem_cons_self, hc⟩
      · obtain ⟨a', ha', hread⟩ := ih hrest hb
        exact ⟨a', List.mem_cons_of_mem a ha', hread⟩

private theorem parseSteps_spec {raw : Bytes} {steps : List Nat} (h : parseSteps raw = some steps) :
    steps.Pairwise (· ≤ ·) ∧ ∀ step ∈ steps, step ≤ 100 := by
  unfold parseSteps at h
  obtain ⟨read, hread, h⟩ := Option.bind_eq_some_iff.mp h
  split at h
  · cases h
  rename_i hsome
  cases h
  have hsorted := List.pairwise_insertionSort (· ≤ ·) read
  have hsub := List.destutter_sublist (· ≠ ·) (read.insertionSort (· ≤ ·))
  refine ⟨hsorted.sublist hsub, fun step hstep => ?_⟩
  have hin : step ∈ read := (List.mem_insertionSort _).mp (hsub.subset hstep)
  obtain ⟨field, -, hfield⟩ := mem_of_mapM hread hin
  have hbound := (Option.filter_eq_some_iff.mp hfield).2
  simpa using (Bool.and_eq_true_iff.mp hbound).2

theorem policy_steps (annotations : Annotations) :
    let steps := (PromotionAnnotations.parse fl annotations).steps
    steps.Pairwise (· ≤ ·) ∧ ∀ step ∈ steps, step ≤ 100 := by
  simp only [PromotionAnnotations.parse, readOr]
  split
  · decide
  · split
    · rename_i steps hsteps
      exact parseSteps_spec hsteps
    · decide

/-- The first element that passes a test is the least one that does, where the list ascends. -/
private theorem find?_le {l : List Nat} (hsorted : l.Pairwise (· ≤ ·)) {p : Nat → Bool} {a b : Nat}
    (ha : l.find? p = some a) (hb : b ∈ l) (hp : p b = true) : a ≤ b := by
  induction l with
  | nil => cases hb
  | cons x l ih =>
      rw [List.pairwise_cons] at hsorted
      rw [List.find?_cons] at ha
      split at ha
      · cases ha
        rcases List.mem_cons.mp hb with rfl | hb
        · exact le_rfl
        · exact hsorted.1 b hb
      · rename_i hx
        rcases List.mem_cons.mp hb with rfl | hb
        · rw [hp] at hx
          cases hx
        · exact ih hsorted.2 ha hb

variable (rates : Rates F)

/-- A healthy window goes on to the next step, or ends the promotion where there is none. -/
theorem nextStep_of_decide {policy : PromotionAnnotations F} {weight : Nat} {window : Window} :
    (∀ toWeight, Promotion.decide rates policy weight window = .step toWeight →
      nextStep policy weight = some toWeight) ∧
    (Promotion.decide rates policy weight window = .promote → nextStep policy weight = none) := by
  unfold Promotion.decide
  split
  · exact ⟨nofun, nofun⟩
  split
  · exact ⟨nofun, nofun⟩
  split
  · exact ⟨nofun, nofun⟩
  cases hnext : nextStep policy weight with
  | none => exact ⟨nofun, fun _ => rfl⟩
  | some toWeight => exact ⟨fun _ h => by rw [Verdict.step.inj h], nofun⟩

/-- What floating-point numbers owe the gates: a window without failures is under every limit that
an annotation can set, and the default is such a limit. -/
structure Calm : Prop where
  fallback : fl.le fl.zero fl.maxFailures = true
  under : ∀ limit requests, fl.le fl.zero limit = true → 0 < requests →
    rates.lt limit (rates.div (rates.mul (rates.ofCount 0) rates.hundred) (rates.ofCount requests)) =
      false

/-- As many requests as a policy asks for, on either side, and nothing wrong with them. -/
def quietWindow (policy : PromotionAnnotations F) : Window :=
  { canary := { requests := policy.minRequests }, stable := { requests := policy.minRequests } }

variable {fl rates}

theorem decide_quiet (hcalm : Calm fl rates) (annotations : Annotations) (weight : Nat) :
    Promotion.decide rates (PromotionAnnotations.parse fl annotations) weight
        (quietWindow (PromotionAnnotations.parse fl annotations)) =
      (nextStep (PromotionAnnotations.parse fl annotations) weight).elim .promote .step := by
  have hlimit : fl.le fl.zero (PromotionAnnotations.parse fl annotations).max5xxPercent = true := by
    simp only [PromotionAnnotations.parse, readOr]
    split
    · exact hcalm.fallback
    · split
      · rename_i value hvalue
        exact (Bool.and_eq_true_iff.mp (Option.filter_eq_some_iff.mp hvalue).2).2
      · exact hcalm.fallback
  generalize PromotionAnnotations.parse fl annotations = policy at hlimit ⊢
  have herrors : errorBreach rates policy (quietWindow policy) = none := by
    unfold errorBreach errorPercent quietWindow
    by_cases hrequests : 0 < policy.minRequests
    · have hunder := hcalm.under policy.max5xxPercent policy.minRequests hlimit hrequests
      simp [hrequests, hunder]
    · simp [hrequests]
  have hlatency : latencyBreach rates policy (quietWindow policy) = none := by
    simp [latencyBreach, avgLatencyMs, quietWindow]
  unfold Promotion.decide
  rw [herrors, hlatency, if_neg (by simp [quietWindow])]
  cases nextStep policy weight <;> rfl

end Steps

section Runs

variable {F : Type} (fl : Floats F) (rates : Rates F)

/-- What a pass that steps a canary leaves of its annotations. -/
def Stepped (annotations annotations' : Annotations) : Prop :=
  ∃ window toWeight order,
    Promotion.decide rates (PromotionAnnotations.parse fl annotations)
      (CanaryAnnotations.parse annotations).weight window = .step toWeight ∧
    orderOf (CanaryAnnotations.parse annotations).weight (.step toWeight) = some order ∧
    annotations' = patched annotations order.annotations

theorem stepped_iff {annotations annotations' : Annotations} :
    Stepped fl rates annotations annotations' ↔ ∃ window toWeight,
      Promotion.decide rates (PromotionAnnotations.parse fl annotations)
        (CanaryAnnotations.parse annotations).weight window = .step toWeight ∧
      annotations' = insert annotations ANNOTATION_CANARY_WEIGHT (decimal toWeight) := by
  constructor
  · rintro ⟨window, toWeight, order, hdecide, horder, rfl⟩
    cases horder
    exact ⟨window, toWeight, hdecide, rfl⟩
  · rintro ⟨window, toWeight, hdecide, rfl⟩
    exact ⟨window, toWeight, _, hdecide, rfl, rfl⟩

/-- What one step does to a canary: a greater weight, which is one of its steps, and nothing else. -/
private theorem stepped_facts {annotations annotations' : Annotations}
    (h : Stepped fl rates annotations annotations') :
    PromotionAnnotations.parse fl annotations' = PromotionAnnotations.parse fl annotations ∧
      effectiveTotal (CanaryAnnotations.parse annotations') =
        effectiveTotal (CanaryAnnotations.parse annotations) ∧
      (CanaryAnnotations.parse annotations').weight ∈
        (PromotionAnnotations.parse fl annotations).steps ∧
      (CanaryAnnotations.parse annotations).weight < (CanaryAnnotations.parse annotations').weight := by
  obtain ⟨window, toWeight, hdecide, rfl⟩ := (stepped_iff fl rates).mp h
  obtain ⟨hstep, habove⟩ := PromoterSafety.step_above rates hdecide
  have hbound : toWeight ≤ U32_MAX :=
    ((policy_steps fl annotations).2 toWeight hstep).trans (by decide)
  obtain ⟨hweight, htotal, -⟩ := rules_reweighted annotations hbound
  refine ⟨policy_reweighted fl annotations _, ?_, ?_, ?_⟩
  · simp only [effectiveTotal, htotal]
  · rw [hweight]
    exact hstep
  · rw [hweight]
    exact habove

/-- Along a run of steps the policy and the total stand, and the weight is the first one or a step
above it. -/
theorem reached_facts {annotations annotations' : Annotations}
    (h : ReflTransGen (Stepped fl rates) annotations annotations') :
    PromotionAnnotations.parse fl annotations' = PromotionAnnotations.parse fl annotations ∧
      effectiveTotal (CanaryAnnotations.parse annotations') =
        effectiveTotal (CanaryAnnotations.parse annotations) ∧
      (CanaryAnnotations.parse annotations).weight ≤ (CanaryAnnotations.parse annotations').weight ∧
      ((CanaryAnnotations.parse annotations').weight = (CanaryAnnotations.parse annotations).weight ∨
        (CanaryAnnotations.parse annotations').weight ∈
          (PromotionAnnotations.parse fl annotations).steps) := by
  induction h with
  | refl => exact ⟨rfl, rfl, le_rfl, .inl rfl⟩
  | tail hrun hstep ih =>
      obtain ⟨hpolicy, htotal, hweight, -⟩ := ih
      obtain ⟨hpolicy', htotal', hin, habove⟩ := stepped_facts fl rates hstep
      refine ⟨hpolicy'.trans hpolicy, htotal'.trans htotal, hweight.trans habove.le, .inr ?_⟩
      rw [← hpolicy]
      exact hin

variable {fl rates}

/-- In good health every step above the weight a canary stands at is written some time. -/
theorem every_step_written (hcalm : Calm fl rates) {annotations : Annotations} {step : Nat}
    (hstep : step ∈ (PromotionAnnotations.parse fl annotations).steps)
    (habove : (CanaryAnnotations.parse annotations).weight < step) :
    ∃ annotations', ReflTransGen (Stepped fl rates) annotations annotations' ∧
      ∃ window, Promotion.decide rates (PromotionAnnotations.parse fl annotations')
        (CanaryAnnotations.parse annotations').weight window = .step step := by
  -- The induction is on how far the canary's weight is below the step.
  induction hgap : step - (CanaryAnnotations.parse annotations).weight using
    Nat.strong_induction_on generalizing annotations with
  | _ gap ih =>
      have hquiet := decide_quiet hcalm annotations (CanaryAnnotations.parse annotations).weight
      cases hnext : nextStep (PromotionAnnotations.parse fl annotations)
          (CanaryAnnotations.parse annotations).weight with
      | none =>
          have hnever := List.find?_eq_none.mp hnext step hstep
          exact absurd (decide_eq_true habove) hnever
      | some toWeight =>
          rw [hnext] at hquiet
          have hle : toWeight ≤ step :=
            find?_le (policy_steps fl annotations).1 hnext hstep (decide_eq_true habove)
          by_cases hsame : toWeight = step
          · subst hsame
            exact ⟨annotations, .refl, _, hquiet⟩
          · have hmove : Stepped fl rates annotations
                (insert annotations ANNOTATION_CANARY_WEIGHT (decimal toWeight)) :=
              (stepped_iff fl rates).mpr ⟨_, toWeight, hquiet, rfl⟩
            have hbound : toWeight ≤ U32_MAX :=
              ((policy_steps fl annotations).2 toWeight (List.mem_of_find?_eq_some hnext)).trans
                (by decide)
            have hweight := (rules_reweighted annotations hbound).1
            obtain ⟨hpolicy, -, -, habove'⟩ := stepped_facts fl rates hmove
            rw [hweight] at habove'
            obtain ⟨annotations', hrun, hwrites⟩ := ih (step - toWeight) (by omega)
              (by rw [hpolicy]; exact hstep) (by rw [hweight]; omega) (by rw [hweight])
            exact ⟨annotations', .head hmove hrun, hwrites⟩

end Runs

section Agreement

variable {F : Type} (fl : Floats F) (rates : Rates F) (rx : RegexEngine)

/-- The steps of a promotion agree with the total of its canary, wherever its writes lead. -/
structure StepsAgree (annotations : Annotations) : Prop where
  /-- What a step writes is at most the total. -/
  bounded : ∀ reached, ReflTransGen (Stepped fl rates) annotations reached → ∀ window toWeight,
    Promotion.decide rates (PromotionAnnotations.parse fl reached)
      (CanaryAnnotations.parse reached).weight window = .step toWeight →
    toWeight ≤ effectiveTotal (CanaryAnnotations.parse reached)
  /-- A canary that compiles does so after a step too. -/
  accepted : ∀ reached, ReflTransGen (Stepped fl rates) annotations reached → ∀ reached',
    Stepped fl rates reached reached' → ∀ backend owner protocol slot path draft,
    canaryDraft rx (canaryRulesOf ⟨backend, owner, CanaryAnnotations.parse reached, protocol⟩)
      slot path = .ok draft →
    ∃ draft', canaryDraft rx
      (canaryRulesOf ⟨backend, owner, CanaryAnnotations.parse reached', protocol⟩) slot path =
        .ok draft'
  /-- Where a hundred is the last step, a canary declared promoted takes every roll. -/
  promoted : (PromotionAnnotations.parse fl annotations).steps.getLast? = some 100 →
    ∀ reached, ReflTransGen (Stepped fl rates) annotations reached → ∀ window,
    Promotion.decide rates (PromotionAnnotations.parse fl reached)
      (CanaryAnnotations.parse reached).weight window = .promote →
    ∀ backend header,
      DivertsEveryRoll rx (servedSpec (CanaryAnnotations.parse reached) backend header)

/-- Every step still ahead of a canary is at most its total, and a total that is to be reached in a
hundred is no more than that, or than the weight the canary has. -/
def StepsFit (annotations : Annotations) : Prop :=
  let canary := CanaryAnnotations.parse annotations
  let steps := (PromotionAnnotations.parse fl annotations).steps
  (∀ step ∈ steps, canary.weight < step → step ≤ effectiveTotal canary) ∧
    (steps.getLast? = some 100 → effectiveTotal canary ≤ max canary.weight 100)

variable {fl rates}

private theorem agree_of_fit {annotations : Annotations} (h : StepsFit fl annotations) :
    StepsAgree fl rates rx annotations := by
  obtain ⟨hsteps, hlast⟩ := h
  have hbounded : ∀ reached, ReflTransGen (Stepped fl rates) annotations reached →
      ∀ window toWeight, Promotion.decide rates (PromotionAnnotations.parse fl reached)
        (CanaryAnnotations.parse reached).weight window = .step toWeight →
      toWeight ≤ effectiveTotal (CanaryAnnotations.parse reached) := by
    intro reached hrun window toWeight hdecide
    obtain ⟨hpolicy, htotal, hweight, -⟩ := reached_facts fl rates hrun
    obtain ⟨hstep, habove⟩ := PromoterSafety.step_above rates hdecide
    rw [hpolicy] at hstep
    rw [htotal]
    exact hsteps toWeight hstep (by omega)
  refine ⟨hbounded, ?_, ?_⟩
  · intro reached hrun reached' hmove backend owner protocol slot path draft hdraft
    obtain ⟨window, toWeight, hdecide, rfl⟩ := (stepped_iff fl rates).mp hmove
    have hle := hbounded reached hrun window toWeight hdecide
    have hstep := (PromoterSafety.step_above rates hdecide).1
    have hbound : toWeight ≤ U32_MAX :=
      ((policy_steps fl reached).2 toWeight hstep).trans (by decide)
    obtain ⟨hweight, htotal, hheader, hvalue, hpattern, hcookie⟩ := rules_reweighted reached hbound
    refine ⟨_, canaryDraft_reweighted rx hdraft ?_ ?_⟩
    · simp only [canaryRulesOf, htotal, hheader, hvalue, hpattern, hcookie]
    · simp only [canaryRulesOf, hweight, htotal]
      exact hle
  · intro hhundred reached hrun window hdecide backend header
    obtain ⟨hpolicy, htotal, hweight, hwhere⟩ := reached_facts fl rates hrun
    have hnone := (nextStep_of_decide rates).2 hdecide
    rw [hpolicy] at hnone
    have hfull : 100 ≤ (CanaryAnnotations.parse reached).weight := by
      have hnever := List.find?_eq_none.mp hnone 100 (List.mem_of_getLast? hhundred)
      simpa using hnever
    rw [divertsEveryRoll_iff, htotal]
    have htop := hlast hhundred
    rcases hwhere with hsame | hin
    · omega
    · have := (policy_steps fl annotations).2 _ hin
      omega

private theorem fit_of_agree (hcalm : Calm fl rates) {annotations : Annotations}
    (h : StepsAgree fl rates rx annotations) : StepsFit fl annotations := by
  constructor
  · intro step hstep habove
    obtain ⟨reached, hrun, window, hdecide⟩ := every_step_written hcalm hstep habove
    rw [← (reached_facts fl rates hrun).2.1]
    exact h.bounded reached hrun window step hdecide
  · intro hhundred
    -- A canary past its last step is promoted by the next healthy window.
    have hpromoted : ∀ reached, ReflTransGen (Stepped fl rates) annotations reached →
        100 ≤ (CanaryAnnotations.parse reached).weight →
        effectiveTotal (CanaryAnnotations.parse annotations) ≤
          (CanaryAnnotations.parse reached).weight := by
      intro reached hrun hfull
      have hnone : nextStep (PromotionAnnotations.parse fl reached)
          (CanaryAnnotations.parse reached).weight = none := by
        refine List.find?_eq_none.mpr fun step hstep => ?_
        have := (policy_steps fl reached).2 step hstep
        simp only [decide_eq_true_eq]
        omega
      have hquiet := decide_quiet hcalm reached (CanaryAnnotations.parse reached).weight
      rw [hnone] at hquiet
      have hdiverts := h.promoted hhundred reached hrun _ hquiet 0 none
      rw [divertsEveryRoll_iff, (reached_facts fl rates hrun).2.1] at hdiverts
      exact hdiverts
    by_cases hfull : 100 ≤ (CanaryAnnotations.parse annotations).weight
    · exact (hpromoted annotations .refl hfull).trans (le_max_left _ _)
    · obtain ⟨before, hrun, window, hdecide⟩ :=
        every_step_written hcalm (List.mem_of_getLast? hhundred) (Nat.not_le.mp hfull)
      have hmove : Stepped fl rates before
          (insert before ANNOTATION_CANARY_WEIGHT (decimal 100)) :=
        (stepped_iff fl rates).mpr ⟨window, 100, hdecide, rfl⟩
      have hweight := (rules_reweighted before (show 100 ≤ U32_MAX by decide)).1
      have hle := hpromoted _ (hrun.tail hmove) hweight.ge
      rw [hweight] at hle
      exact hle.trans (le_max_right _ _)

/-- The steps of a promotion agree with the total of its canary exactly when the steps still ahead
fit under it and its last step, where that is a hundred, fills it. -/
theorem steps_agree_iff (hcalm : Calm fl rates) (annotations : Annotations) :
    StepsAgree fl rates rx annotations ↔ StepsFit fl annotations :=
  ⟨fit_of_agree rx hcalm, agree_of_fit rx⟩

end Agreement

section Samples

open Ramjet.Ingressd.Rearming

/-- Reading whole numbers. -/
def wholeFloats : Floats Nat :=
  { parse := parseUnsigned U64_LIMIT, isFinite := fun _ => true, le := fun a b => a ≤ b
    zero := 0, one := 1, maxFailures := 1, maxLatency := 2, fixed6 := decimal }

theorem calm_whole : Calm wholeFloats wholeRates where
  fallback := rfl
  under limit requests _ _ := by simp [wholeRates]

/-- No expression matches. -/
def noRegex : RegexEngine := ⟨fun _ => true, fun _ _ => false⟩

/-- A canary that is to be promoted through the default steps. -/
def stagedCanary (weight total : Bytes) : Annotations :=
  [(ANNOTATION_CANARY, ascii "true"), (ANNOTATION_CANARY_WEIGHT, weight),
    (ANNOTATION_CANARY_WEIGHT_TOTAL, total), (ANNOTATION_AUTO_PROMOTE, ascii "true")]

/-- Out of a hundred the default steps agree. -/
theorem steps_agree_of_hundred :
    StepsAgree wholeFloats wholeRates noRegex (stagedCanary (ascii "5") (ascii "100")) :=
  (steps_agree_iff noRegex calm_whole _).mpr (by
    unfold StepsFit
    decide +kernel)

/-- Out of twenty they overshoot, and out of a thousand they stop at a tenth. -/
theorem steps_disagree :
    ¬ StepsAgree wholeFloats wholeRates noRegex (stagedCanary (ascii "10") (ascii "20")) ∧
      ¬ StepsAgree wholeFloats wholeRates noRegex (stagedCanary (ascii "100") (ascii "1000")) := by
  constructor
  · intro h
    have hstep := h.bounded _ .refl
      (quietWindow (PromotionAnnotations.parse wholeFloats (stagedCanary (ascii "10") (ascii "20"))))
      25 (by decide +kernel)
    exact absurd hstep (by decide +kernel)
  · intro h
    have hpromoted := h.promoted (by decide +kernel) _ .refl
      (quietWindow
        (PromotionAnnotations.parse wholeFloats (stagedCanary (ascii "100") (ascii "1000"))))
      (by decide +kernel) 0 none
    have hdiverted := hpromoted none none 500 (by decide +kernel) ⟨rfl, rfl⟩
    exact absurd hdiverted (by decide +kernel)

end Samples

end Ramjet.Ingressd.StepWeights
