/- digest: Which Service ports the table references, who decides how each is dialled, and who is told. -/

import Ramjet.Controller.Translate

set_option autoImplicit false
set_option relaxedAutoImplicit false

namespace Ramjet.Controller.BackendClaims

open Ramjet.Base.AssocMap
open Ramjet.Router.Balancing
open Ramjet.Controller.Endpoints
open Ramjet.Controller.Config
open Ramjet.Controller.Warnings
open Ramjet.Controller.Plan
open Ramjet.Controller.Translate

section Claims

/-- Every claim on a Service port, in the order the routes are registered in. -/
def claims (routes : Routes) : List BackendClaim := (sortedPlans routes).flatMap claimsOf

/-- The first claim on a Service port. -/
def holder (cs : List BackendClaim) (target : ServiceRef) : Option BackendClaim :=
  cs.find? fun c => c.target = target

/-- What is said about a claim: it asked for another protocol than the one held. -/
def refusal (cs : List BackendClaim) (c : BackendClaim) : Option Warning :=
  match holder cs c.target with
  | some first =>
      if first.protocol = c.protocol then none
      else some ⟨c.owner, .protocolTaken c.target first.protocol c.protocol⟩
  | none => none

theorem holder_append (cs rest : List BackendClaim) (target : ServiceRef) :
    holder (cs ++ rest) target = (holder cs target).or (holder rest target) :=
  List.find?_append

theorem claimBackend_fst (state : Backends × List Warning) (c : BackendClaim) :
    (claimBackend state c).1 = claim state.1 c.target c.protocol := by
  unfold claimBackend claim contains
  cases hget : get state.1 c.target with
  | none => rfl
  | some held =>
      dsimp only [Option.isSome_some, if_true]
      split <;> rfl

theorem claimed_backends (cs : List BackendClaim) (state : Backends × List Warning) :
    (cs.foldl claimBackend state).1 = claimEach (·.target) (·.protocol) state.1 cs := by
  induction cs generalizing state with
  | nil => rfl
  | cons c rest ih =>
      rw [List.foldl_cons, ih, claimBackend_fst]
      rfl

/-- A claim is spoken of exactly when the port is held for another protocol. -/
theorem claimBackend_snd {m : Backends} {cs : List BackendClaim}
    (hm : ∀ target, get m target = (holder cs target).map (·.protocol)) (c : BackendClaim)
    (ws : List Warning) :
    (claimBackend (m, ws) c).2 = ws ++ (refusal (cs ++ [c]) c).toList := by
  have hself : holder [c] c.target = some c := by simp [holder]
  unfold claimBackend refusal
  rw [hm c.target, holder_append, hself]
  cases holder cs c.target with
  | none => simp
  | some first =>
      simp only [Option.map_some, Option.some_or]
      split <;> simp

/-- A claim made later changes nothing for the ones before it. -/
theorem refusal_append {cs : List BackendClaim} {c : BackendClaim} (hc : c ∈ cs)
    (rest : List BackendClaim) : refusal (cs ++ rest) c = refusal cs c := by
  have hsome : (holder cs c.target).isSome := by
    unfold holder
    rw [List.find?_isSome]
    exact ⟨c, hc, by simp⟩
  obtain ⟨first, hfirst⟩ := Option.isSome_iff_exists.mp hsome
  unfold refusal
  rw [holder_append, hfirst, Option.some_or]

theorem claimed_warnings (rest cs : List BackendClaim) {m : Backends}
    (hm : ∀ target, get m target = (holder cs target).map (·.protocol)) (ws : List Warning) :
    (rest.foldl claimBackend (m, ws)).2 = ws ++ rest.filterMap (refusal (cs ++ rest)) := by
  induction rest generalizing cs m ws with
  | nil => simp
  | cons c rest ih =>
      have hnext : ∀ target, get (claimBackend (m, ws) c).1 target =
          (holder (cs ++ [c]) target).map (·.protocol) := by
        intro target
        rw [claimBackend_fst, get_claim, hm target, holder_append]
        cases holder cs target with
        | some first => rfl
        | none =>
            by_cases htarget : c.target = target
            · simp [holder, htarget]
            · simp [holder, htarget]
      have hfirst : refusal (cs ++ c :: rest) c = refusal (cs ++ [c]) c := by
        have hlast : c ∈ cs ++ [c] := List.mem_append_right _ (List.mem_singleton.mpr rfl)
        have happend := refusal_append hlast rest
        rwa [List.append_assoc] at happend
      have hih := ih (cs ++ [c]) hnext (claimBackend (m, ws) c).2
      rw [List.append_assoc, List.singleton_append] at hih
      rw [List.foldl_cons, hih, claimBackend_snd hm, List.append_assoc, List.filterMap_cons, hfirst]
      cases refusal (cs ++ [c]) c <;> rfl

end Claims

section Arbitration

/-- A Service port that some route, canary, mirror or the default backend names. -/
def Named (routes : Routes) (defaultBackend : Option ServiceRef) (target : ServiceRef) : Prop :=
  defaultBackend = some target ∨ ∃ plan ∈ routes.map (·.2), plan.backend = target ∨
    (∃ canary, plan.canary = some canary ∧ canary.backend = target) ∨
    ∃ mirror, plan.mirror = some mirror ∧ mirror.backend = target

/-- What arbitration owes: every named port and no other, dialled as its first claim asked, and
every claim refused told so. -/
structure Arbitrated (routes : Routes) (defaultBackend : Option ServiceRef)
    (result : Backends × List Warning) : Prop where
  planned : List.Perm (sortedPlans routes) (routes.map (·.2))
  ordered : (sortedPlans routes).Pairwise fun a b => a.key.sortKey ≤ b.key.sortKey
  once : (result.1.map (·.1)).Nodup
  named : ∀ target, target ∈ result.1.map (·.1) ↔ Named routes defaultBackend target
  first : ∀ target c, holder (claims routes) target = some c →
    get result.1 target = some c.protocol
  unspoken : ∀ target, holder (claims routes) target = none → defaultBackend = some target →
    get result.1 target = some .http1
  refused : result.2 = (claims routes).filterMap (refusal (claims routes))

theorem mem_claims (routes : Routes) (target : ServiceRef) :
    (∃ c ∈ claims routes, c.target = target) ↔ Named routes none target := by
  have hplans : ∀ plan, plan ∈ sortedPlans routes ↔ plan ∈ routes.map (·.2) := fun plan =>
    (List.perm_insertionSort _ _).mem_iff
  have hof : ∀ plan : RoutePlan, (∃ c ∈ claimsOf plan, c.target = target) ↔
      plan.backend = target ∨ (∃ canary, plan.canary = some canary ∧ canary.backend = target) ∨
        ∃ mirror, plan.mirror = some mirror ∧ mirror.backend = target := by
    intro plan
    simp only [claimsOf, List.mem_cons, List.mem_append, List.mem_map, Option.mem_toList]
    constructor
    · rintro ⟨c, rfl | ⟨canary, hcanary, rfl⟩ | ⟨mirror, hmirror, rfl⟩, htarget⟩
      · exact .inl htarget
      · exact .inr (.inl ⟨canary, hcanary, htarget⟩)
      · exact .inr (.inr ⟨mirror, hmirror, htarget⟩)
    · rintro (htarget | ⟨canary, hcanary, htarget⟩ | ⟨mirror, hmirror, htarget⟩)
      · exact ⟨_, .inl rfl, htarget⟩
      · exact ⟨_, .inr (.inl ⟨canary, hcanary, rfl⟩), htarget⟩
      · exact ⟨_, .inr (.inr ⟨mirror, hmirror, rfl⟩), htarget⟩
  unfold claims Named
  constructor
  · rintro ⟨c, hc, htarget⟩
    obtain ⟨plan, hplan, hc⟩ := List.mem_flatMap.mp hc
    exact .inr ⟨plan, (hplans plan).mp hplan, (hof plan).mp ⟨c, hc, htarget⟩⟩
  · rintro (hnone | ⟨plan, hplan, hnamed⟩)
    · cases hnone
    · obtain ⟨c, hc, htarget⟩ := (hof plan).mpr hnamed
      exact ⟨c, List.mem_flatMap.mpr ⟨plan, (hplans plan).mpr hplan, hc⟩, htarget⟩

theorem holder_isSome_iff (cs : List BackendClaim) (target : ServiceRef) :
    (holder cs target).isSome ↔ ∃ c ∈ cs, c.target = target := by
  unfold holder
  rw [List.find?_isSome]
  simp

/-- Every Service port a route, canary, mirror or the default backend names is returned once,
dialled as the first claim on it asked; each later claim that asked otherwise is refused. -/
theorem collectBackends_arbitrated (routes : Routes) (defaultBackend : Option ServiceRef) :
    Arbitrated routes defaultBackend (collectBackends routes defaultBackend) := by
  have hget : ∀ target, get ((claims routes).foldl claimBackend ([], [])).1 target =
      (holder (claims routes) target).map (·.protocol) := by
    intro target
    rw [claimed_backends, get_claimEach]
    rfl
  have hwarnings : ((claims routes).foldl claimBackend ([], [])).2 =
      (claims routes).filterMap (refusal (claims routes)) :=
    claimed_warnings (claims routes) [] (fun _ => rfl) []
  have hnodup : ((((claims routes).foldl claimBackend ([], [])).1).map (·.1)).Nodup := by
    rw [claimed_backends]
    exact nodup_keys_claimEach _ _ _ List.nodup_nil
  have hplain : collectBackends routes none = (claims routes).foldl claimBackend ([], []) := rfl
  have hnamed : ∀ target, collectBackends routes (some target) =
      (claim ((claims routes).foldl claimBackend ([], [])).1 target .http1,
        ((claims routes).foldl claimBackend ([], [])).2) := by
    intro target
    unfold collectBackends claim
    dsimp only
    by_cases held : contains ((claims routes).foldl claimBackend ([], [])).1 target
    · rw [if_pos held]
      exact if_pos held
    · rw [if_neg held]
      exact if_neg held
  have hgets : ∀ target, get (collectBackends routes defaultBackend).1 target =
      ((holder (claims routes) target).map (·.protocol)).or
        (if defaultBackend = some target then some .http1 else none) := by
    intro target
    cases defaultBackend with
    | none =>
        rw [hplain]
        simpa using hget target
    | some d =>
        rw [hnamed]
        dsimp only
        rw [get_claim, hget target]
        simp
  constructor
  · exact List.perm_insertionSort _ _
  · have htotal : Std.Total fun a b : RoutePlan => a.key.sortKey ≤ b.key.sortKey :=
      ⟨fun a b => le_total a.key.sortKey b.key.sortKey⟩
    have htrans : IsTrans RoutePlan fun a b => a.key.sortKey ≤ b.key.sortKey :=
      ⟨fun _ _ _ => le_trans⟩
    exact List.pairwise_insertionSort _ _
  · cases defaultBackend with
    | none => exact hnodup
    | some target => exact (hnamed target).symm ▸ nodup_keys_claim hnodup target .http1
  · intro target
    rw [← get_isSome_iff, hgets target]
    have hclaimed := (holder_isSome_iff (claims routes) target).trans (mem_claims routes target)
    have hsplit : Named routes defaultBackend target ↔
        defaultBackend = some target ∨ Named routes none target := by
      simp [Named]
    rw [hsplit, ← hclaimed]
    cases holder (claims routes) target with
    | some first => simp
    | none => simp
  · intro target c hc
    rw [hgets target, hc]
    rfl
  · intro target hnone hdefault
    rw [hgets target, hnone, if_pos hdefault]
    rfl
  · cases defaultBackend with
    | none => exact hwarnings
    | some target => exact (hnamed target).symm ▸ hwarnings

end Arbitration

end Ramjet.Controller.BackendClaims
