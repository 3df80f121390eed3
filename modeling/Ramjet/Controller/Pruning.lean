/- digest: What a snapshot plans once its canary Ingresses or its mirror annotations are deleted. -/

import Ramjet.Base.Arrival
import Ramjet.Controller.Compiled

set_option autoImplicit false
set_option relaxedAutoImplicit false

namespace Ramjet.Controller.Pruning

open Ramjet.Base.Octets
open Ramjet.Base.AssocMap
open Ramjet.Base.Arrival
open Ramjet.Router.Balancing
open Ramjet.Controller.Objects
open Ramjet.Controller.Annotations
open Ramjet.Controller.Config
open Ramjet.Controller.Endpoints
open Ramjet.Controller.Warnings
open Ramjet.Controller.Plan
open Ramjet.Controller.Claims
open Ramjet.Controller.Translate
open Ramjet.Controller.Compiled

section Deleting

/-- The annotations that ask for a mirror. -/
def mirrorKeys : List Bytes :=
  [ANNOTATION_MIRROR_BACKEND, ANNOTATION_MIRROR_PERCENT, ANNOTATION_MIRROR_HOST]

/-- An Ingress, its mirror annotations kept or deleted. -/
def pruneIngress (mirrors : Bool) (ingress : Ingress) : Ingress :=
  if mirrors then ingress
  else
    { ingress with metadata := { ingress.metadata with
        annotations := retain ingress.metadata.annotations fun key => !mirrorKeys.contains key } }

def isCanary (ingress : Ingress) : Bool :=
  (CanaryAnnotations.parse ingress.metadata.annotations).enabled

/-- A snapshot, its canary Ingresses and its mirror annotations kept or deleted. -/
def pruned (canaries mirrors : Bool) (snapshot : ClusterSnapshot) : ClusterSnapshot :=
  { snapshot with
    ingresses := (snapshot.ingresses.filter fun ingress => canaries || !isCanary ingress).map
      (pruneIngress mirrors) }

def pruneOrigin (mirrors : Bool) (o : Origin) : Origin :=
  { o with mirror := if mirrors then o.mirror else none }

/-- A planned route, its canary and its mirror kept or deleted. -/
def prunePlan (canaries mirrors : Bool) (plan : RoutePlan) : RoutePlan :=
  { plan with
    canary := if canaries then plan.canary else none
    mirror := if mirrors then plan.mirror else none }

end Deleting

section Ingresses

variable (mirrors : Bool) (ingress : Ingress)

@[simp] theorem pruneIngress_spec : (pruneIngress mirrors ingress).spec = ingress.spec := by
  unfold pruneIngress
  split <;> rfl

@[simp] theorem pruneIngress_owner :
    ObjectKey.of (pruneIngress mirrors ingress).metadata = ObjectKey.of ingress.metadata := by
  unfold pruneIngress
  split <;> rfl

@[simp] theorem pruneIngress_ageKey : ageKey (pruneIngress mirrors ingress) = ageKey ingress := by
  unfold pruneIngress
  split <;> rfl

/-- The annotations read of an Ingress besides its mirror. -/
private def otherKeys : List Bytes :=
  [ANNOTATION_CANARY, ANNOTATION_CANARY_WEIGHT, ANNOTATION_CANARY_WEIGHT_TOTAL,
    ANNOTATION_CANARY_BY_HEADER, ANNOTATION_CANARY_BY_HEADER_VALUE,
    ANNOTATION_CANARY_BY_HEADER_PATTERN, ANNOTATION_CANARY_BY_COOKIE,
    ANNOTATION_BACKEND_PROTOCOL, ANNOTATION_LEGACY_CLASS]

private theorem otherKeys_kept : (otherKeys.all fun key => !mirrorKeys.contains key) = true := by
  decide +kernel

private theorem get_pruneIngress (key : Bytes) (hkey : key ∈ otherKeys) :
    get (pruneIngress mirrors ingress).metadata.annotations key =
      get ingress.metadata.annotations key := by
  have hkept := List.all_eq_true.mp otherKeys_kept key hkey
  unfold pruneIngress
  split
  · rfl
  · rw [get_retain, hkept, if_pos rfl]

@[simp] theorem pruneIngress_canary :
    CanaryAnnotations.parse (pruneIngress mirrors ingress).metadata.annotations =
      CanaryAnnotations.parse ingress.metadata.annotations := by
  have hget : ∀ key ∈ otherKeys, _ := fun key hkey => get_pruneIngress mirrors ingress key hkey
  simp only [otherKeys, List.forall_mem_cons] at hget
  simp only [CanaryAnnotations.parse, canaryNumber, hget]

theorem pruneIngress_protocol (owner : ObjectKey) :
    backendProtocol (pruneIngress mirrors ingress).metadata.annotations owner =
      backendProtocol ingress.metadata.annotations owner := by
  have hget := get_pruneIngress mirrors ingress ANNOTATION_BACKEND_PROTOCOL
    (by simp [otherKeys])
  simp only [backendProtocol, BackendProtocolAnnotation.parse, getTrimmed, hget]

theorem pruneIngress_classify (f : ClassFilter) :
    f.classify (pruneIngress mirrors ingress) = f.classify ingress := by
  have hget := get_pruneIngress mirrors ingress ANNOTATION_LEGACY_CLASS
    (by simp [otherKeys])
  simp only [ClassFilter.classify, hget, pruneIngress_spec]

private theorem mirrorPlan_pruned (ns : Bytes) (owner : ObjectKey) (protocol : BackendProtocol) :
    (mirrorPlan (pruneIngress mirrors ingress).metadata.annotations ns owner protocol).1 =
      if mirrors then (mirrorPlan ingress.metadata.annotations ns owner protocol).1 else none := by
  cases mirrors with
  | true => rfl
  | false =>
      have hnone : get (pruneIngress false ingress).metadata.annotations
          ANNOTATION_MIRROR_BACKEND = none := by
        have hgone : mirrorKeys.contains ANNOTATION_MIRROR_BACKEND = true := by
          simp [mirrorKeys]
        unfold pruneIngress
        rw [if_neg (by simp), get_retain, hgone, Bool.not_true, if_neg (by simp)]
      simp [mirrorPlan, MirrorAnnotations.parse, getTrimmed, hnone]

theorem originOf_pruned :
    (originOf (pruneIngress mirrors ingress)).1 = pruneOrigin mirrors (originOf ingress).1 := by
  simp only [originOf, pruneIngress_owner, pruneIngress_protocol, mirrorPlan_pruned, pruneOrigin]

end Ingresses

section Managed

variable (canaries mirrors : Bool) (snapshot : ClusterSnapshot) (opts : ControllerOpts)

theorem selectManaged_pruned :
    (selectManaged (pruned canaries mirrors snapshot) opts).1 =
      ((selectManaged snapshot opts).1.filter fun ingress => canaries || !isCanary ingress).map
        (pruneIngress mirrors) := by
  have hclass : ∀ ingress : Ingress,
      (ClassFilter.new snapshot.ingressClasses opts.className).classify
        (pruneIngress mirrors ingress) =
      (ClassFilter.new snapshot.ingressClasses opts.className).classify ingress :=
    fun ingress => pruneIngress_classify mirrors ingress _
  simp only [selectManaged, pruned]
  rw [List.filter_map, ← List.map_insertionSort (r := fun a b => ageKey a ≤ ageKey b)
    (s := fun a b => ageKey a ≤ ageKey b), filter_insertionSort, filter_insertionSort,
    filter_insertionSort, List.filter_filter, List.filter_filter]
  · simp only [Function.comp_def, hclass, Bool.and_comm]
  · intro a _ b _
    simp

private theorem partitioned_pruned :
    partitionCanaries (selectManaged (pruned canaries mirrors snapshot) opts).1 =
      ((partitionCanaries (selectManaged snapshot opts).1).1.map (pruneIngress mirrors),
        if canaries then
          (partitionCanaries (selectManaged snapshot opts).1).2.map fun c =>
            (pruneIngress mirrors c.1, c.2)
        else []) := by
  rw [selectManaged_pruned]
  generalize (selectManaged snapshot opts).1 = managed
  unfold partitionCanaries
  refine Prod.ext ?_ ?_
  · simp only [List.map_map, List.filter_map, List.filter_filter, Function.comp_def,
      pruneIngress_canary]
    congr 1
    refine List.filter_congr fun ingress _ => ?_
    cases canaries <;> simp [isCanary]
  · cases canaries with
    | true =>
        simp [List.filter_map, Function.comp_def]
    | false =>
        simp [List.filter_map, Function.comp_def, isCanary]

end Managed

section Planned

variable (canaries mirrors : Bool)

/-- One planning follows another whose routes have more parts. -/
structure Follows (p p' : Planning) : Prop where
  routes : ∀ k, get p'.routes k = (get p.routes k).map (prunePlan canaries mirrors)
  fallbacks : p'.fallbacks = p.fallbacks.map (prunePlan canaries mirrors)
  globalDefault : p'.globalDefault = p.globalDefault

variable {canaries mirrors} {p p' : Planning}

private theorem Follows.warn (h : Follows canaries mirrors p p') (ws ws' : List Warning) :
    Follows canaries mirrors (p.warn ws) (p'.warn ws') := ⟨h.routes, h.fallbacks, h.globalDefault⟩

private theorem prunePlan_plan (canaries mirrors : Bool) (o : Origin) (key : RouteKey) (backend : ServiceRef) :
    prunePlan canaries mirrors (o.plan key backend) =
      (pruneOrigin mirrors o).plan key backend := by
  unfold prunePlan Origin.plan pruneOrigin
  cases canaries <;> rfl

private theorem Follows.claim (h : Follows canaries mirrors p p') (plan : RoutePlan) :
    Follows canaries mirrors (p.claim plan) (p'.claim (prunePlan canaries mirrors plan)) := by
  have hkey : (prunePlan canaries mirrors plan).key = plan.key := rfl
  have hheld := h.routes plan.key
  unfold Planning.claim
  rw [hkey, hheld]
  cases get p.routes plan.key with
  | some held => exact h.warn _ _
  | none =>
      refine ⟨fun k => ?_, h.fallbacks, h.globalDefault⟩
      dsimp only [Option.map_none]
      rw [get_insert, get_insert, h.routes]
      split <;> rfl

private theorem Follows.entry (h : Follows canaries mirrors p p') (o : Origin)
    (entry : Option Bytes × HTTPIngressPath) :
    Follows canaries mirrors (planEntry o p entry) (planEntry (pruneOrigin mirrors o) p' entry) := by
  have howner : (pruneOrigin mirrors o).owner = o.owner := rfl
  unfold planEntry
  rw [howner]
  dsimp only
  split
  · exact h.warn _ _
  · rw [← prunePlan_plan canaries]
    exact (h.warn _ _).claim _

private theorem Follows.entries (h : Follows canaries mirrors p p') (o : Origin)
    (entries : List (Option Bytes × HTTPIngressPath)) :
    Follows canaries mirrors (entries.foldl (planEntry o) p)
      (entries.foldl (planEntry (pruneOrigin mirrors o)) p') := by
  induction entries generalizing p p' with
  | nil => exact h
  | cons entry rest ih => exact ih (h.entry o entry)

private theorem Follows.default (h : Follows canaries mirrors p p') (o : Origin)
    (spec : IngressSpec) :
    Follows canaries mirrors (planDefault o spec p)
      (planDefault (pruneOrigin mirrors o) spec p') := by
  have howner : (pruneOrigin mirrors o).owner = o.owner := rfl
  unfold planDefault
  rw [howner]
  split
  · exact h
  · dsimp only
    split
    · exact h.warn _ _
    · split
      · rename_i target _ _
        have hdefault := h.globalDefault
        simp only [Planning.warn] at hdefault ⊢
        rw [hdefault]
        split
        · exact ⟨h.routes, h.fallbacks, rfl⟩
        · exact ⟨h.routes, h.fallbacks, rfl⟩
      · refine ⟨h.routes, ?_, h.globalDefault⟩
        have hfallbacks := h.fallbacks
        simp only [Planning.warn] at hfallbacks ⊢
        rw [hfallbacks, List.map_append, List.map_map]
        simp only [Function.comp_def, prunePlan_plan]

private theorem Follows.ingress (h : Follows canaries mirrors p p') (ingress : Ingress) :
    Follows canaries mirrors (planIngress p ingress)
      (planIngress p' (pruneIngress mirrors ingress)) := by
  unfold planIngress
  rw [pruneIngress_spec]
  cases ingress.spec with
  | none => exact h
  | some spec =>
      dsimp only
      rw [originOf_pruned]
      exact ((h.warn _ _).entries _ _).default _ _

private theorem Follows.ingresses (h : Follows canaries mirrors p p') (ingresses : List Ingress) :
    Follows canaries mirrors (ingresses.foldl planIngress p)
      ((ingresses.map (pruneIngress mirrors)).foldl planIngress p') := by
  induction ingresses generalizing p p' with
  | nil => exact h
  | cons ingress rest ih => exact ih (h.ingress ingress)

/-- Routes that follow others go on doing so once the fallbacks are in. -/
private theorem follows_fallbacks {routes routes' : Routes} (fallbacks : List RoutePlan)
    (h : ∀ k, get routes' k = (get routes k).map (prunePlan canaries mirrors)) (k : RouteKey) :
    get (applyFallbacks routes' (fallbacks.map (prunePlan canaries mirrors))) k =
      (get (applyFallbacks routes fallbacks) k).map (prunePlan canaries mirrors) := by
  induction fallbacks generalizing routes routes' with
  | nil => exact h k
  | cons plan rest ih =>
      refine ih fun k => ?_
      dsimp only
      have hkey : (prunePlan canaries mirrors plan).key = plan.key := rfl
      have htaken : contains routes' plan.key = contains routes plan.key := by
        unfold Base.AssocMap.contains
        rw [h, Option.isSome_map]
      rw [hkey, htaken]
      split
      · exact h k
      · rw [get_insert, get_insert, h]
        split <;> rfl

/-- Routes that keep their canaries take the same canaries. -/
private theorem follows_attachEntry (owner : ObjectKey) (rules : CanaryAnnotations)
    (protocol : BackendProtocol) (entry : Option Bytes × HTTPIngressPath)
    {s s' : Routes × List Warning}
    (h : ∀ k, get s'.1 k = (get s.1 k).map (prunePlan true mirrors)) (k : RouteKey) :
    get (attachEntry owner rules protocol s' entry).1 k =
      (get (attachEntry owner rules protocol s entry).1 k).map (prunePlan true mirrors) := by
  unfold attachEntry
  dsimp only
  split
  · exact h k
  · rename_i key backend _
    rw [h key]
    cases get s.1 key with
    | none => exact h k
    | some plan =>
        dsimp only [Option.map_some]
        have hcanary : (prunePlan true mirrors plan).canary = plan.canary := rfl
        rw [hcanary]
        cases plan.canary with
        | some held => exact h k
        | none =>
            dsimp only
            rw [get_insert, get_insert, h]
            split <;> rfl

private theorem follows_attachCanary (canary : Ingress × CanaryAnnotations)
    {s s' : Routes × List Warning}
    (h : ∀ k, get s'.1 k = (get s.1 k).map (prunePlan true mirrors)) (k : RouteKey) :
    get (attachCanary s' (pruneIngress mirrors canary.1, canary.2)).1 k =
      (get (attachCanary s canary).1 k).map (prunePlan true mirrors) := by
  unfold attachCanary
  dsimp only
  rw [pruneIngress_spec, pruneIngress_owner]
  cases canary.1.spec with
  | none => exact h k
  | some spec =>
      dsimp only
      rw [pruneIngress_protocol]
      have hentries : ∀ (entries : List (Option Bytes × HTTPIngressPath))
          (s s' : Routes × List Warning),
          (∀ k, get s'.1 k = (get s.1 k).map (prunePlan true mirrors)) → ∀ k,
            get (entries.foldl (attachEntry (.of canary.1.metadata) canary.2
              (backendProtocol canary.1.metadata.annotations (.of canary.1.metadata)).1) s').1 k =
            (get (entries.foldl (attachEntry (.of canary.1.metadata) canary.2
              (backendProtocol canary.1.metadata.annotations (.of canary.1.metadata)).1) s).1 k).map
                (prunePlan true mirrors) := by
        intro entries
        induction entries with
        | nil => exact fun s s' h => h
        | cons entry rest ih => exact fun s s' h => ih _ _ (follows_attachEntry _ _ _ entry h)
      refine hentries (entriesOf spec) (s.1, _) (s'.1, _) ?_ k
      exact h

private theorem follows_attached (attached : List (Ingress × CanaryAnnotations))
    {s s' : Routes × List Warning}
    (h : ∀ k, get s'.1 k = (get s.1 k).map (prunePlan true mirrors)) (k : RouteKey) :
    get ((attached.map fun c => (pruneIngress mirrors c.1, c.2)).foldl attachCanary s').1 k =
      (get (attached.foldl attachCanary s).1 k).map (prunePlan true mirrors) := by
  induction attached generalizing s s' with
  | nil => exact h k
  | cons canary rest ih => exact ih (follows_attachCanary canary h)

private theorem prunePlan_bare (plan : RoutePlan) :
    prunePlan false mirrors (bare plan) = prunePlan false mirrors plan := rfl

variable (canaries mirrors) (snapshot : ClusterSnapshot) (opts : ControllerOpts)

/-- A pruned snapshot plans the same routes without the deleted parts, and the same default. -/
theorem planSnapshot_pruned :
    (∀ k, get (planSnapshot (pruned canaries mirrors snapshot) opts).routes k =
      (get (planSnapshot snapshot opts).routes k).map (prunePlan canaries mirrors)) ∧
    (planSnapshot (pruned canaries mirrors snapshot) opts).defaultBackend =
      (planSnapshot snapshot opts).defaultBackend := by
  have hstart : Follows canaries mirrors { warnings := (selectManaged snapshot opts).2 }
      { warnings := (selectManaged (pruned canaries mirrors snapshot) opts).2 } :=
    ⟨fun _ => rfl, rfl, rfl⟩
  have hparts := partitioned_pruned canaries mirrors snapshot opts
  have hplanned := hstart.ingresses (partitionCanaries (selectManaged snapshot opts).1).1
  have hrouted := follows_fallbacks
    ((partitionCanaries (selectManaged snapshot opts).1).1.foldl planIngress
      { warnings := (selectManaged snapshot opts).2 }).fallbacks hplanned.routes
  simp only [planSnapshot, hparts]
  refine ⟨fun k => ?_, by rw [hplanned.globalDefault]⟩
  rw [hplanned.fallbacks]
  cases canaries with
  | true => exact follows_attached _ hrouted k
  | false =>
      have hattached := (attached_canaries (partitionCanaries (selectManaged snapshot opts).1).2
        (applyFallbacks ((partitionCanaries (selectManaged snapshot opts).1).1.foldl planIngress
          { warnings := (selectManaged snapshot opts).2 }).routes
          ((partitionCanaries (selectManaged snapshot opts).1).1.foldl planIngress
            { warnings := (selectManaged snapshot opts).2 }).fallbacks,
          ((partitionCanaries (selectManaged snapshot opts).1).1.foldl planIngress
            { warnings := (selectManaged snapshot opts).2 }).warnings)).routes k
      have hbare := congrArg (Option.map (prunePlan false mirrors)) hattached
      simp only [Option.map_map, Function.comp_def, prunePlan_bare] at hbare
      refine (hrouted k).trans ?_
      exact hbare.symm

theorem mem_plans_pruned (plan' : RoutePlan) :
    plan' ∈ plans (pruned canaries mirrors snapshot) opts ↔
      ∃ plan ∈ plans snapshot opts, plan' = prunePlan canaries mirrors plan := by
  rw [mem_plans_iff, (planSnapshot_pruned canaries mirrors snapshot opts).1,
    Option.map_eq_some_iff]
  constructor
  · rintro ⟨plan, hplan, rfl⟩
    have hkey : plan.key = (prunePlan canaries mirrors plan).key := rfl
    exact ⟨plan, (mem_plans_iff snapshot opts plan).mpr (hkey ▸ hplan), rfl⟩
  · rintro ⟨plan, hplan, rfl⟩
    exact ⟨plan, (mem_plans_iff snapshot opts plan).mp hplan, rfl⟩

/-- What a pruned snapshot names, the whole one names. -/
theorem references_of_pruned {target : ServiceRef}
    (h : References (pruned canaries mirrors snapshot) opts target) :
    References snapshot opts target := by
  rcases h with ⟨plan', hplan', claim, hclaim, htarget⟩ | hdefault
  · obtain ⟨plan, hplan, rfl⟩ := (mem_plans_pruned canaries mirrors snapshot opts plan').mp hplan'
    refine Or.inl ⟨plan, hplan, claim, ?_, htarget⟩
    simp only [claimsOf, prunePlan, List.mem_cons, List.mem_append, List.mem_map,
      Option.mem_toList] at hclaim ⊢
    rcases hclaim with hroute | ⟨c, hc, rfl⟩ | ⟨m, hm, rfl⟩
    · exact Or.inl hroute
    · refine Or.inr (Or.inl ⟨c, ?_, rfl⟩)
      split at hc
      · exact hc
      · cases hc
    · refine Or.inr (Or.inr ⟨m, ?_, rfl⟩)
      split at hm
      · exact hm
      · cases hm
  · refine Or.inr ?_
    rwa [(planSnapshot_pruned canaries mirrors snapshot opts).2] at hdefault

end Planned

end Ramjet.Controller.Pruning
