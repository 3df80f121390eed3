/- digest: The annotation the controller writes back is read by no part of the translation. -/

import Ramjet.Controller.Feed

set_option autoImplicit false
set_option relaxedAutoImplicit false

namespace Ramjet.Controller.OwnWrites

open Ramjet.Base.Octets
open Ramjet.Base.Text
open Ramjet.Base.AssocMap
open Ramjet.Router.Balancing
open Ramjet.Router.Rule
open Ramjet.Router.Table
open Ramjet.Router.Builder
open Ramjet.Controller.Objects
open Ramjet.Controller.Annotations
open Ramjet.Controller.Config
open Ramjet.Controller.Endpoints
open Ramjet.Controller.Secrets
open Ramjet.Controller.Warnings
open Ramjet.Controller.Plan
open Ramjet.Controller.Translate

section Stripping

/-- Annotations without the one the controller writes. -/
def unobserved (annotations : Annotations) : Annotations :=
  retain annotations fun key => decide (key ≠ ANNOTATION_OBSERVED_GENERATION)

/-- An Ingress without the annotation the controller writes. -/
def strip (ingress : Ingress) : Ingress :=
  { ingress with metadata := { ingress.metadata with
      annotations := unobserved ingress.metadata.annotations } }

/-- A snapshot of Ingresses without the annotation the controller writes. -/
def stripped (snapshot : ClusterSnapshot) : ClusterSnapshot :=
  { snapshot with ingresses := snapshot.ingresses.map strip }

private theorem get_unobserved (annotations : Annotations) {key : Bytes}
    (hkey : key ≠ ANNOTATION_OBSERVED_GENERATION) :
    get (unobserved annotations) key = get annotations key := by
  simp [unobserved, get_retain, hkey]

private theorem getTrimmed_unobserved (annotations : Annotations) {key : Bytes}
    (hkey : key ≠ ANNOTATION_OBSERVED_GENERATION) :
    getTrimmed (unobserved annotations) key = getTrimmed annotations key := by
  rw [getTrimmed, get_unobserved annotations hkey, getTrimmed]

end Stripping

section Reading

variable (annotations : Annotations)

private theorem canaryNumber_unobserved {key : Bytes}
    (hkey : key ≠ ANNOTATION_OBSERVED_GENERATION) :
    canaryNumber (unobserved annotations) key = canaryNumber annotations key := by
  rw [canaryNumber, get_unobserved annotations hkey, canaryNumber]

private theorem canary_unobserved :
    CanaryAnnotations.parse (unobserved annotations) = CanaryAnnotations.parse annotations := by
  unfold CanaryAnnotations.parse
  simp (disch := decide) only [canaryNumber_unobserved, get_unobserved]

private theorem mirror_unobserved :
    MirrorAnnotations.parse (unobserved annotations) = MirrorAnnotations.parse annotations := by
  unfold MirrorAnnotations.parse mirrorPercent
  simp (disch := decide) only [getTrimmed_unobserved]

private theorem protocol_unobserved :
    BackendProtocolAnnotation.parse (unobserved annotations) =
      BackendProtocolAnnotation.parse annotations := by
  unfold BackendProtocolAnnotation.parse
  simp (disch := decide) only [getTrimmed_unobserved]

private theorem promotion_unobserved {F : Type} (fl : Floats F) :
    PromotionAnnotations.parse fl (unobserved annotations) =
      PromotionAnnotations.parse fl annotations := by
  unfold PromotionAnnotations.parse readOr
  simp (disch := decide) only [getTrimmed_unobserved]

end Reading

section Planning

private theorem classify_strip (filter : ClassFilter) (ingress : Ingress) :
    filter.classify (strip ingress) = filter.classify ingress := by
  unfold ClassFilter.classify strip
  simp (disch := decide) only [get_unobserved]

private theorem selectManaged_stripped (snapshot : ClusterSnapshot) (opts : ControllerOpts) :
    selectManaged (stripped snapshot) opts =
      ((selectManaged snapshot opts).1.map strip, (selectManaged snapshot opts).2) := by
  have hsorted : ∀ ingresses : List Ingress,
      (ingresses.map strip).insertionSort (fun a b => ageKey a ≤ ageKey b) =
        (ingresses.insertionSort fun a b => ageKey a ≤ ageKey b).map strip := fun ingresses =>
    (List.map_insertionSort _ _ strip ingresses fun _ _ _ _ => Iff.rfl).symm
  unfold selectManaged stripped
  simp only [List.filter_map, Function.comp_def, classify_strip, List.map_map, hsorted]
  rfl

private theorem partitionCanaries_stripped (managed : List Ingress) :
    partitionCanaries (managed.map strip) =
      ((partitionCanaries managed).1.map strip,
        (partitionCanaries managed).2.map (Prod.map strip id)) := by
  have hparsed : (managed.map strip).map (fun ingress =>
      (ingress, CanaryAnnotations.parse ingress.metadata.annotations)) =
        (managed.map fun ingress =>
          (ingress, CanaryAnnotations.parse ingress.metadata.annotations)).map (Prod.map strip id) := by
    rw [List.map_map, List.map_map]
    refine List.map_congr_left fun ingress _ => ?_
    simp [strip, canary_unobserved]
  unfold partitionCanaries
  rw [hparsed]
  simp only [List.filter_map, List.map_map]
  rfl

private theorem originOf_strip (ingress : Ingress) : originOf (strip ingress) = originOf ingress := by
  unfold originOf backendProtocol mirrorPlan strip
  simp only [protocol_unobserved, mirror_unobserved]
  rfl

private theorem planIngress_strip (p : Planning) (ingress : Ingress) :
    planIngress p (strip ingress) = planIngress p ingress := by
  unfold planIngress
  rw [originOf_strip]
  rfl

private theorem attachCanary_strip (state : Routes × List Warning)
    (canary : Ingress × CanaryAnnotations) :
    attachCanary state (Prod.map strip id canary) = attachCanary state canary := by
  obtain ⟨ingress, rules⟩ := canary
  unfold attachCanary backendProtocol canaryWarnings
  simp only [Prod.map, strip, protocol_unobserved, mirror_unobserved]
  rfl

/-- The plan of a stripped snapshot names the same objects, stripped. -/
private theorem planSnapshot_stripped (snapshot : ClusterSnapshot) (opts : ControllerOpts) :
    planSnapshot (stripped snapshot) opts =
      { planSnapshot snapshot opts with
        managed := (planSnapshot snapshot opts).managed.map strip
        canaries := (planSnapshot snapshot opts).canaries.map (Prod.map strip id) } := by
  unfold planSnapshot
  simp only [selectManaged_stripped, partitionCanaries_stripped, List.foldl_map,
    planIngress_strip, attachCanary_strip]

end Planning

section Whole

variable {F : Type} (fl : Floats F) (rx : RegexEngine)

private theorem registerCertificates_stripped (snapshot : ClusterSnapshot) (opts : ControllerOpts)
    (managed : List Ingress) (c : Compiling) :
    registerCertificates (stripped snapshot) opts (managed.map strip) c =
      registerCertificates snapshot opts managed c := by
  unfold registerCertificates
  simp only [List.foldl_map]
  rfl

private theorem collectPromotion_strip (routes : Routes)
    (state : List (PromotionTarget F) × Digest × List Warning)
    (canary : Ingress × CanaryAnnotations) :
    collectPromotion fl routes state (Prod.map strip id canary) =
      collectPromotion fl routes state canary := by
  obtain ⟨ingress, rules⟩ := canary
  unfold collectPromotion
  simp only [Prod.map, strip, promotion_unobserved]
  rfl

private theorem collectPromotions_strip (canaries : List (Ingress × CanaryAnnotations))
    (routes : Routes) (digest : Digest) (warnings : List Warning) :
    collectPromotions fl (canaries.map (Prod.map strip id)) routes digest warnings =
      collectPromotions fl canaries routes digest warnings := by
  unfold collectPromotions
  simp only [List.foldl_map, collectPromotion_strip]

/-- The annotation the controller writes changes nothing in a translation. -/
theorem translate_stripped (snapshot : ClusterSnapshot) (opts : ControllerOpts)
    (previous : Option RouteTable) :
    translate fl rx (stripped snapshot) opts previous = translate fl rx snapshot opts previous := by
  have hkeys : ∀ managed : List Ingress, ((managed.map strip).map fun ingress =>
      ObjectKey.of ingress.metadata) = managed.map fun ingress => ObjectKey.of ingress.metadata := by
    intro managed
    rw [List.map_map]
    rfl
  unfold Translate.translate
  simp only [planSnapshot_stripped, registerCertificates_stripped, collectPromotions_strip, hkeys]
  rfl

/-- Snapshots that differ in that annotation alone are translated alike. -/
theorem translate_congr {snapshot snapshot' : ClusterSnapshot}
    (h : stripped snapshot = stripped snapshot') (opts : ControllerOpts)
    (previous : Option RouteTable) :
    translate fl rx snapshot opts previous = translate fl rx snapshot' opts previous := by
  rw [← translate_stripped, h, translate_stripped]

end Whole

end Ramjet.Controller.OwnWrites
