/- digest: A translation is the same for every order in which the cluster's objects arrive. -/

import Ramjet.Base.Arrival
import Ramjet.Controller.Feed
import Ramjet.Router.RoutingAgreement

set_option autoImplicit false
set_option relaxedAutoImplicit false

namespace Ramjet.Controller.ArrivalOrder

open Ramjet.Base.Octets
open Ramjet.Base.Text
open Ramjet.Base.Net
open Ramjet.Base.Outcome
open Ramjet.Base.AssocMap
open Ramjet.Base.Arrival
open Ramjet.Router.Balancing
open Ramjet.Router.Rule
open Ramjet.Router.Table
open Ramjet.Router.Builder
open Ramjet.Router.BuiltTable
open Ramjet.Router.RoutingAgreement (literalEngine)
open Ramjet.Controller.Objects
open Ramjet.Controller.Annotations
open Ramjet.Controller.Config
open Ramjet.Controller.Endpoints
open Ramjet.Controller.Secrets
open Ramjet.Controller.Warnings
open Ramjet.Controller.Plan
open Ramjet.Controller.Translate
open Ramjet.Controller.Registration
open Ramjet.Controller.Compiled
open Ramjet.Controller.Feed

section Snapshots

/-- The same objects in another order of arrival. -/
structure Permuted (s s' : ClusterSnapshot) : Prop where
  ingresses : s.ingresses.Perm s'.ingresses
  ingressClasses : s.ingressClasses.Perm s'.ingressClasses
  services : s.services.Perm s'.services
  endpointSlices : s.endpointSlices.Perm s'.endpointSlices
  secrets : s.secrets.Perm s'.secrets

/-- Namespace and name tell the objects of each kind apart. -/
structure Named (s : ClusterSnapshot) : Prop where
  ingresses : (s.ingresses.map fun i => ObjectKey.of i.metadata).Nodup
  ingressClasses : (s.ingressClasses.map fun c => ObjectKey.of c.metadata).Nodup
  services : (s.services.map fun x => ObjectKey.of x.metadata).Nodup
  endpointSlices : (s.endpointSlices.map fun x => ObjectKey.of x.metadata).Nodup
  secrets : (s.secrets.map fun x => ObjectKey.of x.metadata).Nodup

end Snapshots

section Indexes

/-- The namespace and name of an object that has both. -/
def nameKey (m : ObjectMeta) : Option (Bytes × Bytes) :=
  m.namespace_.bind fun ns => m.name.map fun name => (ns, name)

theorem objectKey_of_nameKey {m : ObjectMeta} {k : Bytes × Bytes}
    (h : nameKey m = some k) : ObjectKey.of m = ⟨k.1, k.2⟩ := by
  obtain ⟨ns, hns, h⟩ := Option.bind_eq_some_iff.mp h
  obtain ⟨name, hname, rfl⟩ := Option.map_eq_some_iff.mp h
  simp [ObjectKey.of, hns, hname]

private theorem secretIndex_eq (secrets : List Secret) :
    SecretIndex.new secrets = indexBy (fun s => nameKey s.metadata) secrets := by
  unfold SecretIndex.new indexBy
  congr 1
  funext m secret
  unfold fileBy nameKey
  cases hns : secret.metadata.namespace_ <;> cases hname : secret.metadata.name <;>
    simp [hns, hname]

theorem indexServices_eq (services : List Service) :
    indexServices services = indexBy (fun s => nameKey s.metadata) services := by
  unfold indexServices indexBy
  congr 1
  funext m service
  unfold fileBy nameKey
  cases hns : service.metadata.namespace_ <;> cases hname : service.metadata.name <;>
    simp [hns, hname]

theorem get_named_perm {α : Type} {metadata : α → ObjectMeta} {xs ys : List α}
    (hperm : xs.Perm ys) (hnodup : (xs.map fun x => ObjectKey.of (metadata x)).Nodup)
    (k : Bytes × Bytes) : get (indexBy (fun x => nameKey (metadata x)) xs) k =
      get (indexBy (fun x => nameKey (metadata x)) ys) k := by
  refine get_indexBy_perm hperm (fun a ha b hb l hka hkb => ?_) k
  refine List.inj_on_of_nodup_map hnodup ha hb ?_
  rw [objectKey_of_nameKey hka, objectKey_of_nameKey hkb]

theorem material_perm {xs ys : List Secret} (hperm : xs.Perm ys)
    (hnodup : (xs.map fun x => ObjectKey.of x.metadata).Nodup) :
    (SecretIndex.new xs).material = (SecretIndex.new ys).material := by
  funext ns name
  unfold SecretIndex.material
  rw [secretIndex_eq, secretIndex_eq, get_named_perm hperm hnodup]

/-- Whether a slice belongs to a Service. -/
def sliceOf (k : Bytes × Bytes) (slice : EndpointSlice) : Bool :=
  slice.metadata.namespace_ == some k.1 && get slice.metadata.labels SERVICE_NAME_LABEL == some k.2

theorem get_indexSlices (slices : List EndpointSlice) (k : Bytes × Bytes) :
    (get (indexSlices slices) k).getD [] = slices.filter (sliceOf k) := by
  induction slices using List.reverseRecOn with
  | nil => rfl
  | append_singleton slices slice ih =>
      rw [List.filter_append, ← ih]
      cases hns : slice.metadata.namespace_ with
      | none => simp [indexSlices, sliceOf, hns]
      | some ns =>
          cases hlabel : get slice.metadata.labels SERVICE_NAME_LABEL with
          | none => simp [indexSlices, sliceOf, hns, hlabel]
          | some service =>
              have hlast : indexSlices (slices ++ [slice]) =
                  insert (indexSlices slices) (ns, service)
                    ((get (indexSlices slices) (ns, service)).getD [] ++ [slice]) := by
                simp [indexSlices, hns, hlabel]
              rw [hlast, get_insert]
              by_cases hk : k = (ns, service)
              · subst hk
                simp [sliceOf, hns, hlabel]
              · have hout : sliceOf k slice = false := by
                  rw [Bool.eq_false_iff]
                  intro hin
                  simp only [sliceOf, hns, hlabel, Bool.and_eq_true, beq_iff_eq,
                    Option.some.injEq] at hin
                  exact hk (Prod.ext hin.1.symm hin.2.symm)
                simp [hout, hk]

private theorem slicesOf_perm {xs ys : List EndpointSlice} (hperm : xs.Perm ys)
    (k : Bytes × Bytes) :
    ((get (indexSlices xs) k).getD []).Perm ((get (indexSlices ys) k).getD []) := by
  rw [get_indexSlices, get_indexSlices]
  exact hperm.filter _

theorem sortKey_injective {a b : SocketAddr} (ha : a.scopeId = 0) (hb : b.scopeId = 0)
    (h : a.sortKey = b.sortKey) : a = b := by
  have htoNat8 : Function.Injective UInt8.toNat := fun _ _ => UInt8.toNat_inj.mp
  have htoNat16 : Function.Injective UInt16.toNat := fun _ _ => UInt16.toNat_inj.mp
  obtain ⟨ip, port, scope⟩ := a
  obtain ⟨ip', port', scope'⟩ := b
  obtain rfl : scope = 0 := ha
  obtain rfl : scope' = 0 := hb
  cases ip with
  | v4 octets =>
      cases ip' with
      | v4 octets' =>
          simp only [SocketAddr.sortKey, List.cons_append, List.cons.injEq, true_and] at h
          obtain ⟨hmap, hport⟩ := List.append_inj h (by simp)
          have hoctets : octets = octets' :=
            Vector.toList_inj.mp (List.map_injective_iff.mpr htoNat8 hmap)
          have hports : port = port' := htoNat16 (by simpa using hport)
          rw [hoctets, hports]
      | v6 segments => simp [SocketAddr.sortKey] at h
  | v6 segments =>
      cases ip' with
      | v4 octets => simp [SocketAddr.sortKey] at h
      | v6 segments' =>
          simp only [SocketAddr.sortKey, List.cons_append, List.cons.injEq, true_and] at h
          obtain ⟨hmap, hport⟩ := List.append_inj h (by simp)
          have hsegments : segments = segments' :=
            Vector.toList_inj.mp (List.map_injective_iff.mpr htoNat16 hmap)
          have hports : port = port' := htoNat16 (by simpa using hport)
          rw [hsegments, hports]

/-- Addresses read from a slice carry no scope. -/
theorem scopeId_sliceAddrs {port : ServicePort} {slice : EndpointSlice} {a : SocketAddr}
    (h : a ∈ (sliceAddrs port slice).1) : a.scopeId = 0 := by
  have hone : ∀ p endpoint, ∀ a ∈ (endpointAddrs p endpoint).1, a.scopeId = 0 := by
    intro p endpoint a ha
    unfold endpointAddrs at ha
    split at ha
    · obtain ⟨ip, -, rfl⟩ := List.mem_map.mp ha
      rfl
    · cases ha
  unfold sliceAddrs at h
  split at h
  · split at h
    · cases h
    · split at h
      · obtain ⟨each, heach, ha⟩ := List.mem_flatMap.mp h
        obtain ⟨endpoint, -, rfl⟩ := List.mem_map.mp heach
        exact hone _ _ _ ha
      · cases h
  · cases h

/-- What a Service port resolves to does not depend on the order of Services and slices. -/
theorem resolve_perm {s s' : ClusterSnapshot} (hp : Permuted s s') (hn : Named s)
    (target : ServiceRef) :
    (EndpointIndex.new s.services s.endpointSlices).resolve target =
      (EndpointIndex.new s'.services s'.endpointSlices).resolve target := by
  have hservice : get (indexServices s.services) (target.namespace_, target.name) =
      get (indexServices s'.services) (target.namespace_, target.name) := by
    rw [indexServices_eq, indexServices_eq, get_named_perm hp.services hn.services]
  have hslices := slicesOf_perm hp.endpointSlices (target.namespace_, target.name)
  unfold EndpointIndex.resolve EndpointIndex.new
  dsimp only
  rw [hservice]
  split
  · rfl
  · split
    · rfl
    · split
      · rfl
      · rename_i port _
        have heach := hslices.map (sliceAddrs port)
        have hskipped := (heach.map (·.2)).sum_nat
        have hsorted := insertionSort_perm (heach.flatMap_right (·.1))
          (by
            intro a ha b hb heq
            obtain ⟨_, hx, ha⟩ := List.mem_flatMap.mp ha
            obtain ⟨_, -, rfl⟩ := List.mem_map.mp hx
            obtain ⟨_, hy, hb⟩ := List.mem_flatMap.mp hb
            obtain ⟨_, -, rfl⟩ := List.mem_map.mp hy
            exact sortKey_injective (scopeId_sliceAddrs ha) (scopeId_sliceAddrs hb) heq)
        rw [hskipped, hsorted]

end Indexes

section Selection

private theorem classify_congr {f g : ClassFilter} (hours : ∀ name, name ∈ f.ours ↔ name ∈ g.ours)
    (hknown : ∀ name, name ∈ f.known ↔ name ∈ g.known) (hdefault : f.defaultIsOurs = g.defaultIsOurs)
    (hlegacy : f.legacyValue = g.legacyValue) (ingress : Ingress) :
    f.classify ingress = g.classify ingress := by
  unfold ClassFilter.classify
  cases get ingress.metadata.annotations ANNOTATION_LEGACY_CLASS with
  | some annotated =>
      dsimp only
      rw [hlegacy]
  | none =>
      cases ingress.spec.bind (·.ingressClassName) with
      | none =>
          dsimp only
          rw [hdefault]
      | some name =>
          dsimp only
          simp only [hours name, hknown name]

private theorem classify_perm {xs ys : List IngressClass} (hperm : xs.Perm ys) (legacy : Bytes)
    (ingress : Ingress) :
    (ClassFilter.new xs legacy).classify ingress = (ClassFilter.new ys legacy).classify ingress := by
  have hours : ∀ name, name ∈ (ClassFilter.new xs legacy).ours ↔
      name ∈ (ClassFilter.new ys legacy).ours := fun name => ((hperm.filter _).map _).mem_iff
  have hknown : ∀ name, name ∈ (ClassFilter.new xs legacy).known ↔
      name ∈ (ClassFilter.new ys legacy).known := fun name => (hperm.map _).mem_iff
  refine classify_congr hours hknown (Bool.eq_iff_iff.mpr ?_) rfl ingress
  simp only [ClassFilter.new, List.any_eq_true]
  exact exists_congr fun c => and_congr_left' (hperm.filter _).mem_iff

private theorem ageKey_names {a b : Ingress} (h : ageKey a = ageKey b) :
    ObjectKey.of a.metadata = ObjectKey.of b.metadata := by
  have hnames : ∀ i : Ingress, ofLex (ofLex (ofLex (ageKey i)).2).2 =
      (textKey (ObjectKey.of i.metadata).namespace_, textKey (ObjectKey.of i.metadata).name) := by
    intro i
    unfold ageKey
    cases i.metadata.creationTimestamp <;> rfl
  have hsame := hnames a
  rw [h, hnames b, Prod.mk.injEq] at hsame
  have hkeys : ∀ k l : ObjectKey, k.namespace_ = l.namespace_ → k.name = l.name → k = l := by
    rintro ⟨_, _⟩ ⟨_, _⟩ rfl rfl
    rfl
  exact hkeys _ _ (textKey_injective hsame.1.symm) (textKey_injective hsame.2.symm)

/-- The managed Ingresses stand in one order of age; only their warnings come as they arrive. -/
theorem selectManaged_perm {s s' : ClusterSnapshot} (hp : Permuted s s') (hn : Named s)
    (opts : ControllerOpts) :
    (selectManaged s opts).1 = (selectManaged s' opts).1 ∧
      (selectManaged s opts).2.Perm (selectManaged s' opts).2 := by
  have hclassify : (ClassFilter.new s.ingressClasses opts.className).classify =
      (ClassFilter.new s'.ingressClasses opts.className).classify :=
    funext (classify_perm hp.ingressClasses opts.className)
  unfold selectManaged
  dsimp only
  rw [hclassify]
  refine ⟨insertionSort_perm (hp.ingresses.filter _) (fun a ha b hb heq => ?_),
    (hp.ingresses.filter _).map _⟩
  exact List.inj_on_of_nodup_map hn.ingresses (List.mem_filter.mp ha).1 (List.mem_filter.mp hb).1
    (ageKey_names heq)

end Selection

section Planning

/-- A planning with more said before it. -/
def after (ws : List Warning) (p : Planning) : Planning := { p with warnings := ws ++ p.warnings }

private theorem warn_after (ws : List Warning) (p : Planning) (more : List Warning) :
    (after ws p).warn more = after ws (p.warn more) := by
  simp [after, Planning.warn]

private theorem claim_after (ws : List Warning) (p : Planning) (plan : RoutePlan) :
    (after ws p).claim plan = after ws (p.claim plan) := by
  have hroutes : (after ws p).routes = p.routes := rfl
  unfold Planning.claim
  rw [hroutes]
  cases get p.routes plan.key with
  | none => rfl
  | some held => exact warn_after ws p _

private theorem planEntry_after (o : Origin) (ws : List Warning) (p : Planning)
    (entry : Option Bytes × HTTPIngressPath) :
    planEntry o (after ws p) entry = after ws (planEntry o p entry) := by
  unfold planEntry
  dsimp only
  cases (readEntry o.owner entry.1 entry.2).1 with
  | none => exact warn_after ws p _
  | some found =>
      obtain ⟨key, backend⟩ := found
      dsimp only
      rw [warn_after, claim_after]

private theorem planDefault_after (o : Origin) (spec : IngressSpec) (ws : List Warning)
    (p : Planning) : planDefault o spec (after ws p) = after ws (planDefault o spec p) := by
  unfold planDefault
  cases spec.defaultBackend with
  | none => rfl
  | some default =>
      dsimp only
      cases (backendRef o.owner.namespace_ default o.owner).1 with
      | none => exact warn_after ws p _
      | some target =>
          dsimp only
          rw [warn_after]
          split
          · have hglobal : (after ws (p.warn (backendRef o.owner.namespace_ default o.owner).2)
                ).globalDefault = (p.warn (backendRef o.owner.namespace_ default o.owner).2
                ).globalDefault := rfl
            rw [hglobal]
            split
            · exact warn_after ws _ _
            · rfl
          · rfl

private theorem foldl_after {α : Type} {f : Planning → α → Planning} (ws : List Warning)
    (h : ∀ p x, f (after ws p) x = after ws (f p x)) (xs : List α) (p : Planning) :
    xs.foldl f (after ws p) = after ws (xs.foldl f p) := by
  induction xs generalizing p with
  | nil => rfl
  | cons x xs ih => rw [List.foldl_cons, h, ih, List.foldl_cons]

private theorem planIngress_after (ws : List Warning) (p : Planning) (ingress : Ingress) :
    planIngress (after ws p) ingress = after ws (planIngress p ingress) := by
  unfold planIngress
  cases ingress.spec with
  | none => rfl
  | some spec =>
      dsimp only
      rw [warn_after, foldl_after ws (planEntry_after _ ws), planDefault_after]

/-- An attachment with more said before it. -/
def saidBefore (ws : List Warning) (state : Routes × List Warning) : Routes × List Warning :=
  (state.1, ws ++ state.2)

private theorem attachEntry_after (owner : ObjectKey) (rules : CanaryAnnotations)
    (protocol : BackendProtocol) (ws : List Warning) (state : Routes × List Warning)
    (entry : Option Bytes × HTTPIngressPath) :
    attachEntry owner rules protocol (saidBefore ws state) entry =
      saidBefore ws (attachEntry owner rules protocol state entry) := by
  obtain ⟨routes, said⟩ := state
  unfold attachEntry saidBefore
  dsimp only
  cases (readEntry owner entry.1 entry.2).1 with
  | none => simp
  | some found =>
      obtain ⟨key, backend⟩ := found
      dsimp only
      cases get routes key with
      | none => simp
      | some plan =>
          dsimp only
          cases plan.canary <;> simp

private theorem attachCanary_after (ws : List Warning) (state : Routes × List Warning)
    (canary : Ingress × CanaryAnnotations) :
    attachCanary (saidBefore ws state) canary = saidBefore ws (attachCanary state canary) := by
  have hfold : ∀ owner rules protocol (entries : List (Option Bytes × HTTPIngressPath)) state,
      entries.foldl (attachEntry owner rules protocol) (saidBefore ws state) =
        saidBefore ws (entries.foldl (attachEntry owner rules protocol) state) := by
    intro owner rules protocol entries
    induction entries with
    | nil => exact fun _ => rfl
    | cons entry rest ih => exact fun state => by rw [List.foldl_cons, attachEntry_after, ih, List.foldl_cons]
  obtain ⟨ingress, rules⟩ := canary
  unfold attachCanary
  dsimp only
  cases ingress.spec with
  | none => simp [saidBefore]
  | some spec =>
      dsimp only
      rw [← hfold]
      simp [saidBefore]

private theorem attachCanaries_after (ws : List Warning)
    (canaries : List (Ingress × CanaryAnnotations)) (state : Routes × List Warning) :
    canaries.foldl attachCanary (saidBefore ws state) =
      saidBefore ws (canaries.foldl attachCanary state) := by
  induction canaries generalizing state with
  | nil => rfl
  | cons canary rest ih => rw [List.foldl_cons, attachCanary_after, ih, List.foldl_cons]

/-- The plan of managed Ingresses, before which `ws` was said. -/
def planOf (opts : ControllerOpts) (managed : List Ingress) (ws : List Warning) : Planned :=
  let parts := partitionCanaries managed
  let planning := parts.1.foldl planIngress { warnings := ws }
  let routes := applyFallbacks planning.routes planning.fallbacks
  let attached := parts.2.foldl attachCanary (routes, planning.warnings)
  { managed := managed
    canaries := parts.2
    routes := attached.1
    defaultBackend := (planning.globalDefault.map (·.1)).or opts.defaultBackend
    warnings := attached.2 }

private theorem planOf_after (opts : ControllerOpts) (managed : List Ingress) (ws : List Warning) :
    planOf opts managed ws =
      { planOf opts managed [] with warnings := ws ++ (planOf opts managed []).warnings } := by
  have hstart : ({ warnings := ws } : Planning) = after ws {} := by simp [after]
  have hattach : ∀ (p : Planning) (canaries : List (Ingress × CanaryAnnotations)),
      canaries.foldl attachCanary
          (applyFallbacks (after ws p).routes (after ws p).fallbacks, (after ws p).warnings) =
        saidBefore ws (canaries.foldl attachCanary
          (applyFallbacks p.routes p.fallbacks, p.warnings)) :=
    fun p canaries => attachCanaries_after ws canaries
      (applyFallbacks p.routes p.fallbacks, p.warnings)
  unfold planOf
  dsimp only
  rw [hstart, foldl_after ws (planIngress_after ws), hattach]
  rfl

/-- A plan is the same for every order of arrival, but for the order of what is said first. -/
theorem planSnapshot_perm {s s' : ClusterSnapshot} (hp : Permuted s s') (hn : Named s)
    (opts : ControllerOpts) :
    ∃ (p : Planned) (ws ws' : List Warning), ws.Perm ws' ∧
      planSnapshot s opts = { p with warnings := ws ++ p.warnings } ∧
      planSnapshot s' opts = { p with warnings := ws' ++ p.warnings } := by
  obtain ⟨hmanaged, hwarned⟩ := selectManaged_perm hp hn opts
  have hshape : ∀ s : ClusterSnapshot, planSnapshot s opts =
      planOf opts (selectManaged s opts).1 (selectManaged s opts).2 := fun _ => rfl
  refine ⟨planOf opts (selectManaged s opts).1 [], _, _, hwarned, ?_, ?_⟩
  · rw [hshape, planOf_after]
  · rw [hshape, ← hmanaged, planOf_after]

end Planning

section Parts

variable {F : Type} (fl : Floats F) (rx : RegexEngine) {s s' : ClusterSnapshot}
  (opts : ControllerOpts)

private theorem readTls_congr {secrets secrets' : SecretIndex}
    (h : secrets.material = secrets'.material) : readTls secrets = readTls secrets' := by
  funext owner state entry
  unfold readTls
  rw [h]

private theorem wiredCerts_perm (hp : Permuted s s') (hn : Named s) (managed : List Ingress) :
    wiredCerts s managed = wiredCerts s' managed := by
  have hread : readTlsOf (SecretIndex.new s.secrets) = readTlsOf (SecretIndex.new s'.secrets) := by
    funext state ingress
    unfold readTlsOf
    rw [readTls_congr (material_perm hp.secrets hn.secrets)]
  unfold wiredCerts
  rw [hread]

private theorem suppliedDefault_perm (hp : Permuted s s') (hn : Named s) :
    suppliedDefault s opts = suppliedDefault s' opts := by
  unfold suppliedDefault defaultMaterial
  rw [material_perm hp.secrets hn.secrets]

private theorem resolveEndpoints_perm (hp : Permuted s s') (hn : Named s) (target : ServiceRef) :
    resolveEndpoints (EndpointIndex.new s.services s.endpointSlices) target =
      resolveEndpoints (EndpointIndex.new s'.services s'.endpointSlices) target := by
  unfold resolveEndpoints
  rw [resolve_perm hp hn]

private theorem backendDraft_perm (hp : Permuted s s') (hn : Named s) :
    backendDraft (EndpointIndex.new s.services s.endpointSlices) opts.lbPolicy =
      backendDraft (EndpointIndex.new s'.services s'.endpointSlices) opts.lbPolicy := by
  funext entry
  unfold backendDraft
  rw [resolveEndpoints_perm hp hn]

/-- What a snapshot announces, and the certificates it supplies, do not depend on the order. -/
theorem announced_perm (hp : Permuted s s') (hn : Named s) :
    announced fl s opts = announced fl s' opts ∧
      (planSnapshot s opts).managed = (planSnapshot s' opts).managed ∧
      suppliedCerts s opts (planSnapshot s opts).managed =
        suppliedCerts s' opts (planSnapshot s' opts).managed := by
  obtain ⟨p, ws, ws', -, hs, hs'⟩ := planSnapshot_perm hp hn opts
  unfold announced registeredBackends certEntries wiredEntries suppliedCerts plans collected
  rw [hs, hs', wiredCerts_perm hp hn, suppliedDefault_perm opts hp hn,
    backendDraft_perm opts hp hn]
  exact ⟨rfl, rfl, rfl⟩

/-- What a translation says is the same, in another order. -/
theorem spoken_perm (hp : Permuted s s') (hn : Named s) :
    (spoken fl rx s opts).Perm (spoken fl rx s' opts) := by
  obtain ⟨p, ws, ws', hws, hs, hs'⟩ := planSnapshot_perm hp hn opts
  unfold spoken certificateWarnings wiredEntries plans collected
  simp only [hs, hs', wiredCerts_perm hp hn, resolveEndpoints_perm hp hn]
  have hcerts : defaultCertWarnings (SecretIndex.new s.secrets) =
      defaultCertWarnings (SecretIndex.new s'.secrets) := by
    funext reference
    unfold defaultCertWarnings
    rw [material_perm hp.secrets hn.secrets]
  rw [hcerts]
  exact (hws.append_right _).append_right _

end Parts

section Failure

variable {F : Type} (fl : Floats F) (rx : RegexEngine)

private theorem registerBackend_error {index : EndpointIndex} {policy : LbPolicy}
    {entry : ServiceRef × BackendProtocol} {c c' : Compiling} (hb : c.builder = c'.builder)
    {err : BuildError} (h : registerBackend index policy c entry = .error err) :
    registerBackend index policy c' entry = .error err := by
  unfold registerBackend at h ⊢
  rw [← hb]
  cases hwith : c.builder.backendWith entry.1.backendName
      (resolveEndpoints index entry.1).1 ⟨policy, entry.2⟩ with
  | error e =>
      simp only [hwith] at h ⊢
      exact h
  | ok b =>
      simp only [hwith] at h
      cases h

/-- Why a registration fails does not depend on what was said or digested before. -/
private theorem registerEach_error {index : EndpointIndex} {policy : LbPolicy}
    {entries : List (ServiceRef × BackendProtocol)} {c c' : Compiling}
    (hb : c.builder = c'.builder) {err : BuildError}
    (h : registerEach index policy entries c = .error err) :
    registerEach index policy entries c' = .error err := by
  induction entries generalizing c c' with
  | nil => cases h
  | cons entry rest ih =>
      unfold registerEach at h ⊢
      cases hone : registerBackend index policy c entry with
      | error e =>
          rw [hone] at h
          rw [registerBackend_error hb hone]
          exact h
      | ok c1 =>
          rw [hone] at h
          cases hone' : registerBackend index policy c' entry with
          | error e =>
              rw [registerBackend_error hb.symm hone'] at hone
              cases hone
          | ok c1' =>
              refine ih ?_ h
              have h1 : registerEach index policy [entry] c = .ok c1 :=
                bind_eq_ok.mpr ⟨c1, hone, rfl⟩
              have h2 : registerEach index policy [entry] c' = .ok c1' :=
                bind_eq_ok.mpr ⟨c1', hone', rfl⟩
              rw [registerEach_eq h1, registerEach_eq h2, hb]

private theorem translate_error_iff (s : ClusterSnapshot) (opts : ControllerOpts)
    (previous : Option RouteTable) (err : BuildError) :
    translate fl rx s opts previous = .error err ↔
      registerBackends s opts (collected s opts).1 (started s opts previous) = .error err := by
  cases hreg : registerBackends s opts (collected s opts).1 (started s opts previous) with
  | error e =>
      have hbind : ∃ f, translate fl rx s opts previous =
          (registerBackends s opts (collected s opts).1 (started s opts previous) >>= f) := ⟨_, rfl⟩
      obtain ⟨f, hf⟩ := hbind
      have hfail : translate fl rx s opts previous = .error e := by
        rw [hf, hreg]
        rfl
      rw [hfail]
      simp only [Except.error.injEq]
  | ok c =>
      refine ⟨fun herr => ?_, fun herr => by cases herr⟩
      have hstart : BuilderOk (started s opts previous).builder ∧
          (started s opts previous).builder.backends = [] := by
        cases previous with
        | none => exact ⟨builderOk_fresh, rfl⟩
        | some table => exact ⟨builderOk_fromPrevious table, rfl⟩
      have hnodup := nodup_of_registerEach hstart.1 (by simp [hstart.2]) hreg
      rw [hstart.2, List.map_nil, List.nil_append] at hnodup
      obtain ⟨r, hr⟩ := (translate_ok_iff fl rx s opts previous).mpr hnodup
      rw [hr] at herr
      cases herr

end Failure

section Whole

variable {F : Type} (fl : Floats F) (rx : RegexEngine)

/-- Two translations with one result, or one error; what they say may come in another order. -/
inductive SameOutcome : Except BuildError (Translation F) → Except BuildError (Translation F) → Prop
  | failed (err : BuildError) : SameOutcome (.error err) (.error err)
  | translated (r r' : Translation F) (config : r.config = r'.config) (digest : r.digest = r'.digest)
      (managed : r.managed = r'.managed) (warnings : r.warnings.Perm r'.warnings) :
      SameOutcome (.ok r) (.ok r')

/-- The order in which the objects of a cluster are listed changes nothing in a translation but
the order of what it says. -/
theorem translate_perm {s s' : ClusterSnapshot} (hp : Permuted s s') (hn : Named s)
    (opts : ControllerOpts) (previous : Option RouteTable) :
    SameOutcome (translate fl rx s opts previous) (translate fl rx s' opts previous) := by
  obtain ⟨hannounced, hmanaged, hcerts⟩ := announced_perm fl opts hp hn
  have hcollected : collected s opts = collected s' opts := by
    obtain ⟨p, ws, ws', -, hs, hs'⟩ := planSnapshot_perm hp hn opts
    unfold collected
    rw [hs, hs']
  cases h : translate fl rx s opts previous with
  | error err =>
      have hfailed := (translate_error_iff fl rx s opts previous err).mp h
      have hsame : registerBackends s' opts (collected s' opts).1 (started s' opts previous) =
          .error err := by
        have hresolve : resolveEndpoints (EndpointIndex.new s.services s.endpointSlices) =
            resolveEndpoints (EndpointIndex.new s'.services s'.endpointSlices) :=
          funext (resolveEndpoints_perm hp hn)
        have hregister : registerBackend (EndpointIndex.new s.services s.endpointSlices) =
            registerBackend (EndpointIndex.new s'.services s'.endpointSlices) := by
          funext policy c entry
          unfold registerBackend
          rw [hresolve]
        have heach : ∀ policy entries c,
            registerEach (EndpointIndex.new s.services s.endpointSlices) policy entries c =
              registerEach (EndpointIndex.new s'.services s'.endpointSlices) policy entries c := by
          intro policy entries
          induction entries with
          | nil => exact fun _ => rfl
          | cons entry rest ih =>
              intro c
              unfold registerEach
              simp only [hregister, ih]
        unfold registerBackends at hfailed ⊢
        rw [← hcollected, ← heach]
        have hbuilder : (started s opts previous).builder = (started s' opts previous).builder :=
          rfl
        exact registerEach_error hbuilder hfailed
      rw [(translate_error_iff fl rx s' opts previous err).mpr hsame]
      exact .failed err
  | ok r =>
      have hnodup := (translate_ok_iff fl rx s opts previous).mp ⟨r, h⟩
      unfold backendNames at hnodup
      rw [hcollected] at hnodup
      obtain ⟨r', hr'⟩ := (translate_ok_iff fl rx s' opts previous).mpr hnodup
      obtain ⟨table, htable, rfl⟩ := translate_announced fl rx s opts previous h
      obtain ⟨table', htable', rfl⟩ := translate_announced fl rx s' opts previous hr'
      rw [hr']
      rw [hannounced, htable'] at htable
      obtain rfl : table' = table := Except.ok.inj htable
      refine .translated _ _ ?_ ?_ ?_ (spoken_perm fl rx opts hp hn)
      · simp only [promotionTargets, hannounced, hcerts]
      · simp only [hannounced]
      · simp only [hmanaged]

/-- Two Ingresses that claim one path, the older one listed first. -/
def olderFirst : ClusterSnapshot where
  ingresses := [shopIngress (ascii "a") 1 [] [pathTo (ascii "/") (ascii "Prefix") (ascii "web")
      ⟨some 80, none⟩] none,
    shopIngress (ascii "b") 2 [] [pathTo (ascii "/") (ascii "Prefix") (ascii "api")
      ⟨some 80, none⟩] none]

/-- The same two Ingresses, listed the other way round. -/
def youngerFirst : ClusterSnapshot where
  ingresses := olderFirst.ingresses.reverse

theorem translate_perm_reversed :
    SameOutcome (translate noFloats literalEngine olderFirst {} none)
      (translate noFloats literalEngine youngerFirst {} none) := by
  have hp : Permuted olderFirst youngerFirst :=
    ⟨(List.reverse_perm olderFirst.ingresses).symm, .refl _, .refl _, .refl _, .refl _⟩
  have hn : Named olderFirst := ⟨by decide, by decide, by decide, by decide, by decide⟩
  exact translate_perm noFloats literalEngine hp hn {} none

end Whole

section Walking

private theorem promotionRouteKey_injective : Function.Injective promotionRouteKey := by
  rintro ⟨host, path, pathType⟩ ⟨host', path', pathType'⟩ h
  simp only [promotionRouteKey, EmbeddingLike.apply_eq_iff_eq, Prod.mk.injEq] at h
  obtain ⟨hhost, hpath, hrank⟩ := h
  obtain rfl := textKey_injective hhost
  obtain rfl := textKey_injective hpath
  cases pathType <;> cases pathType' <;> simp_all [PathType.rank]

/-- However the map of planned routes is walked, what is read off it comes in one order. -/
theorem walked_perm (s : ClusterSnapshot) (opts : ControllerOpts) {routes : Routes}
    (hperm : (planSnapshot s opts).routes.Perm routes) :
    sortedPlans (planSnapshot s opts).routes = sortedPlans routes ∧
      ∀ owner, coveredRoutes (planSnapshot s opts).routes owner = coveredRoutes routes owner := by
  refine ⟨?_, fun owner => ?_⟩
  · have hplans : sortedPlans (planSnapshot s opts).routes = plans s opts := rfl
    refine insertionSort_perm (hperm.map _) ?_
    intro a ha b hb hkey
    refine plan_unique s opts ?_ ?_ (RouteKey.sortKey_injective hkey)
    · rw [← hplans]
      exact (List.mem_insertionSort _).mpr ha
    · rw [← hplans]
      exact (List.mem_insertionSort _).mpr hb
  · exact insertionSort_perm (((hperm.map _).filter _).map _)
      fun a _ b _ hkey => promotionRouteKey_injective hkey

end Walking

end Ramjet.Controller.ArrivalOrder
