/- digest: What a translation hands the router and feeds the digest, as data of its own. -/

import Ramjet.Controller.Compiled

set_option autoImplicit false
set_option relaxedAutoImplicit false

namespace Ramjet.Controller.Feed

open Ramjet.Base.Octets
open Ramjet.Base.Text
open Ramjet.Base.Outcome
open Ramjet.Base.AssocMap
open Ramjet.Router.Balancing
open Ramjet.Router.Rule
open Ramjet.Router.Table
open Ramjet.Router.Builder
open Ramjet.Controller.Objects
open Ramjet.Controller.Annotations
open Ramjet.Controller.Config
open Ramjet.Controller.Endpoints
open Ramjet.Controller.Secrets
open Ramjet.Controller.Warnings
open Ramjet.Controller.Plan
open Ramjet.Controller.Translate
open Ramjet.Controller.Registration
open Ramjet.Controller.Compiled

section Encoding

def encodeStr (s : Bytes) : Bytes := littleEndian s.length ++ s

def encodeOptStr : Option Bytes → Bytes
  | some s => 1 :: encodeStr s
  | none => [0]

def encodeTag (v : Nat) : Bytes := [UInt8.ofNat v]

def encodeEndpoint (e : Endpoint) : Bytes := encodeStr e.addr.display ++ littleEndian e.weight

def encodeBackend (b : BackendDraft) : Bytes :=
  encodeStr b.name ++ (encodeTag (lbPolicyTag b.options.policy) ++
    (encodeTag (protocolTag b.options.protocol) ++
      (littleEndian b.endpoints.length ++ b.endpoints.flatMap encodeEndpoint)))

def encodeCanary (c : CanaryRules) : Bytes :=
  encodeStr c.backend ++ (littleEndian c.weight ++ (littleEndian c.weightTotal ++
    (encodeOptStr c.header ++ (encodeOptStr c.headerValue ++
      (encodeOptStr c.headerPattern ++ encodeOptStr c.cookie)))))

def encodeMirror (m : MirrorRules) : Bytes :=
  encodeStr m.backend ++ (littleEndian m.percent ++ encodeOptStr m.host)

def encodeOption {α : Type} (encode : α → Bytes) : Option α → Bytes
  | some a => 1 :: encode a
  | none => [0]

/-- A route as the router is asked for it. -/
structure RouteFeed where
  key : RouteKey
  backend : Bytes
  options : RouteOptions
  deriving DecidableEq, Repr

def RouteFeed.of (plan : RoutePlan) : RouteFeed :=
  ⟨plan.key, plan.backend.backendName, optionsOf plan⟩

def encodeRoute (r : RouteFeed) : Bytes :=
  encodeOptStr r.key.host ++ (encodeStr r.key.path ++ (encodeTag r.key.pathType.rank ++
    (encodeStr r.backend ++ (encodeOption encodeCanary r.options.canary ++
      encodeOption encodeMirror r.options.mirror))))

def encodeCert (c : Bytes × Nat) : Bytes := encodeStr c.1 ++ littleEndian c.2

def encodeCovered (r : PromotionRoute) : Bytes :=
  encodeStr r.host ++ (encodeStr r.path ++ encodeTag r.pathType.rank)

variable {F : Type} (fl : Floats F)

def encodePromotion (target : PromotionTarget F) : Bytes :=
  encodeStr target.ingress.display ++ (littleEndian target.weight ++
    (littleEndian target.policy.interval ++ (littleEndian target.policy.minRequests ++
      (encodeStr (debugList target.policy.steps) ++
        (encodeStr (fl.fixed6 target.policy.max5xxPercent) ++
          (encodeStr (fl.fixed6 target.policy.maxLatencyFactor) ++
            (encodeOptStr target.policy.status ++ target.routes.flatMap encodeCovered)))))))

@[simp] private theorem bytes_bytes (d : Digest) (a b : Bytes) :
    (d.bytes a).bytes b = d.bytes (a ++ b) := by
  simp [Digest.bytes]

@[simp] private theorem u64_eq (d : Digest) (v : Nat) : d.u64 v = d.bytes (littleEndian v) := rfl

@[simp] private theorem u8_eq (d : Digest) (v : Nat) : d.u8 v = d.bytes (encodeTag v) := rfl

@[simp] private theorem str_eq (d : Digest) (s : Bytes) : d.str s = d.bytes (encodeStr s) := by
  simp [Digest.str, encodeStr]

@[simp] private theorem optStr_eq (d : Digest) (s : Option Bytes) :
    d.optStr s = d.bytes (encodeOptStr s) := by
  cases s with
  | none => rfl
  | some s =>
      rw [Digest.optStr, u8_eq, str_eq, bytes_bytes]
      rfl

/-- Feeding a list element by element feeds the elements' octets one after the other. -/
private theorem foldl_bytes {α : Type} {f : Digest → α → Digest} {g : α → Bytes}
    (h : ∀ d x, f d x = d.bytes (g x)) (xs : List α) (d : Digest) :
    xs.foldl f d = d.bytes (xs.flatMap g) := by
  induction xs generalizing d with
  | nil => simp [Digest.bytes]
  | cons x xs ih => rw [List.foldl_cons, ih, h, bytes_bytes, List.flatMap_cons]

theorem digestBackend_eq (d : Digest) (policy : LbPolicy) (target : ServiceRef)
    (protocol : BackendProtocol) (endpoints : List Endpoint) :
    digestBackend d policy target protocol endpoints =
      d.bytes (encodeBackend ⟨target.backendName, ⟨policy, protocol⟩, endpoints⟩) := by
  unfold digestBackend
  rw [foldl_bytes (g := encodeEndpoint) (by simp [encodeEndpoint])]
  simp [encodeBackend]

theorem digestRoute_eq (d : Digest) (plan : RoutePlan) :
    digestRoute d plan = d.bytes (encodeRoute (.of plan)) := by
  obtain ⟨key, backend, owner, protocol, canary, mirror⟩ := plan
  cases canary <;> cases mirror <;>
    simp [digestRoute, encodeRoute, RouteFeed.of, optionsOf, encodeOption, encodeCanary,
      encodeMirror, canaryRulesOf, mirrorRulesOf, encodeTag]

theorem digestPromotion_eq (d : Digest) (target : PromotionTarget F) :
    digestPromotion fl d target.ingress target.weight target.policy target.routes =
      d.bytes (encodePromotion fl target) := by
  unfold digestPromotion
  rw [foldl_bytes (g := encodeCovered) (by simp [encodeCovered])]
  simp [encodePromotion]

end Encoding

section Backends

/-- One backend more, under the next id. -/
def addBackend (b : RouteTableBuilder) (d : BackendDraft) : RouteTableBuilder :=
  { b with
    backendIds := insert b.backendIds d.name (b.backends.length % U32_SIZE)
    backends := b.backends ++ [d] }

/-- A Service port as it is registered. -/
def backendDraft (index : EndpointIndex) (policy : LbPolicy)
    (entry : ServiceRef × BackendProtocol) : BackendDraft :=
  ⟨entry.1.backendName, ⟨policy, entry.2⟩, (resolveEndpoints index entry.1).1⟩

private theorem registerBackend_eq {index : EndpointIndex} {policy : LbPolicy} {c c' : Compiling}
    {entry : ServiceRef × BackendProtocol} (h : registerBackend index policy c entry = .ok c') :
    c' = ⟨addBackend c.builder (backendDraft index policy entry),
      c.digest.bytes (encodeBackend (backendDraft index policy entry)),
      c.warnings ++ (resolveEndpoints index entry.1).2⟩ := by
  obtain ⟨b, hb, h⟩ := bind_eq_ok.mp h
  unfold RouteTableBuilder.backendWith at hb
  split at hb
  · cases hb
  · cases hb
    cases h
    rw [digestBackend_eq]
    rfl

/-- Registered backends, each under its id and in the digest. -/
theorem registerEach_eq {index : EndpointIndex} {policy : LbPolicy}
    {entries : List (ServiceRef × BackendProtocol)} {c c' : Compiling}
    (h : registerEach index policy entries c = .ok c') :
    c' = ⟨(entries.map (backendDraft index policy)).foldl addBackend c.builder,
      c.digest.bytes ((entries.map (backendDraft index policy)).flatMap encodeBackend),
      c.warnings ++ entries.flatMap fun e => (resolveEndpoints index e.1).2⟩ := by
  induction entries generalizing c with
  | nil =>
      cases h
      simp [Digest.bytes]
  | cons entry rest ih =>
      obtain ⟨c1, hc1, h⟩ := bind_eq_ok.mp h
      rw [ih h, registerBackend_eq hc1]
      simp

end Backends

section Routes

variable (rx : RegexEngine)

/-- The draft a request for a route ends as: with both its optional parts, or without them. -/
def RouteFeed.taken (r : RouteFeed) : Option RouteDraft :=
  match draft rx r.key.host r.key.path r.key.pathType r.backend with
  | .error _ => none
  | .ok d =>
      match optional (fun c => canaryDraft rx c d.slot r.key.path) r.options.canary,
        optional (fun m => mirrorDraft m d.slot r.key.path) r.options.mirror with
      | .ok canary, .ok mirror => some { d with canary := canary, mirror := mirror }
      | _, _ => some d

theorem finalDraft_eq (plan : RoutePlan) : finalDraft rx plan = (RouteFeed.of plan).taken rx := by
  obtain ⟨key, backend, owner, protocol, canary, mirror⟩ := plan
  cases canary <;> cases mirror <;> rfl

/-- What registering one planned route says, whatever was registered before. -/
def routeWarnings (plan : RoutePlan) : List Warning :=
  (registerRoute rx ⟨{}, {}, []⟩ plan).warnings

private theorem registerRoute_warnings (c : Compiling) (plan : RoutePlan) :
    (registerRoute rx c plan).warnings = c.warnings ++ routeWarnings rx plan := by
  have hfresh := registerRoute_outcome rx ⟨{}, {}, []⟩ plan
  unfold routeWarnings
  cases registerRoute_outcome rx c plan with
  | refused err hplain _ hws =>
      cases hfresh with
      | refused err' hplain' _ hws' =>
          obtain rfl : err = err' := Except.error.inj (hplain.symm.trans hplain')
          rw [hws, hws']
          simp
      | whole _ _ _ hplain' => simp [hplain] at hplain'
      | stripped _ _ hplain' => simp [hplain] at hplain'
  | whole d canary mirror hplain hcanary hmirror _ hws =>
      cases hfresh with
      | refused _ hplain' => simp [hplain] at hplain'
      | whole _ _ _ _ _ _ _ hws' =>
          rw [hws, hws']
          simp
      | stripped d' _ hplain' hparts =>
          obtain rfl : d = d' := Except.ok.inj (hplain.symm.trans hplain')
          rcases hparts with hcanary' | ⟨_, -, hmirror'⟩
          · simp [hcanary] at hcanary'
          · simp [hmirror] at hmirror'
  | stripped d err hplain hparts _ hws =>
      cases hfresh with
      | refused _ hplain' => simp [hplain] at hplain'
      | whole d' _ _ hplain' hcanary' hmirror' =>
          obtain rfl : d = d' := Except.ok.inj (hplain.symm.trans hplain')
          rcases hparts with hcanary | ⟨_, -, hmirror⟩
          · simp [hcanary] at hcanary'
          · simp [hmirror] at hmirror'
      | stripped d' err' hplain' hparts' _ hws' =>
          obtain rfl : d = d' := Except.ok.inj (hplain.symm.trans hplain')
          have herr : err = err' := by
            rcases hparts with hcanary | ⟨_, hcanary, hmirror⟩ <;>
              rcases hparts' with hcanary' | ⟨_, hcanary', hmirror'⟩
            · exact Except.error.inj (hcanary.symm.trans hcanary')
            · simp [hcanary] at hcanary'
            · simp [hcanary] at hcanary'
            · exact Except.error.inj (hmirror.symm.trans hmirror')
          rw [hws, hws', herr]
          simp

private theorem registerRoute_digest (c : Compiling) (plan : RoutePlan) :
    (registerRoute rx c plan).digest = digestRoute c.digest plan := by
  unfold registerRoute
  dsimp only
  split
  · rfl
  · split <;> rfl

/-- Planned routes are registered, digested and reported in their order. -/
theorem registerRoutes_eq (plans : List RoutePlan) (c : Compiling) :
    plans.foldl (registerRoute rx) c =
      ⟨{ c.builder with
          routes := c.builder.routes ++ (plans.map RouteFeed.of).filterMap (RouteFeed.taken rx) },
        c.digest.bytes ((plans.map RouteFeed.of).flatMap encodeRoute),
        c.warnings ++ plans.flatMap (routeWarnings rx)⟩ := by
  induction plans generalizing c with
  | nil => simp [Digest.bytes]
  | cons plan rest ih =>
      have hbuilder := (registerPlans_spec rx [plan] c).1
      rw [List.foldl_cons, List.foldl_nil, List.filterMap_cons, List.filterMap_nil,
        finalDraft_eq] at hbuilder
      rw [List.foldl_cons, ih, hbuilder, registerRoute_warnings, registerRoute_digest,
        digestRoute_eq]
      cases hdraft : (RouteFeed.of plan).taken rx <;> simp [hdraft]

end Routes

section Certificates

/-- A host's certificate, unless the router refuses the host. -/
def addCert (b : RouteTableBuilder) (entry : Bytes × Nat) : RouteTableBuilder :=
  match b.certificate entry.1 entry.2 with
  | .ok b => b
  | .error _ => b

/-- What registering the certificate of one host says. -/
def certWarnings (entry : Bytes × Nat × ObjectKey) : List Warning :=
  match normalizeConfigHost entry.1 with
  | .ok _ => []
  | .error err => [⟨entry.2.2, .tlsHostRefused entry.1 err⟩]

private theorem registerCert_eq (c : Compiling) (entry : Bytes × Nat × ObjectKey) :
    registerCert c entry = ⟨addCert c.builder (entry.1, entry.2.1),
      c.digest.bytes (encodeCert (entry.1, entry.2.1)), c.warnings ++ certWarnings entry⟩ := by
  obtain ⟨host, id, owner⟩ := entry
  unfold registerCert addCert certWarnings RouteTableBuilder.certificate
  dsimp only
  cases normalizeConfigHost host with
  | error err => simp [encodeCert]
  | ok slot => cases slot <;> simp [encodeCert]

theorem registerCerts_eq (entries : List (Bytes × Nat × ObjectKey)) (c : Compiling) :
    entries.foldl registerCert c =
      ⟨(entries.map fun e => (e.1, e.2.1)).foldl addCert c.builder,
        c.digest.bytes ((entries.map fun e => (e.1, e.2.1)).flatMap encodeCert),
        c.warnings ++ entries.flatMap certWarnings⟩ := by
  induction entries generalizing c with
  | nil => simp [Digest.bytes]
  | cons entry rest ih =>
      rw [List.foldl_cons, ih, registerCert_eq]
      simp

/-- The certificate of the Secret the options name, if it can be read. -/
def defaultMaterial (secrets : SecretIndex) (reference : Bytes) : Option CertMaterial :=
  match splitOnce (47 : UInt8) reference with
  | none => none
  | some (ns, name) => (secrets.material ns name).toOption

def defaultCertWarnings (secrets : SecretIndex) (reference : Bytes) : List Warning :=
  match splitOnce (47 : UInt8) reference with
  | none => [⟨⟨[], reference⟩, .defaultSecretShape⟩]
  | some (ns, name) =>
      match secrets.material ns name with
      | .error issue => [⟨⟨ns, name⟩, .defaultSecretUnusable issue⟩]
      | .ok _ => []

/-- The default certificate, if there is one. -/
def setDefaultCert (b : RouteTableBuilder) : Option Nat → RouteTableBuilder
  | some id => b.defaultCertificate id
  | none => b

/-- The materials, with that of the default certificate. -/
def withMaterial (materials : Map Nat CertMaterial) : Option CertMaterial → Map Nat CertMaterial
  | some material => insert materials material.handleId material
  | none => materials

private theorem registerDefaultCert_eq (secrets : SecretIndex) (reference : Bytes)
    (state : Compiling × Map Nat CertMaterial) :
    registerDefaultCert secrets reference state =
      (⟨setDefaultCert state.1.builder ((defaultMaterial secrets reference).map (·.handleId)),
        state.1.digest.bytes (((defaultMaterial secrets reference).map (·.handleId)).toList.flatMap
          littleEndian),
        state.1.warnings ++ defaultCertWarnings secrets reference⟩,
        withMaterial state.2 (defaultMaterial secrets reference)) := by
  obtain ⟨c, materials⟩ := state
  unfold registerDefaultCert defaultMaterial defaultCertWarnings
  dsimp only
  cases splitOnce (47 : UInt8) reference with
  | none => simp [Compiling.warn, setDefaultCert, withMaterial, Digest.bytes]
  | some parts =>
      obtain ⟨ns, name⟩ := parts
      dsimp only
      cases secrets.material ns name with
      | error issue =>
          simp [Compiling.warn, setDefaultCert, withMaterial, Digest.bytes, Except.toOption]
      | ok material => simp [setDefaultCert, withMaterial, Except.toOption]

variable (snapshot : ClusterSnapshot) (opts : ControllerOpts) (managed : List Ingress)

/-- The default certificate of a snapshot. -/
def suppliedDefault : Option CertMaterial :=
  opts.defaultTlsSecret.bind (defaultMaterial (SecretIndex.new snapshot.secrets))

/-- The certificates handed to the store, in the order of their ids. -/
def suppliedCerts : List CertMaterial :=
  ((withMaterial (wiredCerts snapshot managed).materials
    (suppliedDefault snapshot opts)).insertionSort fun a b => a.1 ≤ b.1).map (·.2)

/-- The hosts with a certificate and its id, in registration order. -/
def certEntries : List (Bytes × Nat) :=
  (wiredEntries snapshot managed).map fun e => (e.1, e.2.1)

/-- What registering certificates says. -/
def certificateWarnings : List Warning :=
  (wiredCerts snapshot managed).warnings ++
    ((wiredEntries snapshot managed).flatMap certWarnings ++
      opts.defaultTlsSecret.toList.flatMap
        (defaultCertWarnings (SecretIndex.new snapshot.secrets)))

theorem registerCertificates_eq (c : Compiling) :
    registerCertificates snapshot opts managed c =
      (⟨setDefaultCert ((certEntries snapshot managed).foldl addCert c.builder)
          ((suppliedDefault snapshot opts).map (·.handleId)),
        c.digest.bytes ((certEntries snapshot managed).flatMap encodeCert ++
          ((suppliedDefault snapshot opts).map (·.handleId)).toList.flatMap littleEndian),
        c.warnings ++ certificateWarnings snapshot opts managed⟩,
        suppliedCerts snapshot opts managed) := by
  have hhosts : (wiredEntries snapshot managed).foldl registerCert
      (c.warn (wiredCerts snapshot managed).warnings) =
        ⟨(certEntries snapshot managed).foldl addCert c.builder,
          c.digest.bytes ((certEntries snapshot managed).flatMap encodeCert),
          c.warnings ++ (wiredCerts snapshot managed).warnings ++
            (wiredEntries snapshot managed).flatMap certWarnings⟩ :=
    registerCerts_eq _ _
  unfold suppliedCerts suppliedDefault certificateWarnings
  cases hdefault : opts.defaultTlsSecret with
  | none =>
      have hshape : registerCertificates snapshot opts managed c =
          ((wiredEntries snapshot managed).foldl registerCert
            (c.warn (wiredCerts snapshot managed).warnings),
          ((wiredCerts snapshot managed).materials.insertionSort fun a b => a.1 ≤ b.1).map
            (·.2)) := by
        simp only [registerCertificates, hdefault]
        rfl
      rw [hshape, hhosts]
      simp [setDefaultCert, withMaterial]
  | some reference =>
      have hshape : registerCertificates snapshot opts managed c =
          Prod.map id (fun materials : Map Nat CertMaterial =>
            (materials.insertionSort fun a b => a.1 ≤ b.1).map (·.2))
          (registerDefaultCert (SecretIndex.new snapshot.secrets) reference
            ((wiredEntries snapshot managed).foldl registerCert
              (c.warn (wiredCerts snapshot managed).warnings),
              (wiredCerts snapshot managed).materials)) := by
        simp only [registerCertificates, hdefault]
        rfl
      rw [hshape, hhosts, registerDefaultCert_eq]
      simp

end Certificates

section Promotions

variable {F : Type} (fl : Floats F)

/-- The promotion target a canary Ingress becomes, if it asked to and landed anywhere. -/
def promotionOf (routes : Routes) (canary : Ingress × CanaryAnnotations) :
    Option (PromotionTarget F) :=
  let policy := PromotionAnnotations.parse fl canary.1.metadata.annotations
  let owner := ObjectKey.of canary.1.metadata
  let covered := coveredRoutes routes owner
  if policy.enabled && !covered.isEmpty then
    some ⟨owner, canary.1.metadata.uid, covered, canary.2.weight, policy⟩
  else none

def promotionWarnings (canary : Ingress × CanaryAnnotations) : List Warning :=
  let policy := PromotionAnnotations.parse fl canary.1.metadata.annotations
  if policy.enabled then
    policy.invalid.map fun key => ⟨.of canary.1.metadata, .promotionUnread key⟩
  else []

private theorem collectPromotion_eq (routes : Routes)
    (state : List (PromotionTarget F) × Digest × List Warning)
    (canary : Ingress × CanaryAnnotations) :
    collectPromotion fl routes state canary =
      (state.1 ++ (promotionOf fl routes canary).toList,
        state.2.1.bytes ((promotionOf fl routes canary).toList.flatMap (encodePromotion fl)),
        state.2.2 ++ promotionWarnings fl canary) := by
  obtain ⟨targets, digest, warnings⟩ := state
  unfold collectPromotion promotionOf promotionWarnings
  dsimp only
  cases (PromotionAnnotations.parse fl canary.1.metadata.annotations).enabled with
  | false => simp [Digest.bytes]
  | true =>
      cases hcovered : (coveredRoutes routes (.of canary.1.metadata)).isEmpty with
      | true => simp [Digest.bytes]
      | false =>
          have hdigest := digestPromotion_eq fl digest ⟨.of canary.1.metadata,
            canary.1.metadata.uid, coveredRoutes routes (.of canary.1.metadata), canary.2.weight,
            PromotionAnnotations.parse fl canary.1.metadata.annotations⟩
          simp only at hdigest
          simp [hdigest]

private theorem collectPromotions_fold (routes : Routes)
    (canaries : List (Ingress × CanaryAnnotations))
    (state : List (PromotionTarget F) × Digest × List Warning) :
    canaries.foldl (collectPromotion fl routes) state =
      (state.1 ++ canaries.filterMap (promotionOf fl routes),
        state.2.1.bytes ((canaries.filterMap (promotionOf fl routes)).flatMap (encodePromotion fl)),
        state.2.2 ++ canaries.flatMap (promotionWarnings fl)) := by
  induction canaries generalizing state with
  | nil => simp [Digest.bytes]
  | cons canary rest ih =>
      rw [List.foldl_cons, ih, collectPromotion_eq]
      cases hone : promotionOf fl routes canary <;> simp [hone]

end Promotions

section Whole

/-- The configuration a translation announces, with everything its digest is fed. -/
structure Announcement (F : Type) where
  backends : List BackendDraft
  routes : List RouteFeed
  defaultBackend : Option Bytes
  certificates : List (Bytes × Nat)
  defaultCertificate : Option Nat
  promotions : List (PromotionTarget F)

variable {F : Type} (fl : Floats F) (rx : RegexEngine)

/-- The octets the digest is fed. -/
def Announcement.stream (f : Announcement F) : Bytes :=
  f.backends.flatMap encodeBackend ++ (f.routes.flatMap encodeRoute ++
    (encodeOptStr f.defaultBackend ++ (f.certificates.flatMap encodeCert ++
      (f.defaultCertificate.toList.flatMap littleEndian ++
        f.promotions.flatMap (encodePromotion fl)))))

def setDefault (b : RouteTableBuilder) : Option Bytes → RouteTableBuilder
  | some name => b.setDefaultBackend name
  | none => b

def addRoutes (b : RouteTableBuilder) (drafts : List RouteDraft) : RouteTableBuilder :=
  { b with routes := b.routes ++ drafts }

/-- The builder the router is left with. -/
def Announcement.builder (f : Announcement F) (b : RouteTableBuilder) : RouteTableBuilder :=
  let routed := addRoutes (f.backends.foldl addBackend b)
    (f.routes.filterMap (RouteFeed.taken rx))
  setDefaultCert (f.certificates.foldl addCert (setDefault routed f.defaultBackend))
    f.defaultCertificate

/-- A builder for a table of another generation. -/
def numbered (b : RouteTableBuilder) (n : Nat) : RouteTableBuilder := { b with generation := n }

private theorem addCert_numbered (b : RouteTableBuilder) (n : Nat) (entry : Bytes × Nat) :
    addCert (numbered b n) entry = numbered (addCert b entry) n := by
  unfold addCert RouteTableBuilder.certificate
  cases normalizeConfigHost entry.1 with
  | error err => rfl
  | ok slot => cases slot <;> rfl

private theorem foldl_numbered {α : Type} {f : RouteTableBuilder → α → RouteTableBuilder}
    (h : ∀ b n x, f (numbered b n) x = numbered (f b x) n) (xs : List α) (b : RouteTableBuilder)
    (n : Nat) : xs.foldl f (numbered b n) = numbered (xs.foldl f b) n := by
  induction xs generalizing b with
  | nil => rfl
  | cons x xs ih => rw [List.foldl_cons, h, ih, List.foldl_cons]

private theorem setDefault_numbered (b : RouteTableBuilder) (n : Nat) (name : Option Bytes) :
    setDefault (numbered b n) name = numbered (setDefault b name) n := by
  cases name <;> rfl

private theorem setDefaultCert_numbered (b : RouteTableBuilder) (n : Nat) (id : Option Nat) :
    setDefaultCert (numbered b n) id = numbered (setDefaultCert b id) n := by
  cases id <;> rfl

/-- The generation is carried along, and nothing else depends on it. -/
theorem builder_numbered (f : Announcement F) (b : RouteTableBuilder) (n : Nat) :
    f.builder rx (numbered b n) = numbered (f.builder rx b) n := by
  have hroutes : ∀ (b : RouteTableBuilder) drafts,
      addRoutes (numbered b n) drafts = numbered (addRoutes b drafts) n := fun _ _ => rfl
  unfold Announcement.builder
  dsimp only
  rw [foldl_numbered (f := addBackend) (fun _ _ _ => rfl), hroutes, setDefault_numbered,
    foldl_numbered addCert_numbered, setDefaultCert_numbered]

theorem build_numbered (b : RouteTableBuilder) (n : Nat) :
    (numbered b n).build = b.build.map fun t => { t with generation := n } := by
  unfold RouteTableBuilder.build numbered
  dsimp only
  cases groupRoutes b.backendIds b.routes {} with
  | error err => rfl
  | ok g =>
      cases hdefault : optional (resolveDefault b.backendIds) b.defaultBackend with
      | error err => simp [bind, Except.bind, Except.map]
      | ok target => simp [bind, Except.bind, Except.map, pure, Except.pure]

variable (snapshot : ClusterSnapshot) (opts : ControllerOpts)

/-- The backends of a snapshot as they are registered. -/
def registeredBackends : List BackendDraft :=
  (sortedBackends (collected snapshot opts).1).map
    (backendDraft (EndpointIndex.new snapshot.services snapshot.endpointSlices) opts.lbPolicy)

/-- What a snapshot announces. -/
def announced : Announcement F where
  backends := registeredBackends snapshot opts
  routes := (plans snapshot opts).map RouteFeed.of
  defaultBackend := (planSnapshot snapshot opts).defaultBackend.map (·.backendName)
  certificates := certEntries snapshot (planSnapshot snapshot opts).managed
  defaultCertificate := (suppliedDefault snapshot opts).map (·.handleId)
  promotions := (planSnapshot snapshot opts).canaries.filterMap
    (promotionOf fl (planSnapshot snapshot opts).routes)

/-- Everything a translation says, in the order it is said. -/
def spoken : List Warning :=
  (planSnapshot snapshot opts).warnings ++ ((collected snapshot opts).2 ++
    (((sortedBackends (collected snapshot opts).1).flatMap fun e => (resolveEndpoints
        (EndpointIndex.new snapshot.services snapshot.endpointSlices) e.1).2) ++
      ((plans snapshot opts).flatMap (routeWarnings rx) ++
        (certificateWarnings snapshot opts (planSnapshot snapshot opts).managed ++
          (planSnapshot snapshot opts).canaries.flatMap (promotionWarnings fl)))))

/-- The promotion targets of a snapshot, in the order of their Ingresses. -/
def promotionTargets : List (PromotionTarget F) :=
  (announced fl snapshot opts).promotions.insertionSort fun a b => targetKey a ≤ targetKey b

private theorem registerDefault_eq (target : Option ServiceRef) (c : Compiling) :
    registerDefault target c = ⟨setDefault c.builder (target.map (·.backendName)),
      c.digest.bytes (encodeOptStr (target.map (·.backendName))), c.warnings⟩ := by
  cases target with
  | none => simp [registerDefault, setDefault]
  | some target => simp [registerDefault, setDefault]

/-- Registration after the backends, with the certificates handed to the store. -/
def certified (c : Compiling) : Compiling × List CertMaterial :=
  registerCertificates snapshot opts (planSnapshot snapshot opts).managed
    (registerDefault (planSnapshot snapshot opts).defaultBackend
      (registerRoutes rx (planSnapshot snapshot opts).routes c))

/-- The promotion targets, and the digest and the warnings with which registration ends. -/
def promoted (c : Compiling) : List (PromotionTarget F) × Digest × List Warning :=
  collectPromotions fl (planSnapshot snapshot opts).canaries (planSnapshot snapshot opts).routes
    (certified rx snapshot opts c).1.digest (certified rx snapshot opts c).1.warnings

private theorem certified_eq (c : Compiling) :
    certified rx snapshot opts c =
      (⟨setDefaultCert ((certEntries snapshot (planSnapshot snapshot opts).managed).foldl addCert
            (setDefault { c.builder with routes := c.builder.routes ++
              ((plans snapshot opts).map RouteFeed.of).filterMap (RouteFeed.taken rx) }
              ((planSnapshot snapshot opts).defaultBackend.map (·.backendName))))
          ((suppliedDefault snapshot opts).map (·.handleId)),
        c.digest.bytes (((plans snapshot opts).map RouteFeed.of).flatMap encodeRoute ++
          (encodeOptStr ((planSnapshot snapshot opts).defaultBackend.map (·.backendName)) ++
            ((certEntries snapshot (planSnapshot snapshot opts).managed).flatMap encodeCert ++
              ((suppliedDefault snapshot opts).map (·.handleId)).toList.flatMap littleEndian))),
        c.warnings ++ ((plans snapshot opts).flatMap (routeWarnings rx) ++
          certificateWarnings snapshot opts (planSnapshot snapshot opts).managed)⟩,
        suppliedCerts snapshot opts (planSnapshot snapshot opts).managed) := by
  have hrouted : registerRoutes rx (planSnapshot snapshot opts).routes c = _ :=
    registerRoutes_eq rx (plans snapshot opts) c
  unfold certified
  rw [registerCertificates_eq, registerDefault_eq, hrouted]
  simp

variable (previous : Option RouteTable)

private theorem translate_cases {r : Translation F}
    (h : translate fl rx snapshot opts previous = .ok r) :
    ∃ c table, registerBackends snapshot opts (collected snapshot opts).1
        (started snapshot opts previous) = .ok c ∧
      (certified rx snapshot opts c).1.builder.build = .ok table ∧
      r = ⟨⟨table, (certified rx snapshot opts c).2, (promoted fl rx snapshot opts c).1,
          (promoted fl rx snapshot opts c).2.1.finish⟩, (promoted fl rx snapshot opts c).2.1.finish,
        (planSnapshot snapshot opts).managed.map fun ingress => .of ingress.metadata,
        (promoted fl rx snapshot opts c).2.2⟩ := by
  obtain ⟨c, hc, h⟩ := bind_eq_ok.mp h
  obtain ⟨table, htable, h⟩ := bind_eq_ok.mp h
  refine ⟨c, table, hc, htable, ?_⟩
  cases h
  rfl

/-- What a translation returns, in terms of what it announces. -/
theorem translate_announced {r : Translation F}
    (h : translate fl rx snapshot opts previous = .ok r) :
    ∃ table, ((announced fl snapshot opts).builder rx (startBuilder previous)).build = .ok table ∧
      r = ⟨⟨table, suppliedCerts snapshot opts (planSnapshot snapshot opts).managed,
          promotionTargets fl snapshot opts,
          Digest.finish ⟨(announced fl snapshot opts).stream fl⟩⟩,
        Digest.finish ⟨(announced fl snapshot opts).stream fl⟩,
        (planSnapshot snapshot opts).managed.map fun ingress => .of ingress.metadata,
        spoken fl rx snapshot opts⟩ := by
  obtain ⟨c, table, hc, htable, hr⟩ := translate_cases fl rx snapshot opts previous h
  have hbackends := registerEach_eq hc
  rw [certified_eq, hbackends] at htable
  refine ⟨table, htable, ?_⟩
  rw [hr]
  simp only [promoted, certified_eq, collectPromotions, collectPromotions_fold, bytes_bytes,
    hbackends]
  simp [Announcement.stream, announced, promotionTargets, spoken, registeredBackends, started,
    Digest.bytes]

/-- The generation of the table that succeeds `previous`. -/
def nextGeneration : Option RouteTable → Nat
  | some table => min (table.generation + 1) U64_MAX
  | none => 0

private theorem startBuilder_eq : startBuilder previous = numbered {} (nextGeneration previous) := by
  cases previous <;> rfl

/-- A translation of another generation. -/
def renumbered (r : Translation F) (n : Nat) : Translation F :=
  { r with config := { r.config with table := { r.config.table with generation := n } } }

/-- What a translation succeeds a table with depends on that table in its generation alone. -/
theorem translate_renumbered {r : Translation F}
    (h : translate fl rx snapshot opts previous = .ok r) (previous' : Option RouteTable) :
    translate fl rx snapshot opts previous' = .ok (renumbered r (nextGeneration previous')) := by
  have hnodup := (translate_ok_iff fl rx snapshot opts previous).mp ⟨r, h⟩
  obtain ⟨r', hr'⟩ := (translate_ok_iff fl rx snapshot opts previous').mpr hnodup
  rw [hr']
  obtain ⟨table, htable, rfl⟩ := translate_announced fl rx snapshot opts previous h
  obtain ⟨table', htable', rfl⟩ := translate_announced fl rx snapshot opts previous' hr'
  rw [startBuilder_eq, builder_numbered, build_numbered] at htable htable'
  obtain ⟨t, ht, rfl⟩ := map_eq_ok.mp htable
  obtain ⟨t', ht', rfl⟩ := map_eq_ok.mp htable'
  obtain rfl : t = t' := Except.ok.inj (ht.symm.trans ht')
  rfl

theorem translate_generation {r : Translation F}
    (h : translate fl rx snapshot opts previous = .ok r) :
    r.config.table.generation = nextGeneration previous := by
  have hr := translate_renumbered fl rx snapshot opts previous h previous
  rw [h] at hr
  exact congrArg (·.config.table.generation) (Except.ok.inj hr)

end Whole

end Ramjet.Controller.Feed
