/- digest: The set of addresses a Service reference stands for, and what resolving it yields. -/

import Ramjet.Controller.ArrivalOrder

set_option autoImplicit false
set_option relaxedAutoImplicit false

namespace Ramjet.Controller.EndpointSets

open Ramjet.Base.Octets
open Ramjet.Base.Text
open Ramjet.Base.Net
open Ramjet.Base.AssocMap
open Ramjet.Base.Arrival
open Ramjet.Controller.Objects
open Ramjet.Controller.Config
open Ramjet.Controller.Endpoints
open Ramjet.Controller.ArrivalOrder

section Purpose

/-- The Service a reference names. -/
structure Names (target : ServiceRef) (service : Service) : Prop where
  namespace_ : service.metadata.namespace_ = some target.namespace_
  name : service.metadata.name = some target.name

def IsExternalName (service : Service) : Prop :=
  service.spec.bind (·.type_) = some EXTERNAL_NAME

/-- The first port of a Service that answers to the name or number referred to. -/
def matchedPort (service : Service) (target : ServiceRef) : Option ServicePort :=
  ((service.spec.bind (·.ports)).getD []).find? fun p => portMatches p target.port

/-- The port a slice carries for a Service port, where it is one that can be dialled. -/
def targetPort (port : ServicePort) (slice : EndpointSlice) : Option UInt16 :=
  ((slicePort slice port).filter fun n : Int => decide (0 ≤ n ∧ n ≤ U16_MAX)).map fun n =>
    UInt16.ofNat n.toNat

def IsIpSlice (slice : EndpointSlice) : Prop :=
  slice.addressType = ascii "IPv4" ∨ slice.addressType = ascii "IPv6"

instance (slice : EndpointSlice) : Decidable (IsIpSlice slice) := by
  unfold IsIpSlice
  infer_instance

/-- The slices a reference draws on: those of its Service that list IP addresses and carry its
port. -/
def drawnOn (target : ServiceRef) (port : ServicePort) (slice : EndpointSlice) : Bool :=
  sliceOf (target.namespace_, target.name) slice && decide (IsIpSlice slice) &&
    (targetPort port slice).isSome

def sliceEndpoints (slice : EndpointSlice) : List SliceEndpoint := slice.endpoints.getD []

/-- An address a reference stands for. -/
def Reaches (slices : List EndpointSlice) (target : ServiceRef) (port : ServicePort)
    (addr : SocketAddr) : Prop :=
  ∃ slice ∈ slices, drawnOn target port slice = true ∧
    ∃ endpoint ∈ sliceEndpoints slice, isServing endpoint = true ∧
      ∃ text ∈ endpoint.addresses, ∃ ip number, parseIpAddr text = some ip ∧
        targetPort port slice = some number ∧ addr = ⟨ip, number, 0⟩

/-- What an endpoint lists and gives no address for: everything where it is not serving, else what
does not parse. -/
def passedOver (endpoint : SliceEndpoint) : List Bytes :=
  if isServing endpoint then endpoint.addresses.filter fun text => (parseIpAddr text).isNone
  else endpoint.addresses

def skippedOf (slices : List EndpointSlice) (target : ServiceRef) (port : ServicePort) : Nat :=
  ((slices.filter (drawnOn target port)).flatMap fun slice =>
    (sliceEndpoints slice).flatMap passedOver).length

/-- Each outcome of resolving a reference, with what it says about the Services and slices. -/
inductive Resolves (services : List Service) (slices : List EndpointSlice)
    (target : ServiceRef) : Except ResolveIssue Resolution → Prop
  | serviceMissing (hnone : ∀ service ∈ services, ¬ Names target service) :
      Resolves services slices target (.error .serviceMissing)
  | externalName {service : Service} (hin : service ∈ services) (hnames : Names target service)
      (hexternal : IsExternalName service) :
      Resolves services slices target
        (.error (.externalName ((service.spec.bind (·.externalName)).getD [])))
  | portMissing {service : Service} (hin : service ∈ services) (hnames : Names target service)
      (hinternal : ¬ IsExternalName service) (hport : matchedPort service target = none) :
      Resolves services slices target (.error .portMissing)
  | noReadyEndpoints {service : Service} {port : ServicePort} (hin : service ∈ services)
      (hnames : Names target service) (hinternal : ¬ IsExternalName service)
      (hport : matchedPort service target = some port)
      (hempty : ∀ addr, ¬ Reaches slices target port addr) :
      Resolves services slices target (.error (.noReadyEndpoints (skippedOf slices target port)))
  | ready {service : Service} {port : ServicePort} {r : Resolution} (hin : service ∈ services)
      (hnames : Names target service) (hinternal : ¬ IsExternalName service)
      (hport : matchedPort service target = some port)
      (hsorted : r.endpoints.Pairwise fun a b => a.addr.sortKey < b.addr.sortKey)
      (hset : ∀ e, e ∈ r.endpoints ↔ e.weight = 1 ∧ Reaches slices target port e.addr)
      (hsome : ∃ addr, Reaches slices target port addr)
      (hskipped : r.skipped = skippedOf slices target port) :
      Resolves services slices target (.ok r)

end Purpose

section Slices

variable {target : ServiceRef} {port : ServicePort}

theorem sliceAddrs_eq (port : ServicePort) (slice : EndpointSlice) :
    sliceAddrs port slice =
      match targetPort port slice with
      | none => ([], 0)
      | some number =>
          if IsIpSlice slice then
            (((sliceEndpoints slice).map (endpointAddrs number)).flatMap (·.1),
              (((sliceEndpoints slice).map (endpointAddrs number)).map (·.2)).sum)
          else ([], 0) := by
  unfold sliceAddrs targetPort
  by_cases hip : IsIpSlice slice
  · have hfamily : slice.addressType = ascii "IPv4" ∨ slice.addressType = ascii "IPv6" := hip
    rw [if_pos hfamily]
    cases hport : slicePort slice port with
    | none => simp
    | some n =>
        by_cases hrange : 0 ≤ n ∧ n ≤ U16_MAX
        · rw [Option.filter_some, if_pos (decide_eq_true hrange)]
          simp only [if_pos hrange, if_pos hip, Option.map_some, sliceEndpoints]
        · rw [Option.filter_some, if_neg (by simpa using hrange)]
          simp only [if_neg hrange, Option.map_none]
  · have hfamily : ¬ (slice.addressType = ascii "IPv4" ∨ slice.addressType = ascii "IPv6") := hip
    rw [if_neg hfamily]
    cases (slicePort slice port).filter fun n : Int => decide (0 ≤ n ∧ n ≤ U16_MAX) with
    | none => rfl
    | some n => simp [hip]

theorem mem_endpointAddrs {number : UInt16} {endpoint : SliceEndpoint} {addr : SocketAddr} :
    addr ∈ (endpointAddrs number endpoint).1 ↔ isServing endpoint = true ∧
      ∃ text ∈ endpoint.addresses, ∃ ip, parseIpAddr text = some ip ∧ addr = ⟨ip, number, 0⟩ := by
  unfold endpointAddrs
  by_cases hserving : isServing endpoint = true
  · rw [if_pos hserving]
    simp only [List.mem_map, List.mem_filterMap, hserving, true_and]
    constructor
    · rintro ⟨ip, ⟨text, htext, hparse⟩, rfl⟩
      exact ⟨text, htext, ip, hparse, rfl⟩
    · rintro ⟨text, htext, ip, hparse, rfl⟩
      exact ⟨ip, ⟨text, htext, hparse⟩, rfl⟩
  · rw [if_neg hserving]
    exact ⟨fun hin => absurd hin List.not_mem_nil, fun h => absurd h.1 hserving⟩

theorem skipped_endpointAddrs (number : UInt16) (endpoint : SliceEndpoint) :
    (endpointAddrs number endpoint).2 = (passedOver endpoint).length := by
  have hsplit : ∀ texts : List Bytes, (texts.filterMap parseIpAddr).length +
      (texts.filter fun text => (parseIpAddr text).isNone).length = texts.length := by
    intro texts
    induction texts with
    | nil => rfl
    | cons text texts ih =>
        cases hparse : parseIpAddr text with
        | none =>
            rw [List.filterMap_cons_none hparse, List.filter_cons_of_pos (by simp [hparse])]
            simp only [List.length_cons]
            omega
        | some ip =>
            rw [List.filterMap_cons_some hparse, List.filter_cons_of_neg (by simp [hparse])]
            simp only [List.length_cons]
            omega
  unfold endpointAddrs passedOver
  split
  · have hone := hsplit endpoint.addresses
    dsimp only
    omega
  · rfl

theorem sliceAddrs_of_drawnOn {slice : EndpointSlice} (h : drawnOn target port slice = true) :
    ∃ number, targetPort port slice = some number ∧
      (sliceAddrs port slice).1 =
        (sliceEndpoints slice).flatMap (fun endpoint => (endpointAddrs number endpoint).1) ∧
      (sliceAddrs port slice).2 = ((sliceEndpoints slice).flatMap passedOver).length := by
  simp only [drawnOn, Bool.and_eq_true, decide_eq_true_eq] at h
  obtain ⟨⟨-, hip⟩, hport⟩ := h
  obtain ⟨number, hnumber⟩ := Option.isSome_iff_exists.mp hport
  refine ⟨number, hnumber, ?_, ?_⟩
  · rw [sliceAddrs_eq, hnumber]
    simp only [if_pos hip, List.flatMap_map]
  · rw [sliceAddrs_eq, hnumber]
    simp only [if_pos hip, List.map_map, List.length_flatMap]
    congr 1
    apply List.map_congr_left
    intro endpoint _
    exact skipped_endpointAddrs number endpoint

theorem sliceAddrs_of_not_drawnOn {slice : EndpointSlice}
    (hof : sliceOf (target.namespace_, target.name) slice = true)
    (h : drawnOn target port slice = false) : sliceAddrs port slice = ([], 0) := by
  rw [sliceAddrs_eq]
  cases hnumber : targetPort port slice with
  | none => rfl
  | some number =>
      have hip : ¬ IsIpSlice slice := by
        intro hip
        simp [drawnOn, hof, hip, hnumber] at h
      simp only [if_neg hip]

/-- The addresses gathered for a reference, and how many were left out. -/
def gathered (slices : List EndpointSlice) (target : ServiceRef) (port : ServicePort) :
    List SocketAddr :=
  ((slices.filter (sliceOf (target.namespace_, target.name))).map (sliceAddrs port)).flatMap (·.1)

theorem mem_gathered {slices : List EndpointSlice} {addr : SocketAddr} :
    addr ∈ gathered slices target port ↔ Reaches slices target port addr := by
  simp only [gathered, List.flatMap_map, List.mem_flatMap, List.mem_filter]
  constructor
  · rintro ⟨slice, ⟨hin, hof⟩, haddr⟩
    cases hdrawn : drawnOn target port slice with
    | false =>
        rw [sliceAddrs_of_not_drawnOn hof hdrawn] at haddr
        cases haddr
    | true =>
        obtain ⟨number, hnumber, hfirst, -⟩ := sliceAddrs_of_drawnOn hdrawn
        rw [hfirst, List.mem_flatMap] at haddr
        obtain ⟨endpoint, hendpoint, haddr⟩ := haddr
        obtain ⟨hserving, text, htext, ip, hparse, rfl⟩ := mem_endpointAddrs.mp haddr
        exact ⟨slice, hin, hdrawn, endpoint, hendpoint, hserving, text, htext, ip, number, hparse,
          hnumber, rfl⟩
  · rintro ⟨slice, hin, hdrawn, endpoint, hendpoint, hserving, text, htext, ip, number, hparse,
      hnumber, rfl⟩
    have hof : sliceOf (target.namespace_, target.name) slice = true := by
      simp only [drawnOn, Bool.and_eq_true] at hdrawn
      exact hdrawn.1.1
    obtain ⟨number', hnumber', hfirst, -⟩ := sliceAddrs_of_drawnOn hdrawn
    obtain rfl : number = number' := Option.some.inj (hnumber.symm.trans hnumber')
    refine ⟨slice, ⟨hin, hof⟩, ?_⟩
    rw [hfirst, List.mem_flatMap]
    exact ⟨endpoint, hendpoint, mem_endpointAddrs.mpr ⟨hserving, text, htext, ip, hparse, rfl⟩⟩

theorem sum_skipped (slices : List EndpointSlice) (target : ServiceRef) (port : ServicePort) :
    (((slices.filter (sliceOf (target.namespace_, target.name))).map (sliceAddrs port)).map
      (·.2)).sum = skippedOf slices target port := by
  induction slices with
  | nil => rfl
  | cons slice slices ih =>
      cases hof : sliceOf (target.namespace_, target.name) slice with
      | false =>
          have hdrawn : drawnOn target port slice = false := by simp [drawnOn, hof]
          simpa [skippedOf, hof, hdrawn] using ih
      | true =>
          cases hdrawn : drawnOn target port slice with
          | false =>
              have hnone := sliceAddrs_of_not_drawnOn hof hdrawn
              simpa [skippedOf, hof, hdrawn, hnone] using ih
          | true =>
              obtain ⟨_, -, -, hsecond⟩ := sliceAddrs_of_drawnOn hdrawn
              rw [List.filter_cons_of_pos hof, List.map_cons, List.map_cons, List.sum_cons, ih,
                hsecond, skippedOf, skippedOf, List.filter_cons_of_pos hdrawn, List.flatMap_cons,
                List.length_append]

end Slices

section Resolving

/-- What is made of the addresses gathered and the count of those left out. -/
def settled (addrs : List SocketAddr) (skipped : Nat) : Except ResolveIssue Resolution :=
  let addrs := (addrs.insertionSort fun a b => a.sortKey ≤ b.sortKey).destutter (· ≠ ·)
  if addrs.isEmpty then .error (.noReadyEndpoints skipped)
  else .ok ⟨addrs.map fun addr => ⟨addr, 1⟩, skipped⟩

theorem resolve_eq (services : List Service) (slices : List EndpointSlice) (target : ServiceRef) :
    (EndpointIndex.new services slices).resolve target =
      match get (indexServices services) (target.namespace_, target.name) with
      | none => .error .serviceMissing
      | some service =>
          if service.spec.bind (·.type_) = some EXTERNAL_NAME then
            .error (.externalName ((service.spec.bind (·.externalName)).getD []))
          else
            match matchedPort service target with
            | none => .error .portMissing
            | some port =>
                settled (gathered slices target port) (skippedOf slices target port) := by
  simp only [EndpointIndex.resolve, EndpointIndex.new, get_indexSlices, sum_skipped, gathered,
    settled, matchedPort]
  rfl

theorem sortKey_injective_gathered {slices : List EndpointSlice} {target : ServiceRef}
    {port : ServicePort} : ∀ a ∈ gathered slices target port, ∀ b ∈ gathered slices target port,
      a.sortKey = b.sortKey → a = b := by
  intro a ha b hb
  obtain ⟨_, -, -, _, -, -, _, -, _, _, -, -, rfl⟩ := mem_gathered.mp ha
  obtain ⟨_, -, -, _, -, -, _, -, _, _, -, -, rfl⟩ := mem_gathered.mp hb
  exact sortKey_injective rfl rfl

theorem names_iff (target : ServiceRef) (service : Service) :
    Names target service ↔ nameKey service.metadata = some (target.namespace_, target.name) := by
  unfold nameKey
  constructor
  · rintro ⟨hnamespace, hname⟩
    rw [hnamespace, hname]
    rfl
  · intro h
    obtain ⟨ns, hns, h⟩ := Option.bind_eq_some_iff.mp h
    obtain ⟨name, hname, h⟩ := Option.map_eq_some_iff.mp h
    obtain ⟨rfl, rfl⟩ := Prod.mk.inj h
    exact ⟨hns, hname⟩

/-- Resolving a reference has one of the outcomes described. -/
theorem resolve_spec (services : List Service) (slices : List EndpointSlice)
    (target : ServiceRef) :
    Resolves services slices target ((EndpointIndex.new services slices).resolve target) := by
  rw [resolve_eq, indexServices_eq, get_indexBy]
  cases hfind : services.reverse.find? fun s =>
      decide (nameKey s.metadata = some (target.namespace_, target.name)) with
  | none =>
      rw [List.find?_eq_none] at hfind
      refine .serviceMissing fun service hin hnames => ?_
      exact hfind service (List.mem_reverse.mpr hin)
        (decide_eq_true ((names_iff target service).mp hnames))
  | some service =>
      have hin : service ∈ services := List.mem_reverse.mp (List.mem_of_find?_eq_some hfind)
      have hkey := List.find?_some hfind
      have hnames : Names target service := (names_iff target service).mpr (of_decide_eq_true hkey)
      dsimp only
      split
      · rename_i hexternal
        exact .externalName hin hnames hexternal
      · rename_i hinternal
        cases hport : matchedPort service target with
        | none => exact .portMissing hin hnames hinternal hport
        | some port =>
            have hinjective : ∀ a ∈ gathered slices target port,
                ∀ b ∈ gathered slices target port, a.sortKey = b.sortKey → a = b :=
              sortKey_injective_gathered
            obtain ⟨hsorted, hset⟩ := sorted_destutter hinjective
            dsimp only [settled]
            split
            · rename_i hempty
              refine .noReadyEndpoints hin hnames hinternal hport fun addr haddr => ?_
              have hmem := (hset addr).mpr (mem_gathered.mpr haddr)
              rw [List.isEmpty_iff.mp hempty] at hmem
              cases hmem
            · rename_i hsome
              refine .ready hin hnames hinternal hport ?_ ?_ ?_ rfl
              · exact List.pairwise_map.mpr hsorted
              · intro e
                rw [List.mem_map]
                constructor
                · rintro ⟨addr, haddr, rfl⟩
                  exact ⟨rfl, mem_gathered.mp ((hset addr).mp haddr)⟩
                · rintro ⟨hweight, haddr⟩
                  refine ⟨e.addr, (hset e.addr).mpr (mem_gathered.mpr haddr), ?_⟩
                  rw [← hweight]
              · obtain ⟨addr, haddr⟩ := List.exists_mem_of_ne_nil _ (mt List.isEmpty_iff.mpr hsome)
                exact ⟨addr, mem_gathered.mp ((hset addr).mp haddr)⟩

end Resolving

section Orders

/-- An endpoint with its addresses in another order. -/
structure SameEndpoint (e e' : SliceEndpoint) : Prop where
  conditions : e.conditions = e'.conditions
  addresses : e.addresses.Perm e'.addresses

/-- A slice with its endpoints, and the addresses of each, in another order. -/
structure SameSlice (s s' : EndpointSlice) : Prop where
  metadata : s.metadata = s'.metadata
  addressType : s.addressType = s'.addressType
  ports : s.ports = s'.ports
  endpoints : Reordered SameEndpoint (sliceEndpoints s) (sliceEndpoints s')

theorem SameSlice.refl (s : EndpointSlice) : SameSlice s s :=
  ⟨rfl, rfl, rfl, .of_perm (fun _ => ⟨rfl, .refl _⟩) (.refl _)⟩

variable {target : ServiceRef} {port : ServicePort}

theorem SameEndpoint.isServing_eq {e e' : SliceEndpoint} (h : SameEndpoint e e') :
    isServing e = isServing e' := by
  unfold isServing
  rw [h.conditions]

theorem SameEndpoint.passedOver_perm {e e' : SliceEndpoint} (h : SameEndpoint e e') :
    (passedOver e).Perm (passedOver e') := by
  unfold passedOver
  rw [h.isServing_eq]
  split
  · exact h.addresses.filter _
  · exact h.addresses

theorem SameEndpoint.addrs_perm {e e' : SliceEndpoint} (h : SameEndpoint e e') (number : UInt16) :
    (endpointAddrs number e).1.Perm (endpointAddrs number e').1 := by
  unfold endpointAddrs
  rw [h.isServing_eq]
  split
  · exact (h.addresses.filterMap parseIpAddr).map _
  · exact .refl []

theorem SameSlice.targetPort_eq {s s' : EndpointSlice} (h : SameSlice s s') :
    targetPort port s = targetPort port s' := by
  unfold targetPort slicePort
  rw [h.ports]

theorem SameSlice.sliceOf_eq {s s' : EndpointSlice} (h : SameSlice s s') (k : Bytes × Bytes) :
    sliceOf k s = sliceOf k s' := by
  unfold sliceOf
  rw [h.metadata]

theorem SameSlice.drawnOn_eq {s s' : EndpointSlice} (h : SameSlice s s') :
    drawnOn target port s = drawnOn target port s' := by
  simp only [drawnOn, IsIpSlice, h.sliceOf_eq, h.targetPort_eq, h.addressType]

theorem SameSlice.addrs_perm {s s' : EndpointSlice} (h : SameSlice s s') :
    (sliceAddrs port s).1.Perm (sliceAddrs port s').1 := by
  rw [sliceAddrs_eq, sliceAddrs_eq, h.targetPort_eq]
  cases targetPort port s' with
  | none => exact .refl []
  | some number =>
      by_cases hip : IsIpSlice s
      · have hip' : IsIpSlice s' := by rwa [IsIpSlice, ← h.addressType]
        simp only [if_pos hip, if_pos hip', List.flatMap_map]
        exact h.endpoints.flatMap fun e e' he => he.addrs_perm number
      · have hip' : ¬ IsIpSlice s' := by rwa [IsIpSlice, ← h.addressType]
        simp only [if_neg hip, if_neg hip', List.Perm.refl]

/-- What is gathered is the same addresses for every order. -/
theorem gathered_perm {slices slices' : List EndpointSlice}
    (h : Reordered SameSlice slices slices') :
    (gathered slices target port).Perm (gathered slices' target port) := by
  unfold gathered
  rw [List.flatMap_map, List.flatMap_map]
  exact (h.filter fun s s' hs => hs.sliceOf_eq _).flatMap fun s s' hs => hs.addrs_perm

theorem skippedOf_eq {slices slices' : List EndpointSlice}
    (h : Reordered SameSlice slices slices') :
    skippedOf slices target port = skippedOf slices' target port := by
  apply List.Perm.length_eq
  refine (h.filter fun s s' hs => hs.drawnOn_eq).flatMap fun s s' hs => ?_
  exact hs.endpoints.flatMap fun e e' he => he.passedOver_perm

theorem resolve_reordered {services services' : List Service} {slices slices' : List EndpointSlice}
    (hunique : (services.map fun s => ObjectKey.of s.metadata).Nodup)
    (hservices : services.Perm services') (hslices : Reordered SameSlice slices slices')
    (target : ServiceRef) :
    (EndpointIndex.new services slices).resolve target =
      (EndpointIndex.new services' slices').resolve target := by
  have hsettled (port : ServicePort) :
      settled (gathered slices target port) (skippedOf slices target port) =
        settled (gathered slices' target port) (skippedOf slices' target port) := by
    unfold settled
    rw [insertionSort_perm (gathered_perm hslices) sortKey_injective_gathered, skippedOf_eq hslices]
  simp only [resolve_eq, indexServices_eq, get_named_perm hservices hunique, hsettled]

end Orders

section Results

/-- A reference resolves to the set of addresses it stands for, sorted and each once, and to a
count of those passed over; it fails just where there is no such set or it is empty; and the order
of Services, slices, endpoints and addresses does not matter. -/
theorem resolve_reaches (services : List Service) (slices : List EndpointSlice)
    (target : ServiceRef) (hunique : (services.map fun s => ObjectKey.of s.metadata).Nodup) :
    (∀ r, (EndpointIndex.new services slices).resolve target = .ok r →
      ∃ service ∈ services, Names target service ∧ ¬ IsExternalName service ∧
        ∃ port, matchedPort service target = some port ∧
          r.endpoints.Pairwise (fun a b => a.addr.sortKey < b.addr.sortKey) ∧
          (∀ e, e ∈ r.endpoints ↔ e.weight = 1 ∧ Reaches slices target port e.addr) ∧
          r.skipped = skippedOf slices target port) ∧
    ((∃ issue, (EndpointIndex.new services slices).resolve target = .error issue) ↔
      (∀ service ∈ services, ¬ Names target service) ∨
      ∃ service ∈ services, Names target service ∧
        (IsExternalName service ∨ matchedPort service target = none ∨
          ∃ port, matchedPort service target = some port ∧
            ∀ addr, ¬ Reaches slices target port addr)) ∧
    (∀ n, (EndpointIndex.new services slices).resolve target = .error (.noReadyEndpoints n) →
      ∃ service ∈ services, Names target service ∧
        ∃ port, matchedPort service target = some port ∧ n = skippedOf slices target port) ∧
    ∀ services' slices', services.Perm services' → Reordered SameSlice slices slices' →
      (EndpointIndex.new services slices).resolve target =
        (EndpointIndex.new services' slices').resolve target := by
  have hspec := resolve_spec services slices target
  have hone : ∀ service ∈ services, ∀ other ∈ services, Names target service →
      Names target other → service = other := by
    intro service hin other hother hnames hnames'
    refine List.inj_on_of_nodup_map hunique hin hother ?_
    rw [objectKey_of_nameKey ((names_iff target service).mp hnames),
      objectKey_of_nameKey ((names_iff target other).mp hnames')]
  refine ⟨?_, ⟨?_, ?_⟩, ?_, ?_⟩
  · intro r hr
    rw [hr] at hspec
    cases hspec with
    | ready hin hnames hinternal hport hsorted hset hsome hskipped =>
        exact ⟨_, hin, hnames, hinternal, _, hport, hsorted, hset, hskipped⟩
  · rintro ⟨issue, hissue⟩
    rw [hissue] at hspec
    cases hspec with
    | serviceMissing hnone => exact Or.inl hnone
    | externalName hin hnames hexternal => exact Or.inr ⟨_, hin, hnames, Or.inl hexternal⟩
    | portMissing hin hnames _ hport => exact Or.inr ⟨_, hin, hnames, Or.inr (Or.inl hport)⟩
    | noReadyEndpoints hin hnames _ hport hempty =>
        exact Or.inr ⟨_, hin, hnames, Or.inr (Or.inr ⟨_, hport, hempty⟩)⟩
  · intro hfails
    cases hr : (EndpointIndex.new services slices).resolve target with
    | error issue => exact ⟨issue, rfl⟩
    | ok r =>
        rw [hr] at hspec
        cases hspec with
        | @ready service port _ hin hnames hinternal hport _ _ hsome _ =>
            rcases hfails with hnone | ⟨other, hother, hnames', hfails⟩
            · exact absurd hnames (hnone service hin)
            · obtain rfl := hone service hin other hother hnames hnames'
              rcases hfails with hexternal | hnoport | ⟨port', hport', hempty⟩
              · exact absurd hexternal hinternal
              · rw [hport] at hnoport
                cases hnoport
              · obtain rfl : port = port' := Option.some.inj (hport.symm.trans hport')
                obtain ⟨addr, haddr⟩ := hsome
                exact absurd haddr (hempty addr)
  · intro n hn
    rw [hn] at hspec
    cases hspec with
    | noReadyEndpoints hin hnames _ hport _ => exact ⟨_, hin, hnames, _, hport, rfl⟩
  · intro services' slices' hservices hslices
    exact resolve_reordered hunique hservices hslices target

/-- A Service reached by port name through two slices, one endpoint of which is shutting down. -/
theorem resolve_reaches_two_slices :
    let web : ObjectMeta :=
      { name := some (ascii "web"), namespace_ := some (ascii "prod"),
        labels := [(SERVICE_NAME_LABEL, ascii "web")] }
    let services : List Service :=
      [⟨web, some { ports := some [⟨some (ascii "http"), 80⟩] }⟩]
    let slice (endpoints : List SliceEndpoint) : EndpointSlice :=
      { metadata := web, addressType := ascii "IPv4", endpoints := some endpoints
        ports := some [⟨some (ascii "http"), some 8080⟩] }
    let slices := [slice [⟨[ascii "10.0.0.9", ascii "10.0.0.7"], none⟩],
      slice [⟨[ascii "10.0.0.8"], some { terminating := some true }⟩,
        ⟨[ascii "10.0.0.9", ascii "web-0"], none⟩]]
    let target : ServiceRef := ⟨ascii "prod", ascii "web", .name (ascii "http")⟩
    (EndpointIndex.new services slices).resolve target =
        .ok ⟨[⟨⟨.v4 #v[10, 0, 0, 7], 8080, 0⟩, 1⟩, ⟨⟨.v4 #v[10, 0, 0, 9], 8080, 0⟩, 1⟩], 2⟩ ∧
      (EndpointIndex.new services slices).resolve target =
        (EndpointIndex.new services slices.reverse).resolve target := by
  intro web services slice slices target
  have hunique : (services.map fun s => ObjectKey.of s.metadata).Nodup := List.nodup_singleton _
  refine ⟨by decide +kernel, ?_⟩
  exact (resolve_reaches services slices target hunique).2.2.2 services slices.reverse (.refl _)
    (.of_perm SameSlice.refl slices.reverse_perm.symm)

end Results

end Ramjet.Controller.EndpointSets
