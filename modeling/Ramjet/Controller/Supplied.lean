/- digest: Every certificate a compiled table names comes with its material. -/

import Ramjet.Controller.Feed
import Ramjet.Controller.Totality

set_option autoImplicit false
set_option relaxedAutoImplicit false

namespace Ramjet.Controller.Supplied

open Ramjet.Base.Octets
open Ramjet.Base.AssocMap
open Ramjet.Router.Rule
open Ramjet.Router.Table
open Ramjet.Router.Builder
open Ramjet.Router.BuiltTable
open Ramjet.Controller.Objects
open Ramjet.Controller.Annotations
open Ramjet.Controller.Config
open Ramjet.Controller.Secrets
open Ramjet.Controller.Plan
open Ramjet.Controller.Translate
open Ramjet.Controller.Registration
open Ramjet.Controller.Compiled
open Ramjet.Controller.Feed
open Ramjet.Controller.Totality (sniAt)

section Reading

/-- The hosts wired so far have their material, and each material is filed under its own id. -/
structure Backed (s : CertState) : Prop where
  hosts : ∀ host v, get s.byHost host = some v → (get s.materials v.1).isSome = true
  keyed : ∀ id m, get s.materials id = some m → m.handleId = id

private theorem claimCerts_spec (owner : ObjectKey) (id : Nat) (hosts : List Bytes)
    (s : CertState) :
    (hosts.foldl (claimCert owner id) s).materials = s.materials ∧
      ∀ host v, get (hosts.foldl (claimCert owner id) s).byHost host = some v →
        get s.byHost host = some v ∨ v.1 = id := by
  induction hosts generalizing s with
  | nil => exact ⟨rfl, fun _ _ => Or.inl⟩
  | cons name rest ih =>
      obtain ⟨hmaterials, hheld⟩ := ih (claimCert owner id s name)
      have hone : (claimCert owner id s name).materials = s.materials ∧
          ∀ host v, get (claimCert owner id s name).byHost host = some v →
            get s.byHost host = some v ∨ v.1 = id := by
        unfold claimCert
        split
        · exact ⟨rfl, fun _ _ => Or.inl⟩
        · refine ⟨rfl, fun host v h => ?_⟩
          rw [get_insert] at h
          split at h
          · cases h
            exact Or.inr rfl
          · exact Or.inl h
      refine ⟨hmaterials.trans hone.1, fun host v h => ?_⟩
      rcases hheld host v h with h | h
      · exact hone.2 host v h
      · exact Or.inr h

private theorem backed_insert {s s' : CertState} (h : Backed s) (m : CertMaterial)
    (hmaterials : s'.materials = insert s.materials m.handleId m)
    (hhosts : ∀ host v, get s'.byHost host = some v →
      get s.byHost host = some v ∨ v.1 = m.handleId) : Backed s' := by
  refine ⟨fun host v hv => ?_, fun id m' hm' => ?_⟩
  · rw [hmaterials, get_insert]
    split
    · rfl
    · rename_i hne
      rcases hhosts host v hv with hv | hid
      · exact h.hosts host v hv
      · exact absurd hid hne
  · rw [hmaterials, get_insert] at hm'
    split at hm'
    · rename_i hid
      cases hm'
      exact hid.symm
    · exact h.keyed id m' hm'

private theorem backed_readTls (secrets : SecretIndex) (owner : ObjectKey) {s : CertState}
    (h : Backed s) (entry : IngressTLS) : Backed (readTls secrets owner s entry) := by
  unfold readTls
  dsimp only
  split
  · exact ⟨h.hosts, h.keyed⟩
  · split
    · exact ⟨h.hosts, h.keyed⟩
    · split
      · exact ⟨h.hosts, h.keyed⟩
      · rename_i m _
        obtain ⟨hmaterials, hhosts⟩ := claimCerts_spec owner m.handleId
          ((entry.hosts.getD []).filterMap fun h => normalizeHost (some h)) s
        refine backed_insert h m ?_ hhosts
        dsimp only
        rw [hmaterials]

theorem backed_wiredCerts (snapshot : ClusterSnapshot) (managed : List Ingress) :
    Backed (wiredCerts snapshot managed) := by
  have hentries : ∀ (owner : ObjectKey) (entries : List IngressTLS) (s : CertState), Backed s →
      Backed (entries.foldl (readTls (SecretIndex.new snapshot.secrets) owner) s) := by
    intro owner entries
    induction entries with
    | nil => exact fun _ => id
    | cons entry rest ih => exact fun s h => ih _ (backed_readTls _ owner h entry)
  have hfold : ∀ (ingresses : List Ingress) (s : CertState), Backed s →
      Backed (ingresses.foldl (readTlsOf (SecretIndex.new snapshot.secrets)) s) := by
    intro ingresses
    induction ingresses with
    | nil => exact fun _ => id
    | cons ingress rest ih => exact fun s h => ih _ (hentries _ _ s h)
  exact hfold managed {} ⟨fun _ _ h => (by cases h), fun _ _ h => (by cases h)⟩

end Reading

section Supplying

variable (snapshot : ClusterSnapshot) (opts : ControllerOpts) (managed : List Ingress)

/-- What is filed under an id is handed to the store. -/
private theorem mem_suppliedCerts {m : CertMaterial}
    (h : get (withMaterial (wiredCerts snapshot managed).materials
      (suppliedDefault snapshot opts)) m.handleId = some m) :
    m ∈ suppliedCerts snapshot opts managed :=
  List.mem_map.mpr ⟨(m.handleId, m), (List.mem_insertionSort _).mpr (mem_of_get h), rfl⟩

/-- Materials keep their ids when the default certificate joins them. -/
private theorem supplied_of_wired {id : Nat}
    (h : (get (wiredCerts snapshot managed).materials id).isSome = true) :
    ∃ m ∈ suppliedCerts snapshot opts managed, m.handleId = id := by
  obtain ⟨m, hm⟩ := Option.isSome_iff_exists.mp h
  obtain rfl := (backed_wiredCerts snapshot managed).keyed id m hm
  cases hdefault : suppliedDefault snapshot opts with
  | none =>
      refine ⟨m, mem_suppliedCerts snapshot opts managed ?_, rfl⟩
      rw [hdefault]
      exact hm
  | some d =>
      by_cases hid : m.handleId = d.handleId
      · refine ⟨d, mem_suppliedCerts snapshot opts managed ?_, hid.symm⟩
        rw [hdefault, withMaterial, get_insert_self]
      · refine ⟨m, mem_suppliedCerts snapshot opts managed ?_, rfl⟩
        rw [hdefault, withMaterial, get_insert_of_ne _ hid]
        exact hm

private theorem tlsAt_addCert (b : RouteTableBuilder) (entry : Bytes × Nat) {slot : HostSlot}
    {id : Nat} (h : tlsAt (addCert b entry) slot = some id) :
    tlsAt b slot = some id ∨ id = entry.2 := by
  unfold addCert RouteTableBuilder.certificate at h
  cases hslot : normalizeConfigHost entry.1 with
  | error err =>
      rw [hslot] at h
      exact Or.inl h
  | ok filed =>
      rw [hslot] at h
      cases filed <;> cases slot <;> simp only [tlsAt, get_insert] at h ⊢
      all_goals first
        | exact Or.inl h
        | (split at h
           · exact Or.inr (Option.some.inj h).symm
           · exact Or.inl h)
        | exact Or.inr (Option.some.inj h).symm

private theorem tlsAt_addCerts (entries : List (Bytes × Nat)) (b : RouteTableBuilder)
    {slot : HostSlot} {id : Nat} (h : tlsAt (entries.foldl addCert b) slot = some id) :
    tlsAt b slot = some id ∨ ∃ entry ∈ entries, entry.2 = id := by
  induction entries generalizing b with
  | nil => exact Or.inl h
  | cons entry rest ih =>
      rcases ih (addCert b entry) h with h | ⟨other, hother, hid⟩
      · rcases tlsAt_addCert b entry h with h | hid
        · exact Or.inl h
        · exact Or.inr ⟨entry, List.mem_cons_self, hid.symm⟩
      · exact Or.inr ⟨other, List.mem_cons_of_mem _ hother, hid⟩

private theorem tlsAt_addBackends (drafts : List BackendDraft) (b : RouteTableBuilder)
    (slot : HostSlot) : tlsAt (drafts.foldl addBackend b) slot = tlsAt b slot := by
  induction drafts generalizing b with
  | nil => rfl
  | cons d rest ih =>
      rw [List.foldl_cons, ih]
      cases slot <;> rfl

variable {F : Type} (fl : Floats F) (rx : RegexEngine)

/-- A certificate id that a compiled table names is one of its configuration's materials. -/
theorem named_supplied {previous : Option RouteTable} {r : Translation F}
    (h : translate fl rx snapshot opts previous = .ok r) {slot : HostSlot} {id : Nat}
    (hnamed : sniAt r.config.table.tls slot = some id) :
    ∃ m ∈ r.config.certs, m.handleId = id := by
  obtain ⟨table, htable, rfl⟩ := translate_announced fl rx snapshot opts previous h
  have hbuilt : tlsAt ((announced fl snapshot opts).builder rx (startBuilder previous)) slot =
      some id := by
    rw [← hnamed]
    dsimp only
    rw [build_tls htable]
    cases slot <;> rfl
  have hstart : tlsAt (startBuilder previous) slot = none := by
    cases previous <;> cases slot <;> rfl
  have hrouted : ∀ b : RouteTableBuilder, ∀ drafts name,
      tlsAt (setDefault (addRoutes b drafts) name) slot = tlsAt b slot := by
    intro b drafts name
    cases name <;> cases slot <;> rfl
  have hcerts : tlsAt ((certEntries snapshot (planSnapshot snapshot opts).managed).foldl addCert
      (setDefault (addRoutes ((announced fl snapshot opts).backends.foldl addBackend
        (startBuilder previous)) ((announced fl snapshot opts).routes.filterMap
          (RouteFeed.taken rx))) (announced fl snapshot opts).defaultBackend)) slot = some id ∨
      ∃ d, suppliedDefault snapshot opts = some d ∧ d.handleId = id := by
    unfold Announcement.builder at hbuilt
    dsimp only at hbuilt
    cases hdefault : suppliedDefault snapshot opts with
    | none =>
        have hnone : (announced fl snapshot opts).defaultCertificate = none := by
          simp [announced, hdefault]
        rw [hnone] at hbuilt
        exact Or.inl hbuilt
    | some d =>
        have hsome : (announced fl snapshot opts).defaultCertificate = some d.handleId := by
          simp [announced, hdefault]
        rw [hsome] at hbuilt
        cases slot with
        | catchAll => exact Or.inr ⟨d, rfl, Option.some.inj hbuilt⟩
        | exact h => exact Or.inl hbuilt
        | wildcard h => exact Or.inl hbuilt
  rcases hcerts with hcerts | ⟨d, hdefault, rfl⟩
  · rcases tlsAt_addCerts _ _ hcerts with hbefore | ⟨entry, hentry, rfl⟩
    · rw [hrouted, tlsAt_addBackends, hstart] at hbefore
      cases hbefore
    · obtain ⟨wired, hwired, rfl⟩ := List.mem_map.mp hentry
      have hmem : wired ∈ (wiredCerts snapshot (planSnapshot snapshot opts).managed).byHost :=
        (List.mem_insertionSort _).mp hwired
      have hget := get_of_mem
        (certOk_wiredCerts snapshot (planSnapshot snapshot opts).managed).nodup hmem
      exact supplied_of_wired snapshot opts _ ((backed_wiredCerts snapshot _).hosts _ _ hget)
  · refine ⟨d, mem_suppliedCerts snapshot opts _ ?_, rfl⟩
    rw [hdefault, withMaterial, get_insert_self]

end Supplying

end Ramjet.Controller.Supplied
