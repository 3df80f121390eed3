/- digest: Whatever an object asks for in vain before the router sees it is reported under it. -/

import Ramjet.Base.Accumulate
import Ramjet.Controller.Compiled

set_option autoImplicit false
set_option relaxedAutoImplicit false

namespace Ramjet.Controller.Reported

open Ramjet.Base.Octets
open Ramjet.Base.AssocMap
open Ramjet.Base.Accumulate
open Ramjet.Router.Balancing
open Ramjet.Router.Rule
open Ramjet.Controller.Objects
open Ramjet.Controller.Annotations
open Ramjet.Controller.Config
open Ramjet.Controller.Endpoints
open Ramjet.Controller.Secrets
open Ramjet.Controller.Warnings
open Ramjet.Controller.Plan
open Ramjet.Controller.Translate
open Ramjet.Controller.Claims
open Ramjet.Controller.Registration
open Ramjet.Controller.Compiled

/-- An object has something reported about it. -/
def Reports (ws : List Warning) (subject : ObjectKey) : Prop := ∃ w ∈ ws, w.subject = subject

theorem Reports.mono {ws ws' : List Warning} {subject : ObjectKey} (h : Reports ws subject)
    (hkept : ∀ w ∈ ws, w ∈ ws') : Reports ws' subject := by
  obtain ⟨w, hw, hsubject⟩ := h
  exact ⟨w, hkept w hw, hsubject⟩

section Planning

private theorem planEntry_keeps (o : Origin) (p : Planning)
    (entry : Option Bytes × HTTPIngressPath) :
    ∀ w ∈ p.warnings, w ∈ (planEntry o p entry).warnings := by
  intro w hw
  unfold planEntry Planning.claim Planning.warn
  dsimp only
  split
  · exact List.mem_append_left _ hw
  · split
    · exact List.mem_append_left _ (List.mem_append_left _ hw)
    · exact List.mem_append_left _ hw

private theorem planDefault_keeps (o : Origin) (spec : IngressSpec) (p : Planning) :
    ∀ w ∈ p.warnings, w ∈ (planDefault o spec p).warnings := by
  intro w hw
  unfold planDefault Planning.warn
  dsimp only
  split
  · exact hw
  · split
    · exact List.mem_append_left _ hw
    · split
      · split
        · exact List.mem_append_left _ (List.mem_append_left _ hw)
        · exact List.mem_append_left _ hw
      · exact List.mem_append_left _ hw

private theorem planIngress_keeps (p : Planning) (ingress : Ingress) :
    ∀ w ∈ p.warnings, w ∈ (planIngress p ingress).warnings := by
  intro w hw
  unfold planIngress
  split
  · exact hw
  · refine planDefault_keeps _ _ _ w (foldl_keeps (fun p e h => planEntry_keeps _ p e w h) _ ?_)
    exact List.mem_append_left _ hw

private theorem backendRef_reports {ns : Bytes} {backend : IngressBackend} {owner : ObjectKey}
    (h : (backendRef ns backend owner).1 = none) : Reports (backendRef ns backend owner).2 owner := by
  unfold backendRef at h ⊢
  split
  · exact ⟨_, List.mem_singleton_self _, rfl⟩
  · rename_i service hservice
    rw [hservice] at h
    dsimp only at h ⊢
    cases hport : backendPort service.port with
    | none => exact ⟨_, List.mem_singleton_self _, rfl⟩
    | some port =>
        rw [hport] at h
        cases h

private theorem readEntry_reports {owner : ObjectKey} {host : Option Bytes}
    {entry : HTTPIngressPath} (h : (readEntry owner host entry).1 = none) :
    Reports (readEntry owner host entry).2 owner := by
  unfold readEntry at h ⊢
  dsimp only at h ⊢
  cases hbackend : (backendRef owner.namespace_ entry.backend owner).1 with
  | none => exact backendRef_reports hbackend
  | some target =>
      rw [hbackend] at h
      cases h

variable (snapshot : ClusterSnapshot) (opts : ControllerOpts)

private theorem attachEntry_keeps (owner : ObjectKey) (rules : CanaryAnnotations)
    (protocol : BackendProtocol) (s : Routes × List Warning)
    (entry : Option Bytes × HTTPIngressPath) :
    ∀ w ∈ s.2, w ∈ (attachEntry owner rules protocol s entry).2 := by
  intro w hw
  unfold attachEntry
  dsimp only
  split
  · exact List.mem_append_left _ hw
  · split
    · exact List.mem_append_left _ (List.mem_append_left _ hw)
    · split
      · exact List.mem_append_left _ (List.mem_append_left _ hw)
      · exact List.mem_append_left _ hw

private theorem attachCanary_keeps (s : Routes × List Warning)
    (canary : Ingress × CanaryAnnotations) : ∀ w ∈ s.2, w ∈ (attachCanary s canary).2 := by
  intro w hw
  unfold attachCanary
  dsimp only
  split
  · exact List.mem_append_left _ (List.mem_append_left _ hw)
  · refine foldl_keeps (fun s e h => attachEntry_keeps _ _ _ s e w h) _ ?_
    exact List.mem_append_left _ (List.mem_append_left _ hw)

/-- What the production Ingresses are warned about is not lost among the canaries. -/
private theorem planning_kept : ∀ w ∈ (planning snapshot opts).warnings,
    w ∈ (planSnapshot snapshot opts).warnings := by
  intro w hw
  exact foldl_keeps (fun s c h => attachCanary_keeps s c w h)
    (partitionCanaries (selectManaged snapshot opts).1).2 hw

/-- A path entry that declares no rule is reported under its Ingress. -/
theorem reports_of_undeclared {ingress : Ingress} (hmem : ingress ∈ production snapshot opts)
    {spec : IngressSpec} (hspec : ingress.spec = some spec)
    {entry : Option Bytes × HTTPIngressPath} (hentry : entry ∈ entriesOf spec)
    (hnone : declaredEntry (originOf ingress).1 entry = none) :
    Reports (planSnapshot snapshot opts).warnings (.of ingress.metadata) := by
  have hread : (readEntry (ObjectKey.of ingress.metadata) entry.1 entry.2).1 = none :=
    Option.map_eq_none_iff.mp hnone
  have hreports := readEntry_reports hread
  have hplanned : Reports (planning snapshot opts).warnings (.of ingress.metadata) := by
    refine foldl_gains (P := fun p : Planning => Reports p.warnings (.of ingress.metadata))
      (fun p i h => h.mono (planIngress_keeps p i)) hmem (fun p => ?_) _
    unfold planIngress
    rw [hspec]
    refine Reports.mono ?_ (planDefault_keeps _ _ _)
    refine foldl_gains (P := fun p : Planning => Reports p.warnings (.of ingress.metadata))
      (fun p e h => h.mono (planEntry_keeps _ p e)) hentry (fun p => ?_) _
    refine hreports.mono fun w hw => ?_
    have howner : (originOf ingress).1.owner = ObjectKey.of ingress.metadata := rfl
    unfold planEntry Planning.warn
    dsimp only
    rw [howner, hread]
    exact List.mem_append_right _ hw
  exact hplanned.mono (planning_kept snapshot opts)

/-- A mirror that was asked for and cannot be had is reported under its Ingress. -/
theorem reports_of_mirror {ingress : Ingress} (hmem : ingress ∈ production snapshot opts)
    (hspec : ingress.spec.isSome = true)
    (hasked : (MirrorAnnotations.parse ingress.metadata.annotations).backend.isSome = true)
    (hnone : (originOf ingress).1.mirror = none) :
    Reports (planSnapshot snapshot opts).warnings (.of ingress.metadata) := by
  obtain ⟨spec, hspec⟩ := Option.isSome_iff_exists.mp hspec
  have hreports : Reports (originOf ingress).2 (.of ingress.metadata) := by
    have hmirror : (mirrorPlan ingress.metadata.annotations
        (ObjectKey.of ingress.metadata).namespace_ (.of ingress.metadata)
        (backendProtocol ingress.metadata.annotations (.of ingress.metadata)).1).1 = none := hnone
    refine Reports.mono ?_ (fun w hw => List.mem_append_right _ hw)
    unfold mirrorPlan at hmirror ⊢
    dsimp only at hmirror ⊢
    split
    · rename_i hbackend
      rw [hbackend] at hasked
      cases hasked
    · rename_i reference hbackend
      rw [hbackend] at hmirror
      dsimp only at hmirror
      split
      · rename_i backend hok
        rw [hok] at hmirror
        cases hmirror
      · exact ⟨_, List.mem_append_right _ (List.mem_singleton_self _), rfl⟩
  have hplanned : Reports (planning snapshot opts).warnings (.of ingress.metadata) := by
    refine foldl_gains (P := fun p : Planning => Reports p.warnings (.of ingress.metadata))
      (fun p i h => h.mono (planIngress_keeps p i)) hmem (fun p => ?_) _
    unfold planIngress
    rw [hspec]
    refine Reports.mono ?_ (planDefault_keeps _ _ _)
    refine foldl_keeps (P := fun p : Planning => Reports p.warnings (.of ingress.metadata))
      (fun p e h => h.mono (planEntry_keeps _ p e)) _ ?_
    exact hreports.mono fun w hw => List.mem_append_right _ hw
  exact hplanned.mono (planning_kept snapshot opts)

/-- A declared rule is planned, or the rule that holds its key is reported to it. -/
theorem planned_of_declared {d : RoutePlan} (h : d ∈ declared snapshot opts) :
    ∃ plan ∈ plans snapshot opts, plan.key = d.key ∧
      (bare plan = d ∨ (⟨d.owner, .alreadyServed d.key plan.owner⟩ : Warning) ∈
        (planSnapshot snapshot opts).warnings) := by
  obtain ⟨pre, post, hsplit⟩ := List.append_of_mem h
  have hfound : ((declared snapshot opts).find? fun e => decide (e.key = d.key)).isSome = true :=
    List.find?_isSome.mpr ⟨d, h, by simp⟩
  obtain ⟨held, hheld⟩ := Option.isSome_iff_exists.mp hfound
  have hplanned := planned_routes snapshot opts d.key
  rw [holder, hheld, Option.some_or, Option.map_eq_some_iff] at hplanned
  obtain ⟨plan, hget, hbare⟩ := hplanned
  have hkey := (planned_spec snapshot opts hget).1
  refine ⟨plan, (mem_plans_iff snapshot opts plan).mpr (hkey ▸ hget), hkey, ?_⟩
  have howner : plan.owner = held.owner := by rw [← hbare, bare]
  cases hpre : pre.find? fun e => decide (e.key = d.key) with
  | none =>
      left
      rw [hbare]
      rw [hsplit, List.find?_append, hpre, Option.none_or, List.find?_cons_of_pos (by simp)] at hheld
      exact (Option.some.inj hheld).symm
  | some e =>
      right
      rw [hsplit, List.find?_append, hpre, Option.some_or, Option.some.injEq] at hheld
      have hmem : (⟨d.owner, .alreadyServed d.key plan.owner⟩ : Warning) ∈
          conflicts (planSnapshot snapshot opts).warnings := by
        rw [planned_conflicts, mem_claimStep_warnings]
        refine Or.inr ⟨pre, d, post, e, hsplit, ?_, ?_⟩
        · simpa using hpre
        · rw [howner, hheld]
      exact (List.mem_filter.mp hmem).1

end Planning

section Canaries

variable (snapshot : ClusterSnapshot) (opts : ControllerOpts)

/-- A path entry of a canary Ingress is attached to the route it shadows. -/
def Attaches (routes : Routes) (owner : ObjectKey) (rules : CanaryAnnotations)
    (entry : Option Bytes × HTTPIngressPath) : Prop :=
  ∃ key plan canary, get routes key = some plan ∧ plan.canary = some canary ∧
    (readEntry owner entry.1 entry.2).1 = some (key, canary.backend) ∧
      canary.owner = owner ∧ canary.rules = rules

private theorem Attaches.step {s : Routes × List Warning} {owner : ObjectKey}
    {rules : CanaryAnnotations} {entry : Option Bytes × HTTPIngressPath}
    (h : Attaches s.1 owner rules entry) (owner' : ObjectKey) (rules' : CanaryAnnotations)
    (protocol : BackendProtocol) (entry' : Option Bytes × HTTPIngressPath) :
    Attaches (attachEntry owner' rules' protocol s entry').1 owner rules entry := by
  obtain ⟨key, plan, canary, hget, hcanary, hread, howner, hrules⟩ := h
  refine ⟨key, plan, canary, ?_, hcanary, hread, howner, hrules⟩
  unfold attachEntry
  dsimp only
  split
  · exact hget
  · rename_i key' backend' _
    split
    · exact hget
    · rename_i plan' hplan'
      split
      · exact hget
      · rename_i hnone
        -- The plan of a key already taken has a canary, so this is another key.
        have hne : key ≠ key' := by
          rintro rfl
          rw [hget] at hplan'
          cases hplan'
          rw [hcanary] at hnone
          cases hnone
        rw [get_insert, if_neg hne]
        exact hget

private theorem attachEntry_gains (owner : ObjectKey) (rules : CanaryAnnotations)
    (protocol : BackendProtocol) (s : Routes × List Warning)
    (entry : Option Bytes × HTTPIngressPath) :
    Attaches (attachEntry owner rules protocol s entry).1 owner rules entry ∨
      Reports (attachEntry owner rules protocol s entry).2 owner := by
  unfold attachEntry
  dsimp only
  split
  · rename_i hread
    exact Or.inr ((readEntry_reports hread).mono fun w hw => List.mem_append_right _ hw)
  · rename_i key backend hread
    split
    · exact Or.inr ⟨_, List.mem_append_right _ (List.mem_singleton_self _), rfl⟩
    · rename_i plan hplan
      split
      · exact Or.inr ⟨_, List.mem_append_right _ (List.mem_singleton_self _), rfl⟩
      · refine Or.inl ⟨key, { plan with canary := some ⟨backend, owner, rules, protocol⟩ },
          ⟨backend, owner, rules, protocol⟩, ?_, rfl, hread, rfl, rfl⟩
        rw [get_insert, if_pos rfl]

/-- A path entry of a canary is attached to a planned route, or its Ingress is reported. -/
theorem attached_or_reports {canary : Ingress × CanaryAnnotations}
    (hmem : canary ∈ (planSnapshot snapshot opts).canaries) {spec : IngressSpec}
    (hspec : canary.1.spec = some spec) {entry : Option Bytes × HTTPIngressPath}
    (hentry : entry ∈ entriesOf spec) :
    Attaches (planSnapshot snapshot opts).routes (.of canary.1.metadata) canary.2 entry ∨
      Reports (planSnapshot snapshot opts).warnings (.of canary.1.metadata) := by
  let P : Routes × List Warning → Prop := fun s =>
    Attaches s.1 (.of canary.1.metadata) canary.2 entry ∨ Reports s.2 (.of canary.1.metadata)
  have hentryKeeps : ∀ (owner : ObjectKey) (rules : CanaryAnnotations) (protocol : BackendProtocol)
      (s : Routes × List Warning) (e : Option Bytes × HTTPIngressPath),
      P s → P (attachEntry owner rules protocol s e) := by
    rintro owner rules protocol s e (h | h)
    · exact Or.inl (h.step owner rules protocol e)
    · exact Or.inr (h.mono (attachEntry_keeps owner rules protocol s e))
  have hkeep : ∀ (s : Routes × List Warning) (c : Ingress × CanaryAnnotations),
      P s → P (attachCanary s c) := by
    rintro s ⟨ingress, rules⟩ h
    have hwarned : ∀ ws, P (s.1, s.2 ++ ws) := by
      intro ws
      rcases h with h | h
      · exact Or.inl h
      · exact Or.inr (h.mono fun w hw => List.mem_append_left _ hw)
    unfold attachCanary
    dsimp only
    rw [List.append_assoc]
    split
    · exact hwarned _
    · exact foldl_keeps (fun s e => hentryKeeps _ _ _ s e) _ (hwarned _)
  refine foldl_gains (P := P) hkeep hmem (fun s => ?_) _
  obtain ⟨ingress, rules⟩ := canary
  unfold attachCanary
  dsimp only at hspec ⊢
  rw [hspec]
  exact foldl_gains (P := P) (fun s e => hentryKeeps _ _ _ s e) hentry
    (fun s => attachEntry_gains _ _ _ s entry) _

end Canaries

section Certificates

/-- The hosts a `spec.tls` entry asks a certificate for. -/
def tlsHosts (entry : IngressTLS) : List Bytes :=
  (entry.hosts.getD []).filterMap fun h => normalizeHost (some h)

/-- A host is filed under the certificate one entry of its owner names. -/
def Wires (secrets : SecretIndex) (owner : ObjectKey) (entry : IngressTLS) (state : CertState)
    (host : Bytes) : Prop :=
  ∃ name material, entry.secretName = some name ∧
    secrets.material owner.namespace_ name = .ok material ∧
      get state.byHost host = some (material.handleId, owner)

private theorem claimCert_keeps (owner : ObjectKey) (id : Nat) (state : CertState) (host : Bytes) :
    (∀ w ∈ state.warnings, w ∈ (claimCert owner id state host).warnings) ∧
      ∀ h v, get state.byHost h = some v → get (claimCert owner id state host).byHost h = some v := by
  unfold claimCert
  split
  · exact ⟨fun w hw => List.mem_append_left _ hw, fun _ _ hv => hv⟩
  · rename_i hnone
    refine ⟨fun w hw => hw, fun h v hv => ?_⟩
    have hne : h ≠ host := by
      rintro rfl
      rw [hnone] at hv
      cases hv
    rw [get_insert, if_neg hne]
    exact hv

private theorem readTls_keeps (secrets : SecretIndex) (owner : ObjectKey) (state : CertState)
    (entry : IngressTLS) :
    (∀ w ∈ state.warnings, w ∈ (readTls secrets owner state entry).warnings) ∧
      ∀ h v, get state.byHost h = some v →
        get (readTls secrets owner state entry).byHost h = some v := by
  unfold readTls
  dsimp only
  split
  · exact ⟨fun w hw => List.mem_append_left _ hw, fun _ _ => id⟩
  · split
    · exact ⟨fun w hw => List.mem_append_left _ hw, fun _ _ => id⟩
    · split
      · exact ⟨fun w hw => List.mem_append_left _ hw, fun _ _ => id⟩
      · refine ⟨fun w hw => ?_, fun h v hv => ?_⟩
        · exact foldl_keeps (fun s host hs => (claimCert_keeps _ _ s host).1 w hs) _ hw
        · exact foldl_keeps (P := fun s : CertState => get s.byHost h = some v)
            (fun s host hs => (claimCert_keeps _ _ s host).2 h v hs) _ hv

private theorem readTlsOf_keeps (secrets : SecretIndex) (state : CertState) (ingress : Ingress) :
    (∀ w ∈ state.warnings, w ∈ (readTlsOf secrets state ingress).warnings) ∧
      ∀ h v, get state.byHost h = some v →
        get (readTlsOf secrets state ingress).byHost h = some v := by
  refine ⟨fun w hw => ?_, fun h v hv => ?_⟩
  · exact foldl_keeps (fun s e hs => (readTls_keeps secrets _ s e).1 w hs) _ hw
  · exact foldl_keeps (P := fun s : CertState => get s.byHost h = some v)
      (fun s e hs => (readTls_keeps secrets _ s e).2 h v hs) _ hv

private theorem readTls_gains (secrets : SecretIndex) (owner : ObjectKey) (state : CertState)
    (entry : IngressTLS) :
    (tlsHosts entry = [] → Reports (readTls secrets owner state entry).warnings owner) ∧
      ∀ host ∈ tlsHosts entry, Wires secrets owner entry (readTls secrets owner state entry) host ∨
        Reports (readTls secrets owner state entry).warnings owner := by
  have hreport : ∀ (ws : List Warning) (detail : Detail),
      Reports (ws ++ [⟨owner, detail⟩]) owner := fun ws detail =>
    ⟨_, List.mem_append_right _ (List.mem_singleton_self _), rfl⟩
  have hhosts : (entry.hosts.getD []).filterMap (fun h => normalizeHost (some h)) =
      tlsHosts entry := rfl
  unfold readTls
  rw [hhosts]
  refine ⟨fun hempty => ?_, fun host hhost => ?_⟩
  · rw [hempty]
    exact hreport _ _
  · have hsome : (tlsHosts entry).isEmpty = false := by
      cases hcase : tlsHosts entry with
      | nil =>
          rw [hcase] at hhost
          cases hhost
      | cons _ _ => rfl
    simp only [hsome, Bool.false_eq_true, if_false]
    split
    · exact Or.inr (hreport _ _)
    · rename_i name hname
      split
      · exact Or.inr (hreport _ _)
      · rename_i material hmaterial
        let P : CertState → Prop := fun s =>
          get s.byHost host = some (material.handleId, owner) ∨ Reports s.warnings owner
        have hclaims : P ((tlsHosts entry).foldl (claimCert owner material.handleId) state) := by
          refine foldl_gains (P := P) ?_ hhost (fun s => ?_) _
          · rintro s h (hs | hs)
            · exact Or.inl ((claimCert_keeps owner _ s h).2 _ _ hs)
            · exact Or.inr (hs.mono (claimCert_keeps owner _ s h).1)
          · unfold claimCert
            split
            · exact Or.inr (hreport _ _)
            · exact Or.inl (get_insert_self _ _ _)
        rcases hclaims with h | h
        · exact Or.inl ⟨name, material, hname, hmaterial, h⟩
        · exact Or.inr h

/-- Every host of every `spec.tls` entry is filed under its certificate, or reported. -/
theorem wired_or_reports (snapshot : ClusterSnapshot) {managed : List Ingress} {ingress : Ingress}
    (hmem : ingress ∈ managed) {entry : IngressTLS}
    (hentry : entry ∈ (ingress.spec.bind (·.tls)).getD []) :
    (tlsHosts entry = [] → Reports (wiredCerts snapshot managed).warnings (.of ingress.metadata)) ∧
      ∀ host ∈ tlsHosts entry,
        Wires (SecretIndex.new snapshot.secrets) (.of ingress.metadata) entry
            (wiredCerts snapshot managed) host ∨
          Reports (wiredCerts snapshot managed).warnings (.of ingress.metadata) := by
  let secrets := SecretIndex.new snapshot.secrets
  let P : CertState → Prop := fun s =>
    (tlsHosts entry = [] → Reports s.warnings (.of ingress.metadata)) ∧
      ∀ host ∈ tlsHosts entry, Wires secrets (.of ingress.metadata) entry s host ∨
        Reports s.warnings (.of ingress.metadata)
  have hmono : ∀ s s' : CertState, (∀ w ∈ s.warnings, w ∈ s'.warnings) →
      (∀ h v, get s.byHost h = some v → get s'.byHost h = some v) → P s → P s' := by
    rintro s s' hw hget ⟨hempty, heach⟩
    refine ⟨fun h => (hempty h).mono hw, fun host hhost => ?_⟩
    rcases heach host hhost with ⟨name, material, hname, hmaterial, hheld⟩ | h
    · exact Or.inl ⟨name, material, hname, hmaterial, hget _ _ hheld⟩
    · exact Or.inr (h.mono hw)
  refine foldl_gains (P := P) (fun s i => ?_) hmem (fun s => ?_) _
  · exact hmono s _ (readTlsOf_keeps secrets s i).1 (readTlsOf_keeps secrets s i).2
  · refine foldl_gains (P := P) (fun s e => ?_) hentry (fun s => ?_) _
    · exact hmono s _ (readTls_keeps secrets _ s e).1 (readTls_keeps secrets _ s e).2
    · exact readTls_gains secrets _ s entry

end Certificates

end Ramjet.Controller.Reported
