/- digest: Which declared rule holds a route key once every Ingress has been read. -/

import Ramjet.Controller.Plan

set_option autoImplicit false
set_option relaxedAutoImplicit false

namespace Ramjet.Controller.Claims

open Ramjet.Base.Octets
open Ramjet.Base.Text
open Ramjet.Base.AssocMap
open Ramjet.Router.Balancing
open Ramjet.Router.Rule
open Ramjet.Controller.Objects
open Ramjet.Controller.Annotations
open Ramjet.Controller.Config
open Ramjet.Controller.Endpoints
open Ramjet.Controller.Warnings
open Ramjet.Controller.Plan

section Declarations

/-- The rule one path entry declares, if it names a backend. -/
def declaredEntry (o : Origin) (entry : Option Bytes × HTTPIngressPath) : Option RoutePlan :=
  (readEntry o.owner entry.1 entry.2).1.map fun read => o.plan read.1 read.2

/-- The rules an Ingress declares, in document order. -/
def declaredBy (ingress : Ingress) : List RoutePlan :=
  match ingress.spec with
  | none => []
  | some spec => (entriesOf spec).filterMap (declaredEntry (originOf ingress).1)

/-- The fallbacks an Ingress's default backend stands for. -/
def fallbacksBy (ingress : Ingress) : List RoutePlan :=
  match ingress.spec with
  | none => []
  | some spec =>
      match spec.defaultBackend with
      | none => []
      | some default =>
          let owner := ObjectKey.of ingress.metadata
          match (backendRef owner.namespace_ default owner).1 with
          | none => []
          | some target =>
              (hostsOf spec).map fun host =>
                (originOf ingress).1.plan ⟨host, [47], .prefixed⟩ target

/-- The production Ingresses of a snapshot, oldest first. -/
def production (snapshot : ClusterSnapshot) (opts : ControllerOpts) : List Ingress :=
  (partitionCanaries (selectManaged snapshot opts).1).1

/-- Every rule declared by a production Ingress, oldest Ingress first. -/
def declared (snapshot : ClusterSnapshot) (opts : ControllerOpts) : List RoutePlan :=
  (production snapshot opts).flatMap declaredBy

/-- Every fallback of a production Ingress, oldest Ingress first. -/
def fallbacks (snapshot : ClusterSnapshot) (opts : ControllerOpts) : List RoutePlan :=
  (production snapshot opts).flatMap fallbacksBy

end Declarations

section Conflicts

/-- Whether a warning reports a key that was already taken. -/
def isConflict (w : Warning) : Bool :=
  match w.detail with
  | .alreadyServed _ _ => true
  | _ => false

def conflicts (ws : List Warning) : List Warning := ws.filter isConflict

@[simp] theorem conflicts_append (ws ws' : List Warning) :
    conflicts (ws ++ ws') = conflicts ws ++ conflicts ws' := List.filter_append ..

/-- Warnings about anything but a taken key. -/
def Quiet (ws : List Warning) : Prop := conflicts ws = []

theorem quiet_iff {ws : List Warning} : Quiet ws ↔ ∀ w ∈ ws, isConflict w = false := by
  simp [Quiet, conflicts, List.filter_eq_nil_iff]

theorem Quiet.append {ws ws' : List Warning} (h : Quiet ws) (h' : Quiet ws') :
    Quiet (ws ++ ws') := by
  simp only [Quiet, conflicts_append] at *
  rw [h, h', List.append_nil]

theorem quiet_nil : Quiet [] := rfl

theorem quiet_singleton {w : Warning} (h : isConflict w = false) : Quiet [w] :=
  quiet_iff.mpr fun _ hw => List.mem_singleton.mp hw ▸ h

theorem quiet_map {α : Type} {f : α → Warning} (h : ∀ a, isConflict (f a) = false) (l : List α) :
    Quiet (l.map f) := by
  rw [quiet_iff]
  intro w hw
  obtain ⟨a, -, rfl⟩ := List.mem_map.mp hw
  exact h a

theorem quiet_backendProtocol (annotations : Annotations) (owner : ObjectKey) :
    Quiet (backendProtocol annotations owner).2 := quiet_map (fun _ => rfl) _

theorem quiet_mirrorPlan (annotations : Annotations) (ns : Bytes) (owner : ObjectKey)
    (protocol : BackendProtocol) : Quiet (mirrorPlan annotations ns owner protocol).2 := by
  unfold mirrorPlan
  have hinvalid := quiet_map (f := fun key => (⟨owner, .notAPercentage key⟩ : Warning))
    (fun _ => rfl) (MirrorAnnotations.parse annotations).invalid
  dsimp only
  split
  · exact hinvalid
  · split
    · exact hinvalid
    · exact hinvalid.append rfl

theorem quiet_originOf (ingress : Ingress) : Quiet (originOf ingress).2 :=
  (quiet_backendProtocol _ _).append (quiet_mirrorPlan _ _ _ _)

theorem quiet_backendRef (ns : Bytes) (backend : IngressBackend) (owner : ObjectKey) :
    Quiet (backendRef ns backend owner).2 := by
  unfold backendRef
  split
  · rfl
  · split <;> rfl

theorem quiet_readEntry (owner : ObjectKey) (host : Option Bytes) (entry : HTTPIngressPath) :
    Quiet (readEntry owner host entry).2 := by
  unfold readEntry
  have hbackend := quiet_backendRef owner.namespace_ entry.backend owner
  have htype : Quiet (parsePathType entry.pathType owner).2 := by
    unfold parsePathType
    split
    · rfl
    · split
      · rfl
      · split <;> rfl
  dsimp only
  split
  · exact hbackend
  · exact hbackend.append htype

end Conflicts

section Claiming

/-- One claim, keeping only the routes and the conflicts. -/
def claimStep (s : Routes × List Warning) (d : RoutePlan) : Routes × List Warning :=
  match get s.1 d.key with
  | some held => (s.1, s.2 ++ [⟨d.owner, .alreadyServed d.key held.owner⟩])
  | none => (insert s.1 d.key d, s.2)

/-- The routes and the conflicts of a planning. -/
def Planning.view (p : Planning) : Routes × List Warning := (p.routes, conflicts p.warnings)

private theorem view_warn (p : Planning) {ws : List Warning} (h : Quiet ws) :
    Planning.view (p.warn ws) = Planning.view p := by
  have hquiet : conflicts ws = [] := h
  simp [Planning.view, Planning.warn, hquiet]

private theorem view_claim (p : Planning) (d : RoutePlan) :
    Planning.view (p.claim d) = claimStep (Planning.view p) d := by
  unfold Planning.claim claimStep Planning.view
  cases hheld : get p.routes d.key with
  | none => rfl
  | some held => simp [Planning.warn, conflicts, isConflict]

private theorem view_planEntry (o : Origin) (p : Planning) (entry : Option Bytes × HTTPIngressPath) :
    Planning.view (planEntry o p entry) =
      (declaredEntry o entry).toList.foldl claimStep (Planning.view p) := by
  unfold planEntry declaredEntry
  have hquiet := quiet_readEntry o.owner entry.1 entry.2
  cases hread : (readEntry o.owner entry.1 entry.2).1 with
  | none => simpa [hread] using view_warn p hquiet
  | some read =>
      obtain ⟨key, backend⟩ := read
      simp only [hread, Option.map_some, Option.toList_some, List.foldl_cons, List.foldl_nil]
      rw [view_claim, view_warn p hquiet]

private theorem view_planEntries (o : Origin) (entries : List (Option Bytes × HTTPIngressPath))
    (p : Planning) :
    Planning.view (entries.foldl (planEntry o) p) =
      (entries.filterMap (declaredEntry o)).foldl claimStep (Planning.view p) := by
  induction entries generalizing p with
  | nil => rfl
  | cons entry rest ih =>
      rw [List.foldl_cons, ih, view_planEntry, List.filterMap_cons]
      cases declaredEntry o entry <;> rfl

private theorem view_planDefault (o : Origin) (spec : IngressSpec) (p : Planning) :
    Planning.view (planDefault o spec p) = Planning.view p := by
  unfold planDefault
  split
  · rfl
  · rename_i default _
    have hquiet := quiet_backendRef o.owner.namespace_ default o.owner
    dsimp only
    split
    · exact view_warn p hquiet
    · split
      · split
        · rw [view_warn _ (quiet_singleton rfl), view_warn p hquiet]
        · exact view_warn p hquiet
      · exact view_warn p hquiet

private theorem view_planIngress (p : Planning) (ingress : Ingress) :
    Planning.view (planIngress p ingress) =
      (declaredBy ingress).foldl claimStep (Planning.view p) := by
  unfold planIngress declaredBy
  cases ingress.spec with
  | none => rfl
  | some spec =>
      dsimp only
      rw [view_planDefault, view_planEntries, view_warn p (quiet_originOf ingress)]

/-- Reading the Ingresses one after the other claims their declared rules in that order. -/
theorem view_planIngresses (ingresses : List Ingress) (p : Planning) :
    Planning.view (ingresses.foldl planIngress p) =
      (ingresses.flatMap declaredBy).foldl claimStep (Planning.view p) := by
  induction ingresses generalizing p with
  | nil => rfl
  | cons ingress rest ih =>
      rw [List.foldl_cons, ih, view_planIngress, List.flatMap_cons, List.foldl_append]

theorem claimStep_routes (ds : List RoutePlan) (s : Routes × List Warning) :
    (ds.foldl claimStep s).1 = claimEach (·.key) id s.1 ds := by
  induction ds generalizing s with
  | nil => rfl
  | cons d ds ih =>
      rw [List.foldl_cons, ih]
      have hstep : (claimStep s d).1 = claim s.1 d.key d := by
        unfold claimStep claim contains
        cases get s.1 d.key <;> rfl
      rw [hstep]
      rfl

/-- The conflicts of a run of claims: one for each rule that came after another on its key. -/
theorem mem_claimStep_warnings (ds : List RoutePlan) (s : Routes × List Warning) (w : Warning) :
    w ∈ (ds.foldl claimStep s).2 ↔
      w ∈ s.2 ∨ ∃ pre d post held, ds = pre ++ d :: post ∧
        (get s.1 d.key).or (pre.find? fun e => e.key = d.key) = some held ∧
          w = ⟨d.owner, .alreadyServed d.key held.owner⟩ := by
  induction ds using List.reverseRecOn with
  | nil => simp
  | append_singleton ds d ih =>
      have hheld : get (ds.foldl claimStep s).1 d.key =
          (get s.1 d.key).or (ds.find? fun e => e.key = d.key) := by
        rw [claimStep_routes, get_claimEach, Option.map_id_fun, id]
      rw [List.foldl_append, List.foldl_cons, List.foldl_nil, claimStep, hheld]
      constructor
      · intro hw
        have hsplit : w ∈ (ds.foldl claimStep s).2 ∨ ∃ held,
            (get s.1 d.key).or (ds.find? fun e => e.key = d.key) = some held ∧
              w = ⟨d.owner, .alreadyServed d.key held.owner⟩ := by
          cases hcase : (get s.1 d.key).or (ds.find? fun e => e.key = d.key) with
          | none =>
              rw [hcase] at hw
              exact Or.inl hw
          | some held =>
              rw [hcase] at hw
              rcases List.mem_append.mp hw with hw | hw
              · exact Or.inl hw
              · exact Or.inr ⟨held, rfl, List.mem_singleton.mp hw⟩
        rcases hsplit with hw | ⟨held, hor, rfl⟩
        · rcases ih.mp hw with hw | ⟨pre, e, post, held, rfl, hor, rfl⟩
          · exact Or.inl hw
          · exact Or.inr ⟨pre, e, post ++ [d], held, by simp, hor, rfl⟩
        · exact Or.inr ⟨ds, d, [], held, rfl, hor, rfl⟩
      · intro hw
        have hkept : w ∈ (ds.foldl claimStep s).2 ∨ ∃ held,
            (get s.1 d.key).or (ds.find? fun e => e.key = d.key) = some held ∧
              w = ⟨d.owner, .alreadyServed d.key held.owner⟩ := by
          rcases hw with hw | ⟨pre, e, post, held, heq, hor, rfl⟩
          · exact Or.inl (ih.mpr (Or.inl hw))
          · rcases List.eq_nil_or_concat post with rfl | ⟨front, last, rfl⟩
            · obtain ⟨rfl, hlast⟩ := List.append_inj' heq rfl
              cases hlast
              exact Or.inr ⟨held, hor, rfl⟩
            · have heq' : ds ++ [d] = (pre ++ e :: front) ++ [last] := by
                rw [heq]
                simp
              obtain ⟨rfl, -⟩ := List.append_inj' heq' rfl
              exact Or.inl (ih.mpr (Or.inr ⟨pre, e, front, held, rfl, hor, rfl⟩))
        cases hcase : (get s.1 d.key).or (ds.find? fun e => e.key = d.key) with
        | none =>
            rcases hkept with hw | ⟨held, hor, -⟩
            · exact hw
            · rw [hcase] at hor
              cases hor
        | some held =>
            rcases hkept with hw | ⟨held', hor, rfl⟩
            · exact List.mem_append_left _ hw
            · rw [hcase] at hor
              cases hor
              exact List.mem_append_right _ (List.mem_singleton_self _)

end Claiming

section Fallbacks

private theorem fallbacks_planEntries (o : Origin) (entries : List (Option Bytes × HTTPIngressPath))
    (p : Planning) : (entries.foldl (planEntry o) p).fallbacks = p.fallbacks := by
  induction entries generalizing p with
  | nil => rfl
  | cons entry rest ih =>
      rw [List.foldl_cons, ih]
      unfold planEntry Planning.claim
      dsimp only
      split
      · rfl
      · split <;> rfl

private theorem fallbacks_planIngress (p : Planning) (ingress : Ingress) :
    (planIngress p ingress).fallbacks = p.fallbacks ++ fallbacksBy ingress := by
  unfold planIngress fallbacksBy
  cases ingress.spec with
  | none => simp
  | some spec =>
      have howner : (originOf ingress).1.owner = ObjectKey.of ingress.metadata := rfl
      dsimp only
      unfold planDefault
      rw [howner]
      cases spec.defaultBackend with
      | none => simp [fallbacks_planEntries, Planning.warn]
      | some default =>
          dsimp only
          cases (backendRef (ObjectKey.of ingress.metadata).namespace_ default
              (ObjectKey.of ingress.metadata)).1 with
          | none => simp [fallbacks_planEntries, Planning.warn]
          | some target =>
              dsimp only
              split
              · rename_i hempty
                rw [List.isEmpty_iff.mp hempty]
                split <;> simp [fallbacks_planEntries, Planning.warn]
              · simp [fallbacks_planEntries, Planning.warn]

private theorem fallbacks_planIngresses (ingresses : List Ingress) (p : Planning) :
    (ingresses.foldl planIngress p).fallbacks =
      p.fallbacks ++ ingresses.flatMap fallbacksBy := by
  induction ingresses generalizing p with
  | nil => simp
  | cons ingress rest ih =>
      rw [List.foldl_cons, ih, fallbacks_planIngress, List.flatMap_cons, List.append_assoc]

end Fallbacks

section Attaching

/-- A plan without its canary. -/
def bare (plan : RoutePlan) : RoutePlan := { plan with canary := none }

/-- What attaching canaries keeps: the routes, apart from their canaries, and the conflicts. -/
structure Attached (s s' : Routes × List Warning) : Prop where
  routes : ∀ k, (get s'.1 k).map bare = (get s.1 k).map bare
  nodup : (s.1.map (·.1)).Nodup → (s'.1.map (·.1)).Nodup
  conflicts : conflicts s'.2 = conflicts s.2

private theorem Attached.refl (s : Routes × List Warning) : Attached s s :=
  ⟨fun _ => rfl, id, rfl⟩

private theorem Attached.trans {s s' s'' : Routes × List Warning} (h : Attached s s')
    (h' : Attached s' s'') : Attached s s'' :=
  ⟨fun k => (h'.routes k).trans (h.routes k), fun hn => h'.nodup (h.nodup hn),
    h'.conflicts.trans h.conflicts⟩

private theorem attached_warn (s : Routes × List Warning) {ws : List Warning} (h : Quiet ws) :
    Attached s (s.1, s.2 ++ ws) := by
  have hquiet : conflicts ws = [] := h
  exact ⟨fun _ => rfl, id, by simp [hquiet]⟩

private theorem attached_entry (owner : ObjectKey) (rules : CanaryAnnotations)
    (protocol : BackendProtocol) (s : Routes × List Warning)
    (entry : Option Bytes × HTTPIngressPath) :
    Attached s (attachEntry owner rules protocol s entry) := by
  have hquiet := quiet_readEntry owner entry.1 entry.2
  unfold attachEntry
  dsimp only
  split
  · exact attached_warn s hquiet
  · rename_i key backend _
    split
    · rw [List.append_assoc]
      exact attached_warn s (hquiet.append (quiet_singleton rfl))
    · rename_i plan hplan
      split
      · rw [List.append_assoc]
        exact attached_warn s (hquiet.append (quiet_singleton rfl))
      · have hws : conflicts (readEntry owner entry.1 entry.2).2 = [] := hquiet
        refine ⟨fun k => ?_, fun hn => nodup_keys_insert hn _ _, by simp [hws]⟩
        rw [get_insert]
        by_cases hk : k = key
        · subst hk
          simp [hplan, bare]
        · simp [hk]

private theorem attached_entries (owner : ObjectKey) (rules : CanaryAnnotations)
    (protocol : BackendProtocol) (entries : List (Option Bytes × HTTPIngressPath))
    (s : Routes × List Warning) :
    Attached s (entries.foldl (attachEntry owner rules protocol) s) := by
  induction entries generalizing s with
  | nil => exact .refl s
  | cons entry rest ih => exact (attached_entry owner rules protocol s entry).trans (ih _)

private theorem attached_canary (s : Routes × List Warning)
    (canary : Ingress × CanaryAnnotations) : Attached s (attachCanary s canary) := by
  obtain ⟨ingress, rules⟩ := canary
  have hquiet : Quiet (canaryWarnings (ObjectKey.of ingress.metadata) ingress.metadata.annotations
      rules) := by
    refine ((quiet_map (fun _ => rfl) rules.invalid).append ?_).append ?_
    · split <;> rfl
    · split <;> rfl
  have hprotocol := quiet_backendProtocol ingress.metadata.annotations (.of ingress.metadata)
  unfold attachCanary
  dsimp only
  rw [List.append_assoc]
  cases ingress.spec with
  | none => exact attached_warn s (hprotocol.append hquiet)
  | some spec =>
      exact (attached_warn s (hprotocol.append hquiet)).trans (attached_entries ..)

theorem attached_canaries (canaries : List (Ingress × CanaryAnnotations))
    (s : Routes × List Warning) : Attached s (canaries.foldl attachCanary s) := by
  induction canaries generalizing s with
  | nil => exact .refl s
  | cons canary rest ih => exact (attached_canary s canary).trans (ih _)

end Attaching

section Planned

variable (snapshot : ClusterSnapshot) (opts : ControllerOpts)

/-- The plan that holds a key: the first declared rule on it, else the first fallback. -/
def holder (k : RouteKey) : Option RoutePlan :=
  ((declared snapshot opts).find? fun d => d.key = k).or
    ((fallbacks snapshot opts).find? fun d => d.key = k)

private theorem bare_declared {d : RoutePlan} (h : d ∈ declared snapshot opts) : bare d = d := by
  obtain ⟨ingress, -, hd⟩ := List.mem_flatMap.mp h
  unfold declaredBy at hd
  split at hd
  · cases hd
  · obtain ⟨entry, -, hentry⟩ := List.mem_filterMap.mp hd
    obtain ⟨read, -, rfl⟩ := Option.map_eq_some_iff.mp hentry
    rfl

private theorem bare_fallback {d : RoutePlan} (h : d ∈ fallbacks snapshot opts) : bare d = d := by
  obtain ⟨ingress, -, hd⟩ := List.mem_flatMap.mp h
  unfold fallbacksBy at hd
  split at hd
  · cases hd
  · split at hd
    · cases hd
    · dsimp only at hd
      split at hd
      · cases hd
      · obtain ⟨host, -, rfl⟩ := List.mem_map.mp hd
        rfl

private theorem bare_holder (k : RouteKey) :
    (holder snapshot opts k).map bare = holder snapshot opts k := by
  unfold holder
  cases hd : (declared snapshot opts).find? fun d => decide (d.key = k) with
  | some d => simp [bare_declared snapshot opts (List.mem_of_find?_eq_some hd)]
  | none =>
      cases hf : (fallbacks snapshot opts).find? fun d => decide (d.key = k) with
      | some d => simp [bare_fallback snapshot opts (List.mem_of_find?_eq_some hf)]
      | none => rfl

private theorem quiet_selectManaged : Quiet (selectManaged snapshot opts).2 :=
  quiet_map (fun _ => rfl) _

/-- What the production Ingresses have claimed before the fallbacks are applied. -/
def planning : Planning :=
  (production snapshot opts).foldl planIngress { warnings := (selectManaged snapshot opts).2 }

private theorem planning_routes :
    (planning snapshot opts).routes = claimEach (·.key) id [] (declared snapshot opts) := by
  have hview := congrArg Prod.fst (view_planIngresses (production snapshot opts)
    { warnings := (selectManaged snapshot opts).2 })
  rw [claimStep_routes] at hview
  exact hview

private theorem planning_fallbacks :
    (planning snapshot opts).fallbacks = fallbacks snapshot opts := by
  rw [planning, fallbacks_planIngresses]
  rfl

/-- The routes once every explicit rule and then every fallback has claimed its key. -/
private theorem planSnapshot_attached :
    Attached (claimEach (·.key) id (planning snapshot opts).routes (fallbacks snapshot opts),
        (planning snapshot opts).warnings)
      ((planSnapshot snapshot opts).routes, (planSnapshot snapshot opts).warnings) := by
  rw [← planning_fallbacks]
  exact attached_canaries (partitionCanaries (selectManaged snapshot opts).1).2
    (applyFallbacks (planning snapshot opts).routes (planning snapshot opts).fallbacks,
      (planning snapshot opts).warnings)

/-- Each key of the planned routes is held by its first declared rule, else its fallback. -/
theorem planned_routes (k : RouteKey) :
    (get (planSnapshot snapshot opts).routes k).map bare = holder snapshot opts k := by
  rw [← bare_holder]
  refine ((planSnapshot_attached snapshot opts).routes k).trans ?_
  dsimp only
  rw [get_claimEach, planning_routes, get_claimEach]
  simp only [Option.map_id_fun, id, get_nil, Option.none_or]
  rfl

/-- The conflicts reported are those of the declared rules, in their order. -/
theorem planned_conflicts :
    conflicts (planSnapshot snapshot opts).warnings =
      ((declared snapshot opts).foldl claimStep ([], [])).2 := by
  have hview := congrArg Prod.snd (view_planIngresses (production snapshot opts)
    { warnings := (selectManaged snapshot opts).2 })
  have hquiet : conflicts (selectManaged snapshot opts).2 = [] := quiet_selectManaged snapshot opts
  refine (planSnapshot_attached snapshot opts).conflicts.trans (hview.trans ?_)
  rw [Planning.view, hquiet]
  rfl

theorem planned_nodup : ((planSnapshot snapshot opts).routes.map (·.1)).Nodup := by
  refine (planSnapshot_attached snapshot opts).nodup (nodup_keys_claimEach _ _ _ ?_)
  rw [planning_routes]
  exact nodup_keys_claimEach _ _ _ List.nodup_nil

/-- A host as the translator normalises it. -/
def Normal (host : Option Bytes) : Prop := ∃ raw, host = normalizeHost raw

private theorem normal_of_readEntry {owner : ObjectKey} {host : Option Bytes}
    {entry : HTTPIngressPath} {read : RouteKey × ServiceRef}
    (h : (readEntry owner host entry).1 = some read) : read.1.host = host := by
  unfold readEntry at h
  dsimp only at h
  split at h
  · cases h
  · cases h
    rfl

theorem normal_of_declared {d : RoutePlan} (h : d ∈ declared snapshot opts) :
    Normal d.key.host := by
  obtain ⟨ingress, -, hd⟩ := List.mem_flatMap.mp h
  unfold declaredBy at hd
  split at hd
  · cases hd
  · obtain ⟨entry, hentry, hdeclared⟩ := List.mem_filterMap.mp hd
    obtain ⟨read, hread, rfl⟩ := Option.map_eq_some_iff.mp hdeclared
    obtain ⟨rule, -, hrule⟩ := List.mem_flatMap.mp hentry
    obtain ⟨path, -, rfl⟩ := List.mem_map.mp hrule
    exact ⟨rule.host, normal_of_readEntry hread⟩

private theorem normal_of_hostsOf {spec : IngressSpec} {host : Option Bytes}
    (h : host ∈ hostsOf spec) : Normal host := by
  have hfold : ∀ (rules : List IngressRule) (hosts : List (Option Bytes)),
      (∀ host ∈ hosts, Normal host) → ∀ host ∈ rules.foldl (fun hosts rule =>
        let host := normalizeHost rule.host
        if host ∈ hosts then hosts else hosts ++ [host]) hosts, Normal host := by
    intro rules
    induction rules with
    | nil => exact fun hosts hhosts => hhosts
    | cons rule rest ih =>
        intro hosts hhosts
        refine ih _ ?_
        dsimp only
        split
        · exact hhosts
        · intro host hmem
          rcases List.mem_append.mp hmem with hmem | hmem
          · exact hhosts host hmem
          · rw [List.mem_singleton] at hmem
            exact ⟨rule.host, hmem⟩
  exact hfold _ [] (by simp) host h

theorem normal_of_fallback {d : RoutePlan} (h : d ∈ fallbacks snapshot opts) :
    Normal d.key.host ∧ d.key.path = [47] ∧ d.key.pathType = .prefixed := by
  obtain ⟨ingress, -, hd⟩ := List.mem_flatMap.mp h
  unfold fallbacksBy at hd
  split at hd
  · cases hd
  · split at hd
    · cases hd
    · dsimp only at hd
      split at hd
      · cases hd
      · obtain ⟨host, hhost, rfl⟩ := List.mem_map.mp hd
        exact ⟨normal_of_hostsOf hhost, rfl, rfl⟩

theorem holder_spec {k : RouteKey} {plan : RoutePlan} (h : holder snapshot opts k = some plan) :
    plan.key = k ∧ Normal k.host := by
  rcases Option.or_eq_some_iff.mp h with h | ⟨-, h⟩
  · have hkey : plan.key = k := by simpa using List.find?_some h
    exact ⟨hkey, hkey ▸ normal_of_declared snapshot opts (List.mem_of_find?_eq_some h)⟩
  · have hkey : plan.key = k := by simpa using List.find?_some h
    exact ⟨hkey, hkey ▸ (normal_of_fallback snapshot opts (List.mem_of_find?_eq_some h)).1⟩

/-- Every planned route is filed under its own key, and its host is normalised. -/
theorem planned_spec {k : RouteKey} {plan : RoutePlan}
    (h : get (planSnapshot snapshot opts).routes k = some plan) :
    plan.key = k ∧ Normal k.host := by
  have hheld := planned_routes snapshot opts k
  rw [h, Option.map_some] at hheld
  have hspec := holder_spec snapshot opts hheld.symm
  exact ⟨hspec.1, hspec.2⟩

end Planned

end Ramjet.Controller.Claims
